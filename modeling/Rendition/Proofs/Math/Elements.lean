/-
# Rendition.Proofs.Math.Elements -- math expressions read back from their MathML

MathML is a tree of elements with two sorts of tags: those around escaped text and
those around elements.  What is written for a node is the text of such a tree
(`mathML_eq_write`), and in front of any text the tree is read off again
(`Element.write_cancel`): the tag is the name before the first bracket, text ends
at the next tag, and the parts of a branch end at the first closing tag.

The tree leaves out grouping: a row around one node and a base without scripts
have the tree of what they group.  Nothing else is lost, because the node without
such grouping (`Node.norm`) is determined by the tree.  So two nodes have the same
MathML exactly if they are the same up to grouping (`mathML_eq_iff`).
-/
import Rendition.Math.MathML
import Rendition.Proofs.Text.Escape

namespace Rendition.Math

set_option autoImplicit false

/-! ## Grouping -/

namespace Node

mutual

/-- The node without rows around a single node and without bases that carry no script. -/
def norm : Node → Node
  | .row [child] => child.norm
  | .row children => .row (normAll children)
  | .identifier name => .identifier name
  | .number digits => .number digits
  | .operator symbol => .operator symbol
  | .text body => .text body
  | .fraction numerator denominator => .fraction numerator.norm denominator.norm
  | .root radicand => .root radicand.norm
  | .scripts base none none => base.norm
  | .scripts base (some sub) none => .scripts base.norm (some sub.norm) none
  | .scripts base none (some sup) => .scripts base.norm none (some sup.norm)
  | .scripts base (some sub) (some sup) => .scripts base.norm (some sub.norm) (some sup.norm)

def normAll : List Node → List Node
  | [] => []
  | node :: rest => node.norm :: normAll rest

end

end Node

/-! ## Elements -/

/-- The elements around text. -/
inductive LeafKind where
  | identifier
  | number
  | operator
  | text
  deriving DecidableEq

/-- The elements around elements. -/
inductive BranchKind where
  | row
  | fraction
  | root
  | sub
  | sup
  | subsup
  deriving DecidableEq

def LeafKind.tag : LeafKind → String
  | .identifier => "mi"
  | .number => "mn"
  | .operator => "mo"
  | .text => "mtext"

def BranchKind.tag : BranchKind → String
  | .row => "mrow"
  | .fraction => "mfrac"
  | .root => "msqrt"
  | .sub => "msub"
  | .sup => "msup"
  | .subsup => "msubsup"

inductive Element where
  | leaf (kind : LeafKind) (body : String)
  | branch (kind : BranchKind) (parts : List Element)

namespace Element

mutual

def write : Element → String
  | .leaf kind body => tagged kind.tag (Escape.xml body)
  | .branch kind parts => tagged kind.tag (writeAll parts)

def writeAll : List Element → String
  | [] => ""
  | part :: rest => part.write ++ writeAll rest

end

mutual

/-- The node that an element shows, if it has as many parts as its tag asks for. -/
def node : Element → Node
  | .leaf .identifier body => .identifier body
  | .leaf .number body => .number body
  | .leaf .operator body => .operator body
  | .leaf .text body => .text body
  | .branch .row parts => .row (nodes parts)
  | .branch .fraction [numerator, denominator] => .fraction numerator.node denominator.node
  | .branch .root [radicand] => .root radicand.node
  | .branch .sub [base, sub] => .scripts base.node (some sub.node) none
  | .branch .sup [base, sup] => .scripts base.node none (some sup.node)
  | .branch .subsup [base, sub, sup] => .scripts base.node (some sub.node) (some sup.node)
  | .branch _ _ => .row []

def nodes : List Element → List Node
  | [] => []
  | part :: rest => part.node :: nodes rest

end

end Element

namespace Node

mutual

/-- The element that is written for a node. -/
def element : Node → Element
  | .row [child] => child.element
  | .row children => .branch .row (elements children)
  | .identifier name => .leaf .identifier name
  | .number digits => .leaf .number digits
  | .operator symbol => .leaf .operator symbol
  | .text body => .leaf .text body
  | .fraction numerator denominator => .branch .fraction [numerator.element, denominator.element]
  | .root radicand => .branch .root [radicand.element]
  | .scripts base none none => base.element
  | .scripts base (some sub) none => .branch .sub [base.element, sub.element]
  | .scripts base none (some sup) => .branch .sup [base.element, sup.element]
  | .scripts base (some sub) (some sup) =>
      .branch .subsup [base.element, sub.element, sup.element]

def elements : List Node → List Element
  | [] => []
  | node :: rest => node.element :: elements rest

end

mutual

/-- MathML is the text of the element of a node. -/
theorem mathML_eq_write (node : Node) : node.mathML = node.element.write := by
  match node with
  | .row [] => rfl
  | .row [child] => exact mathML_eq_write child
  | .row (first :: second :: rest) =>
      simp only [mathML, element, Element.write, BranchKind.tag, mathMLAll_eq_writeAll]
  | .identifier _ | .number _ | .operator _ | .text _ => rfl
  | .fraction numerator denominator =>
      simp only [mathML, element, Element.write, Element.writeAll, BranchKind.tag,
        mathML_eq_write numerator, mathML_eq_write denominator, String.append_empty]
  | .root radicand =>
      simp only [mathML, element, Element.write, Element.writeAll, BranchKind.tag,
        mathML_eq_write radicand, String.append_empty]
  | .scripts base none none => exact mathML_eq_write base
  | .scripts base (some sub) none =>
      simp only [mathML, element, Element.write, Element.writeAll, BranchKind.tag,
        mathML_eq_write base, mathML_eq_write sub, String.append_empty]
  | .scripts base none (some sup) =>
      simp only [mathML, element, Element.write, Element.writeAll, BranchKind.tag,
        mathML_eq_write base, mathML_eq_write sup, String.append_empty]
  | .scripts base (some sub) (some sup) =>
      simp only [mathML, element, Element.write, Element.writeAll, BranchKind.tag,
        mathML_eq_write base, mathML_eq_write sub, mathML_eq_write sup, String.append_empty,
        String.append_assoc]

theorem mathMLAll_eq_writeAll (nodes : List Node) :
    mathMLAll nodes = Element.writeAll (elements nodes) := by
  match nodes with
  | [] => rfl
  | node :: rest =>
      simp only [mathMLAll, elements, Element.writeAll, mathML_eq_write node,
        mathMLAll_eq_writeAll rest]

end

mutual

/-- Read back from its element, a node comes out in its normal form. -/
theorem node_element (node : Node) : node.element.node = node.norm := by
  match node with
  | .row [] => rfl
  | .row [child] => exact node_element child
  | .row (first :: second :: rest) =>
      simp only [element, norm, Element.node, nodes_elements]
  | .identifier _ | .number _ | .operator _ | .text _ => rfl
  | .fraction numerator denominator =>
      simp only [element, norm, Element.node, node_element numerator, node_element denominator]
  | .root radicand => simp only [element, norm, Element.node, node_element radicand]
  | .scripts base none none => exact node_element base
  | .scripts base (some sub) none =>
      simp only [element, norm, Element.node, node_element base, node_element sub]
  | .scripts base none (some sup) =>
      simp only [element, norm, Element.node, node_element base, node_element sup]
  | .scripts base (some sub) (some sup) =>
      simp only [element, norm, Element.node, node_element base, node_element sub,
        node_element sup]

theorem nodes_elements (nodes : List Node) : Element.nodes (elements nodes) = normAll nodes := by
  match nodes with
  | [] => rfl
  | node :: rest =>
      simp only [elements, Element.nodes, normAll, node_element node, nodes_elements rest]

end

mutual

/-- A node and its normal form have the same element. -/
theorem element_norm (node : Node) : node.norm.element = node.element := by
  match node with
  | .row [] => rfl
  | .row [child] => exact element_norm child
  | .row (first :: second :: rest) =>
      have parts := elements_normAll (first :: second :: rest)
      simp only [normAll] at parts
      simp only [norm, normAll, element, parts]
  | .identifier _ | .number _ | .operator _ | .text _ => rfl
  | .fraction numerator denominator =>
      simp only [norm, element, element_norm numerator, element_norm denominator]
  | .root radicand => simp only [norm, element, element_norm radicand]
  | .scripts base none none => exact element_norm base
  | .scripts base (some sub) none => simp only [norm, element, element_norm base, element_norm sub]
  | .scripts base none (some sup) => simp only [norm, element, element_norm base, element_norm sup]
  | .scripts base (some sub) (some sup) =>
      simp only [norm, element, element_norm base, element_norm sub, element_norm sup]

theorem elements_normAll (nodes : List Node) : elements (normAll nodes) = elements nodes := by
  match nodes with
  | [] => rfl
  | node :: rest => simp only [normAll, elements, element_norm node, elements_normAll rest]

end

/-- The same element is written exactly for nodes that are the same up to grouping. -/
theorem element_eq_iff (a b : Node) : a.element = b.element ↔ a.norm = b.norm := by
  constructor
  · intro same
    rw [← node_element, ← node_element, same]
  · intro same
    rw [← element_norm a, ← element_norm b, same]

end Node

/-! ## Reading -/

/-- What stands before the first of a character is determined by the text, and so is the rest. -/
theorem append_cons_cancel {c : Char} {first other s t : List Char} (here : c ∉ first)
    (there : c ∉ other) (same : first ++ c :: s = other ++ c :: t) : first = other ∧ s = t := by
  induction first generalizing other with
  | nil =>
      cases other with
      | nil => exact ⟨rfl, (List.cons.inj same).2⟩
      | cons d other => exact absurd ((List.cons.inj same).1 ▸ List.mem_cons_self) there
  | cons d first ih =>
      cases other with
      | nil => exact absurd ((List.cons.inj same).1 ▸ List.mem_cons_self) here
      | cons e other =>
          obtain ⟨rfl, rest⟩ := List.cons.inj same
          obtain ⟨rfl, after⟩ := ih (List.not_mem_of_not_mem_cons here)
            (List.not_mem_of_not_mem_cons there) rest
          exact ⟨rfl, after⟩

theorem toList_tagged (tag content : String) :
    (tagged tag content).toList =
      '<' :: (tag.toList ++ '>' :: (content.toList ++ '<' :: '/' :: (tag.toList ++ ['>']))) := by
  simp [tagged, Markup.element, Markup.openTag, Markup.closeTag, Markup.attributesText]

/-- Two elements in front of two texts: the tags are the same, and so is what follows them. -/
theorem tagged_cancel {tag other content body : String} {s t : List Char}
    (named : '>' ∉ tag.toList) (called : '>' ∉ other.toList)
    (same : (tagged tag content).toList ++ s = (tagged other body).toList ++ t) :
    tag = other ∧
      content.toList ++ '<' :: '/' :: (tag.toList ++ '>' :: s) =
        body.toList ++ '<' :: '/' :: (tag.toList ++ '>' :: t) := by
  simp only [toList_tagged, List.cons_append, List.append_assoc, List.cons.injEq, true_and,
    List.nil_append] at same
  obtain ⟨tags, after⟩ := append_cons_cancel named called same
  obtain rfl := String.toList_inj.mp tags
  exact ⟨rfl, after⟩

theorem LeafKind.tag_inj {kind other : LeafKind} (same : kind.tag = other.tag) :
    kind = other := by
  revert same
  cases kind <;> cases other <;> decide

theorem BranchKind.tag_inj {kind other : BranchKind} (same : kind.tag = other.tag) :
    kind = other := by
  revert same
  cases kind <;> cases other <;> decide

/-- No tag stands around text in one place and around elements in another. -/
theorem leafTag_ne_branchTag (kind : LeafKind) (other : BranchKind) : kind.tag ≠ other.tag := by
  cases kind <;> cases other <;> decide

theorem LeafKind.bracket_notMem_tag (kind : LeafKind) : '>' ∉ kind.tag.toList := by
  cases kind <;> decide

theorem BranchKind.bracket_notMem_tag (kind : BranchKind) : '>' ∉ kind.tag.toList := by
  cases kind <;> decide

namespace Element

/-- An element begins with an opening tag. -/
theorem exists_write_eq (element : Element) :
    ∃ rest, element.write.toList = '<' :: 'm' :: rest := by
  have leaves : ∀ kind : LeafKind, ∃ name, kind.tag.toList = 'm' :: name := by
    intro kind
    cases kind <;> exact ⟨_, rfl⟩
  have branches : ∀ kind : BranchKind, ∃ name, kind.tag.toList = 'm' :: name := by
    intro kind
    cases kind <;> exact ⟨_, rfl⟩
  cases element with
  | leaf kind body =>
      obtain ⟨name, tag⟩ := leaves kind
      rw [write, toList_tagged, tag]
      exact ⟨_, rfl⟩
  | branch kind parts =>
      obtain ⟨name, tag⟩ := branches kind
      rw [write, toList_tagged, tag]
      exact ⟨_, rfl⟩

/-- Where an element begins no other ends: the signs after the bracket differ. -/
theorem writeAll_cons_ne {part : Element} {rest : List Element} {s t : List Char} :
    '<' :: '/' :: s ≠ (writeAll (part :: rest)).toList ++ t := by
  obtain ⟨others, first⟩ := part.exists_write_eq
  rw [writeAll, String.toList_append, first]
  intro same
  exact absurd (List.cons.inj (List.cons.inj same).2).1 (by decide)

/-- Escaped text ends where the next tag begins. -/
theorem xml_cancel {body text : String} {s t : List Char}
    (same : (Escape.xml body).toList ++ '<' :: s = (Escape.xml text).toList ++ '<' :: t) :
    body = text ∧ s = t := by
  have literal : ∀ text : String, '<' ∉ (Escape.xml text).toList :=
    Escape.writesEntities_xml.notMem (by decide) (by decide)
  obtain ⟨bodies, after⟩ := append_cons_cancel (literal body) (literal text) same
  exact ⟨Escape.xml_injective (String.toList_inj.mp bodies), after⟩

mutual

/-- **An element in front of any text is read back**, and the text after it. -/
theorem write_cancel (a b : Element) (s t : List Char)
    (same : a.write.toList ++ s = b.write.toList ++ t) : a = b ∧ s = t := by
  match a, b with
  | .leaf kind body, .leaf other text =>
      obtain ⟨tags, content⟩ := tagged_cancel kind.bracket_notMem_tag other.bracket_notMem_tag same
      obtain rfl := LeafKind.tag_inj tags
      obtain ⟨rfl, closing⟩ := xml_cancel content
      exact ⟨rfl, by simpa using closing⟩
  | .leaf kind _, .branch other _ =>
      obtain ⟨tags, -⟩ := tagged_cancel kind.bracket_notMem_tag other.bracket_notMem_tag same
      exact absurd tags (leafTag_ne_branchTag kind other)
  | .branch kind _, .leaf other _ =>
      obtain ⟨tags, -⟩ := tagged_cancel kind.bracket_notMem_tag other.bracket_notMem_tag same
      exact absurd tags.symm (leafTag_ne_branchTag other kind)
  | .branch kind parts, .branch other others =>
      obtain ⟨tags, content⟩ := tagged_cancel kind.bracket_notMem_tag other.bracket_notMem_tag same
      obtain rfl := BranchKind.tag_inj tags
      obtain ⟨rfl, closing⟩ := writeAll_cancel parts others _ _ content
      exact ⟨rfl, by simpa using closing⟩

/-- Elements in front of a closing tag are read back, and the text after its slash. -/
theorem writeAll_cancel (parts others : List Element) (s t : List Char)
    (same : (writeAll parts).toList ++ '<' :: '/' :: s =
      (writeAll others).toList ++ '<' :: '/' :: t) : parts = others ∧ s = t := by
  match parts, others with
  | [], [] => exact ⟨rfl, by simpa [writeAll] using same⟩
  | [], _ :: _ => exact absurd same writeAll_cons_ne
  | _ :: _, [] => exact absurd same.symm writeAll_cons_ne
  | part :: rest, other :: others =>
      simp only [writeAll, String.toList_append, List.append_assoc] at same
      obtain ⟨rfl, following⟩ := write_cancel part other _ _ same
      obtain ⟨rfl, closing⟩ := writeAll_cancel rest others s t following
      exact ⟨rfl, closing⟩

end

end Element

/-- **MathML loses nothing but grouping.**  Two math expressions, parsed or not, have the same
MathML exactly if they differ only in rows around a single node and in bases without scripts. -/
theorem mathML_eq_iff (a b : Node) : a.mathML = b.mathML ↔ a.norm = b.norm := by
  rw [← Node.element_eq_iff, Node.mathML_eq_write, Node.mathML_eq_write]
  refine ⟨fun same => ?_, congrArg Element.write⟩
  have lists : a.element.write.toList ++ [] = b.element.write.toList ++ [] := by rw [same]
  exact (Element.write_cancel _ _ _ _ lists).1

end Rendition.Math
