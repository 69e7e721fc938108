/-
# Rendition.Proofs.Math.Arity -- every element of MathML has as many parts as its tag asks for

`Elements` is the grammar of MathML on the text itself: so many elements in a row,
each closed by the tag that opened it.  The elements of tokens hold escaped text
and nothing else; the others hold elements and nothing else, and how many is a
matter of the tag (`BranchKind.admits`): a fraction has two, a row may have any
number but one.

What is written for a node is one such element (`elements_mathML`), although a row
around a single node and a base without scripts leave no element behind: what is
written in their place is again one.  Nor can the text be taken for another number
of elements, because a text without its tags determines how many there are
(`Elements.cancel`).
-/
import Rendition.Proofs.Markup.Fragment
import Rendition.Proofs.Math.Elements

namespace Rendition

set_option autoImplicit false

open Rendition.Markup

/-! ## Escaped text -/

/-- Whether XML lets a character stand for itself everywhere. -/
def Escape.isUnreserved (c : Char) : Bool := c ∉ Escape.xmlReserved

/-- Escaped text is made of unreserved characters and the entities of the reserved ones. -/
theorem literal_xml_isUnreserved (text : String) :
    Literal .docBook Escape.isUnreserved (Escape.xml text) := by
  refine literal_substitute (fun c => ?_) text
  by_cases reserved : c ∈ Escape.xmlReserved
  · simp only [Escape.xmlReserved, List.mem_cons, List.not_mem_nil, or_false] at reserved
    rcases reserved with rfl | rfl | rfl | rfl | rfl
    · exact literal_reference (by decide : "apos" ∈ TagFormat.docBook.references)
    · exact literal_reference (by decide : "amp" ∈ TagFormat.docBook.references)
    · exact literal_reference (by decide : "lt" ∈ TagFormat.docBook.references)
    · exact literal_reference (by decide : "gt" ∈ TagFormat.docBook.references)
    · exact literal_reference (by decide : "quot" ∈ TagFormat.docBook.references)
  · rw [Escape.xmlEntity_of_notMem reserved]
    exact literal_singleton (decide_eq_true reserved)

theorem isTextChar_of_isUnreserved (c : Char) (unreserved : Escape.isUnreserved c) :
    isTextChar c := by
  have other : c ∉ Escape.xmlReserved := of_decide_eq_true unreserved
  refine isTextChar_iff.mpr ⟨?_, ?_, ?_⟩ <;> rintro rfl <;> exact other (by decide)

theorem xml_singleton_append (c : Char) (text : String) :
    Escape.xml (String.singleton c ++ text) = Escape.xmlEntity c ++ Escape.xml text := by
  rw [Escape.xml, Escape.xml, Text.substitute_append]
  simp [Text.substitute]

/-- Every such text is the escape of another. -/
theorem exists_xml_eq_of_literal {body : String}
    (literal : Literal .docBook Escape.isUnreserved body) : ∃ text, Escape.xml text = body := by
  induction literal with
  | empty => exact ⟨"", rfl⟩
  | @char c rest unreserved _ ih =>
      obtain ⟨text, rfl⟩ := ih
      refine ⟨String.singleton c ++ text, ?_⟩
      rw [xml_singleton_append, Escape.xmlEntity_of_notMem (of_decide_eq_true unreserved)]
  | @reference name rest known _ ih =>
      obtain ⟨text, rfl⟩ := ih
      have entities : TagFormat.docBook.references.all fun name =>
          Escape.xmlReserved.any fun c => Escape.xmlEntity c == "&" ++ name ++ ";" := by decide
      obtain ⟨c, -, entity⟩ := List.any_eq_true.mp (List.all_eq_true.mp entities name known)
      refine ⟨String.singleton c ++ text, ?_⟩
      rw [xml_singleton_append, eq_of_beq entity]

namespace Math

/-! ## The grammar -/

/-- Whether an element of a kind may be made of so many elements. -/
def BranchKind.admits : BranchKind → Nat → Bool
  | .row, parts => parts ≠ 1
  | .root, parts => parts = 1
  | .fraction, parts | .sub, parts | .sup, parts => parts = 2
  | .subsup, parts => parts = 3

/-- The text of so many elements in a row, each with as many parts as its tag asks for. -/
inductive Elements : Nat → String → Prop where
  | nil : Elements 0 ""
  | leaf {kind : LeafKind} {body rest : String} {count : Nat} :
      Literal .docBook Escape.isUnreserved body → Elements count rest →
      Elements (count + 1)
        ("<" ++ kind.tag ++ ">" ++ body ++ ("</" ++ kind.tag ++ ">") ++ rest)
  | branch {kind : BranchKind} {content rest : String} {parts count : Nat} :
      kind.admits parts → Elements parts content → Elements count rest →
      Elements (count + 1)
        ("<" ++ kind.tag ++ ">" ++ content ++ ("</" ++ kind.tag ++ ">") ++ rest)

theorem tagged_eq (tag content : String) :
    tagged tag content = "<" ++ tag ++ ">" ++ content ++ ("</" ++ tag ++ ">") := by
  simp [tagged, Markup.element, Markup.openTag, Markup.closeTag, Markup.attributesText]

namespace Elements

/-- Elements after another add up. -/
theorem append {count more : Nat} {first second : String} (left : Elements count first)
    (right : Elements more second) : Elements (count + more) (first ++ second) := by
  induction left with
  | nil => simpa using right
  | leaf literal _ ih =>
      rw [String.append_assoc, Nat.add_right_comm]
      exact .leaf literal ih
  | branch admitted content _ _ ih =>
      rw [String.append_assoc, Nat.add_right_comm]
      exact .branch admitted content ih

/-- One element around escaped text. -/
theorem tagged_leaf (kind : LeafKind) (text : String) :
    Elements 1 (tagged kind.tag (Escape.xml text)) := by
  have alone : Elements 1 _ := @Elements.leaf kind _ _ _ (literal_xml_isUnreserved text) .nil
  rwa [String.append_empty, ← tagged_eq] at alone

/-- One element around elements. -/
theorem tagged_branch (kind : BranchKind) {parts : Nat} {content : String}
    (admitted : kind.admits parts) (inner : Elements parts content) :
    Elements 1 (tagged kind.tag content) := by
  have alone : Elements 1 _ := .branch admitted inner .nil
  rwa [String.append_empty, ← tagged_eq] at alone

end Elements

/-! ## What is written for a node -/

mutual

/-- **What is written for a node is one element**, and every element in it has as many parts as
its tag asks for. -/
theorem elements_mathML (node : Node) : Elements 1 node.mathML := by
  match node with
  | .row [] => exact Elements.tagged_branch .row rfl .nil
  | .row [child] => exact elements_mathML child
  | .row (first :: second :: rest) =>
      refine Elements.tagged_branch .row ?_ (elements_mathMLAll (first :: second :: rest))
      simp [BranchKind.admits]
  | .identifier name => exact Elements.tagged_leaf .identifier name
  | .number digits => exact Elements.tagged_leaf .number digits
  | .operator symbol => exact Elements.tagged_leaf .operator symbol
  | .text body => exact Elements.tagged_leaf .text body
  | .fraction numerator denominator =>
      exact Elements.tagged_branch .fraction rfl
        ((elements_mathML numerator).append (elements_mathML denominator))
  | .root radicand => exact Elements.tagged_branch .root rfl (elements_mathML radicand)
  | .scripts base (some sub) (some sup) =>
      exact Elements.tagged_branch .subsup rfl
        (((elements_mathML base).append (elements_mathML sub)).append (elements_mathML sup))
  | .scripts base (some sub) none =>
      exact Elements.tagged_branch .sub rfl
        ((elements_mathML base).append (elements_mathML sub))
  | .scripts base none (some sup) =>
      exact Elements.tagged_branch .sup rfl
        ((elements_mathML base).append (elements_mathML sup))
  | .scripts base none none => exact elements_mathML base

/-- Every node of a sequence is written as exactly one element. -/
theorem elements_mathMLAll (nodes : List Node) :
    Elements nodes.length (Node.mathMLAll nodes) := by
  match nodes with
  | [] => exact .nil
  | node :: rest =>
      rw [List.length_cons, Nat.add_comm]
      exact (elements_mathML node).append (elements_mathMLAll rest)

end

/-! ## Counting the elements of a text -/

namespace Elements

/-- The text of so many elements is what is written for as many trees. -/
theorem exists_writeAll_eq {count : Nat} {text : String} (elements : Elements count text) :
    ∃ trees : List Element, Element.writeAll trees = text ∧ trees.length = count := by
  induction elements with
  | nil => exact ⟨[], rfl, rfl⟩
  | @leaf kind body rest count literal _ ih =>
      obtain ⟨name, rfl⟩ := exists_xml_eq_of_literal literal
      obtain ⟨trees, rfl, rfl⟩ := ih
      refine ⟨.leaf kind name :: trees, ?_, rfl⟩
      rw [Element.writeAll, Element.write, tagged_eq]
  | @branch kind content rest parts count _ _ _ inner ih =>
      obtain ⟨inside, rfl, -⟩ := inner
      obtain ⟨trees, rfl, rfl⟩ := ih
      refine ⟨.branch kind inside :: trees, ?_, rfl⟩
      rw [Element.writeAll, Element.write, tagged_eq]

/-- A text determines how many elements it is. -/
theorem count_eq {count other : Nat} {text : String} (first : Elements count text)
    (second : Elements other text) : count = other := by
  obtain ⟨trees, rfl, rfl⟩ := first.exists_writeAll_eq
  obtain ⟨others, same, rfl⟩ := second.exists_writeAll_eq
  -- the trees are read back from their text in front of a closing tag
  have closed : (Element.writeAll others).toList ++ '<' :: '/' :: [] =
      (Element.writeAll trees).toList ++ '<' :: '/' :: [] := by rw [same]
  rw [(Element.writeAll_cancel others trees [] [] closed).1]

end Elements

/-- **Every element of MathML has as many parts as its tag asks for.**  What is written for a node,
parsed or not, is one element by the grammar of such elements, and no other number of them; so is
what a math body is compiled to in either form. -/
theorem elements_iff :
    (∀ (node : Node) (count : Nat), Elements count node.mathML ↔ count = 1) ∧
      ∀ (form : MathForm) (body : String) (count : Nat),
        Elements count (compile form body) ↔ count = 1 := by
  have one : ∀ (node : Node) (count : Nat), Elements count node.mathML ↔ count = 1 := by
    intro node count
    constructor
    · intro elements
      exact elements.count_eq (elements_mathML node)
    · rintro rfl
      exact elements_mathML node
  exact ⟨one, fun form body => one (parse (latexSource form body))⟩

end Math

end Rendition
