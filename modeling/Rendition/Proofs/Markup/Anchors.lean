/-
# Rendition.Proofs.Markup.Anchors -- which footnotes the markup anchors

In HTML a footnote is anchored where it is defined: a node that shows content
under a number is written as an element with the id of the number.  No other
function of the dialect writes an attribute with that name, and escaped text
never makes one.  So the markup of content without passthroughs has the anchor of
a number as often as a node of the content defines it (`hasAnchors_markupAll`).

Anchors are counted for one id at a time.  Those of callouts are of another form
(`hasAnchors_annotated`).
-/
import Rendition.Proofs.Callout.Marks
import Rendition.Proofs.Footnote.Defining
import Rendition.Proofs.Markup.Attributes
import Rendition.Proofs.Markup.Dialects

namespace Rendition

set_option autoImplicit false

open Rendition.Markup

namespace Markup

def countAnchors (anchor text : String) : Nat := (attributes text).count ("id", anchor)

/-- A text that gives an id so many times and ends outside of all tags. -/
def HasAnchors (anchor text : String) (count : Nat) : Prop :=
  ∃ listed, Carries text listed ∧ listed.count ("id", anchor) = count

variable {anchor : String}

namespace HasAnchors

theorem countAnchors_eq {text : String} {count : Nat} (has : HasAnchors anchor text count) :
    countAnchors anchor text = count := by
  obtain ⟨listed, carries, counted⟩ := has
  rw [countAnchors, carries.attributes_eq, counted]

/-- Anchors of two pieces add up. -/
theorem append {first second : String} {count more : Nat} (left : HasAnchors anchor first count)
    (right : HasAnchors anchor second more) :
    HasAnchors anchor (first ++ second) (count + more) := by
  obtain ⟨listed, carries, rfl⟩ := left
  obtain ⟨others, carried, rfl⟩ := right
  exact ⟨listed ++ others, carries.append carried, List.count_append⟩

end HasAnchors

theorem hasAnchors_empty : HasAnchors anchor "" 0 := ⟨[], carries_empty, rfl⟩

theorem hasAnchors_literal {format : TagFormat} {body : String}
    (literal : Literal format isTextChar body) : HasAnchors anchor body 0 :=
  ⟨[], carries_literal literal, rfl⟩

/-- Escaped text gives no id. -/
theorem hasAnchors_of_literal {format : TagFormat} {body : String}
    (literal : Literal format isValueChar body) : HasAnchors anchor body 0 :=
  hasAnchors_literal (literal.mono fun _ allowed => (isValueChar_iff.mp allowed).1)

theorem hasAnchors_constant {body : String} (allowed : body.toList.all isValueChar) :
    HasAnchors anchor body 0 :=
  hasAnchors_of_literal (literal_constant allowed : Literal .html isValueChar body)

theorem hasAnchors_html (text : String) : HasAnchors anchor (Escape.html text) 0 :=
  hasAnchors_of_literal (literal_html text : Literal .html isValueChar _)

variable (anchor) in
/-- An attribute that does not give the id. -/
def Ordinary (entry : TagAttribute) : Prop := Quotable entry ∧ entry ≠ ("id", anchor)

theorem ordinary_of_literal {format : TagFormat} {name value : String} (named : isName name)
    (other : name ≠ "id") (literal : Literal format isValueChar value) :
    Ordinary anchor (name, value) :=
  ⟨⟨named, (Callout.notMem_of_literal literal).2⟩, fun same => other (congrArg Prod.fst same)⟩

theorem ordinary_constant {name value : String} (named : isName name) (other : name ≠ "id")
    (allowed : value.toList.all isValueChar) : Ordinary anchor (name, value) :=
  ordinary_of_literal named other (literal_constant allowed : Literal .html isValueChar value)

theorem count_eq_zero_of_ordinary {own : List TagAttribute}
    (ordinary : ∀ entry ∈ own, Ordinary anchor entry) : own.count ("id", anchor) = 0 :=
  List.count_eq_zero.mpr fun listed => (ordinary _ listed).2 rfl

/-- A tag without the id among its attributes does not give it. -/
theorem hasAnchors_openTag {name : String} {own : List TagAttribute} (named : isName name)
    (ordinary : ∀ entry ∈ own, Ordinary anchor entry) : HasAnchors anchor (openTag name own) 0 :=
  ⟨own, carries_openTag named fun entry listed => (ordinary entry listed).1,
    count_eq_zero_of_ordinary ordinary⟩

/-- An element without an id has the anchors of its content. -/
theorem hasAnchors_element {name content : String} {own : List TagAttribute} {count : Nat}
    (named : isName name) (ordinary : ∀ entry ∈ own, Ordinary anchor entry)
    (inner : HasAnchors anchor content count) :
    HasAnchors anchor (element name own content) count := by
  obtain ⟨listed, carries, rfl⟩ := inner
  have quotable : ∀ entry ∈ own, Quotable entry := fun entry inside => (ordinary entry inside).1
  refine ⟨own ++ listed, carries_element named quotable carries, ?_⟩
  rw [List.count_append, count_eq_zero_of_ordinary ordinary, Nat.zero_add]

theorem hasAnchors_plain {name content : String} {count : Nat} (named : isName name)
    (inner : HasAnchors anchor content count) :
    HasAnchors anchor (element name [] content) count :=
  hasAnchors_element named (fun _ listed => absurd listed List.not_mem_nil) inner

theorem hasAnchors_join {parts : List String} (each : ∀ part ∈ parts, HasAnchors anchor part 0) :
    HasAnchors anchor (String.join parts) 0 := by
  induction parts with
  | nil => exact hasAnchors_empty
  | cons part parts ih =>
      obtain ⟨first, others⟩ := List.forall_mem_cons.mp each
      rw [String.join_cons]
      exact first.append (ih others)

theorem hasAnchors_intercalate {separator : String} (between : HasAnchors anchor separator 0)
    {parts : List String} (each : ∀ part ∈ parts, HasAnchors anchor part 0) :
    HasAnchors anchor (separator.intercalate parts) 0 := by
  match parts with
  | [] => exact hasAnchors_empty
  | [part] => simpa using each part (List.mem_singleton_self part)
  | part :: next :: rest =>
      obtain ⟨first, others⟩ := List.forall_mem_cons.mp each
      rw [String.intercalate_cons_cons]
      exact (first.append between).append (hasAnchors_intercalate between others)

end Markup

/-! ## Leaves -/

variable {anchor : String}

/-- Elements of MathML have no attributes. -/
theorem hasAnchors_of_elements {count : Nat} {text : String} (elements : Math.Elements count text) :
    HasAnchors anchor text 0 := by
  induction elements with
  | nil => exact hasAnchors_empty
  | @leaf kind _ _ _ literal _ ih =>
      rw [← Math.tagged_eq]
      exact (hasAnchors_plain (by cases kind <;> decide)
        (hasAnchors_literal (literal.mono isTextChar_of_isUnreserved))).append ih
  | @branch kind _ _ _ _ _ _ _ inner ih =>
      rw [← Math.tagged_eq]
      exact (hasAnchors_plain (by cases kind <;> decide) inner).append ih

theorem hasAnchors_mathML (node : Math.Node) : HasAnchors anchor node.mathML 0 :=
  hasAnchors_of_elements (Math.elements_mathML node)

namespace Html

/-- An element with a class and no id. -/
theorem hasAnchors_classed {name kind content : String} {count : Nat} (named : isName name)
    (constant : kind.toList.all isValueChar) (inner : HasAnchors anchor content count) :
    HasAnchors anchor (element name [("class", kind)] content) count := by
  have own : Ordinary anchor ("class", kind) := ordinary_constant (by decide) (by decide) constant
  exact hasAnchors_element named (List.forall_mem_singleton.mpr own) inner

theorem hasAnchors_anchor (address : String) {content : String} {count : Nat}
    (inner : HasAnchors anchor content count) :
    HasAnchors anchor (Html.anchor address content) count := by
  have own : Ordinary anchor ("href", Escape.attributeValue address) :=
    ordinary_of_literal (by decide) (by decide) (literal_attributeValue address)
  exact hasAnchors_element (by decide) (List.forall_mem_singleton.mpr own) inner

theorem hasAnchors_math (formula : Formula) (display : Bool) :
    HasAnchors anchor (math formula display) 0 := by
  have prefixed : Ordinary anchor ("xmlns", "http://www.w3.org/1998/Math/MathML") :=
    ordinary_constant (by decide) (by decide) (by decide)
  have shown : Ordinary anchor ("display", if display then "block" else "inline") := by
    cases display <;> exact ordinary_constant (by decide) (by decide) (by decide)
  refine hasAnchors_classed ?_ (by decide) ?_
  · cases display <;> decide
  · refine hasAnchors_element (by decide) ?_ (hasAnchors_mathML _)
    exact List.forall_mem_cons.mpr ⟨prefixed, List.forall_mem_singleton.mpr shown⟩

theorem hasAnchors_menuStep {kind : String} (constant : kind.toList.all isValueChar)
    (item : String) : HasAnchors anchor (menuStep kind item) 0 := by
  have space : HasAnchors anchor "&#160;" 0 :=
    hasAnchors_literal (literal_reference (by decide : "#160" ∈ TagFormat.html.references))
  have arrow : HasAnchors anchor "&#8250;" 0 :=
    hasAnchors_literal (literal_reference (by decide : "#8250" ∈ TagFormat.html.references))
  have caret : HasAnchors anchor (element "b" [("class", "caret")] "&#8250;") 0 :=
    hasAnchors_classed (by decide) (by decide) arrow
  have blank : HasAnchors anchor " " 0 := hasAnchors_constant (by decide)
  exact ((space.append caret).append blank).append
    (hasAnchors_classed (by decide) constant (hasAnchors_html item))

theorem hasAnchors_menuSteps (path : List String) : HasAnchors anchor (menuSteps path) 0 := by
  match path with
  | [] => exact hasAnchors_empty
  | [item] => exact hasAnchors_menuStep (by decide) item
  | submenu :: next :: rest =>
      exact (hasAnchors_menuStep (by decide) submenu).append (hasAnchors_menuSteps (next :: rest))

theorem hasAnchors_menu (path : List String) : HasAnchors anchor (menu path) 0 := by
  match path with
  | [] => exact hasAnchors_empty
  | [only] => exact hasAnchors_classed (by decide) (by decide) (hasAnchors_html only)
  | first :: next :: rest =>
      exact hasAnchors_classed (by decide) (by decide)
        ((hasAnchors_classed (by decide) (by decide) (hasAnchors_html first)).append
          (hasAnchors_menuSteps (next :: rest)))

theorem hasAnchors_keys (names : List String) : HasAnchors anchor (keys names) 0 := by
  have each : ∀ key ∈ names.map fun key => element "kbd" [] (Escape.html key),
      HasAnchors anchor key 0 := by
    rw [List.forall_mem_map]
    exact fun key _ => hasAnchors_plain (by decide) (hasAnchors_html key)
  unfold keys
  split
  · exact hasAnchors_empty
  · rename_i key alone
    exact each key (by rw [alone]; exact List.mem_singleton_self key)
  · exact hasAnchors_classed (by decide) (by decide)
      (hasAnchors_intercalate (hasAnchors_constant (by decide)) each)

theorem hasAnchors_command (named : Command) : HasAnchors anchor (command named) 0 := by
  have escaped : ∀ {name : String} (value : String), isName name → name ≠ "id" →
      Ordinary anchor (name, Escape.attributeValue value) := fun value valid other =>
    ordinary_of_literal valid other (literal_attributeValue value)
  unfold command
  split_ifs with image icon kbd button menu
  · refine hasAnchors_classed (by decide) (by decide) (hasAnchors_openTag (by decide) ?_)
    exact List.forall_mem_cons.mpr ⟨escaped _ (by decide) (by decide),
      List.forall_mem_singleton.mpr (escaped _ (by decide) (by decide))⟩
  · have fixed : Literal .html isValueChar "fa fa-" := literal_constant (by decide)
    have own :
        Ordinary anchor ("class", "fa fa-" ++ Escape.attributeValue (named.target.getD "")) :=
      ordinary_of_literal (by decide) (by decide) (fixed.append (literal_attributeValue _))
    exact hasAnchors_classed (by decide) (by decide)
      (hasAnchors_element (by decide) (List.forall_mem_singleton.mpr own) hasAnchors_empty)
  · exact hasAnchors_keys _
  · exact hasAnchors_classed (by decide) (by decide) (hasAnchors_html _)
  · exact hasAnchors_menu _
  · refine hasAnchors_element (by decide) ?_ (hasAnchors_html _)
    refine List.forall_mem_cons.mpr ⟨ordinary_constant (by decide) (by decide) (by decide), ?_⟩
    refine List.forall_mem_cons.mpr ⟨escaped _ (by decide) (by decide), ?_⟩
    rw [List.forall_mem_map]
    exact fun target _ => escaped target (by decide) (by decide)

/-! ## Footnotes -/

/-- Different numbers have different anchors. -/
theorem footnoteAnchor_inj {id other : UInt32} (same : footnoteAnchor id = footnoteAnchor other) :
    id = other := by
  have characters := congrArg String.toList same
  simp only [footnoteAnchor, String.toList_append, List.append_cancel_left_eq] at characters
  have numbers := congrArg Text.readNatural? characters
  rw [Text.readNatural?_repr, Text.readNatural?_repr, Option.some.injEq] at numbers
  exact UInt32.toNat_inj.mp numbers

theorem literal_footnoteAnchor (id : UInt32) : Literal .html isValueChar (footnoteAnchor id) :=
  (literal_constant (by decide)).append (literal_repr _)

theorem ordinary_footnoteAddress (id : UInt32) : Ordinary anchor ("href", footnoteAddress id) :=
  ordinary_of_literal (by decide) (by decide) (literal_footnoteAddress id)

theorem hasAnchors_footnoteReference (id : UInt32) :
    HasAnchors anchor (footnoteReference id) 0 := by
  have number : HasAnchors anchor id.toNat.repr 0 :=
    hasAnchors_of_literal (literal_repr id.toNat : Literal .html isValueChar _)
  have bracket : HasAnchors anchor "[" 0 := hasAnchors_constant (by decide)
  have closing : HasAnchors anchor "]" 0 := hasAnchors_constant (by decide)
  have own : ∀ entry ∈ [("class", "footnote"), ("href", footnoteAddress id),
      ("title", "View footnote.")], Ordinary anchor entry := by
    have shown : Ordinary anchor ("title", "View footnote.") :=
      ordinary_constant (by decide) (by decide) (by decide)
    refine List.forall_mem_cons.mpr ⟨ordinary_constant (by decide) (by decide) (by decide), ?_⟩
    exact List.forall_mem_cons.mpr
      ⟨ordinary_footnoteAddress id, List.forall_mem_singleton.mpr shown⟩
  have link := hasAnchors_element (by decide : isName "a") own number
  exact hasAnchors_classed (by decide) (by decide) ((bracket.append link).append closing)

/-- A footnote where it is defined has the anchor of its number, besides those of its content. -/
theorem hasAnchors_footnoteDefinition (id own : UInt32) {content : String} {count : Nat}
    (inner : HasAnchors (footnoteAnchor id) content count) :
    HasAnchors (footnoteAnchor id) (footnoteDefinition (some own) content)
      (count + if own = id then 1 else 0) := by
  have number : HasAnchors (footnoteAnchor id) own.toNat.repr 0 :=
    hasAnchors_of_literal (literal_repr own.toNat : Literal .html isValueChar _)
  have bracket : HasAnchors (footnoteAnchor id) "[" 0 := hasAnchors_constant (by decide)
  have closing : HasAnchors (footnoteAnchor id) "] " 0 := hasAnchors_constant (by decide)
  have backlink : HasAnchors (footnoteAnchor id)
      (element "a" [("href", footnoteAddress own)] own.toNat.repr) 0 :=
    hasAnchors_element (by decide) (List.forall_mem_singleton.mpr (ordinary_footnoteAddress own))
      number
  obtain ⟨listed, carries, counted⟩ := ((bracket.append backlink).append closing).append inner
  have quotable : ∀ entry ∈ [("class", "footnote"), ("id", footnoteAnchor own)],
      Quotable entry := by
    have quoted := (Callout.notMem_of_literal (literal_footnoteAnchor own)).2
    have named : isName "id" := by decide
    exact List.forall_mem_cons.mpr ⟨by decide, List.forall_mem_singleton.mpr ⟨named, quoted⟩⟩
  refine ⟨_, carries_element (by decide) quotable carries, ?_⟩
  have itself : ("id", footnoteAnchor own) = ("id", footnoteAnchor id) ↔ own = id := by
    rw [Prod.mk.injEq]
    exact ⟨fun same => footnoteAnchor_inj same.2, fun same => ⟨rfl, congrArg _ same⟩⟩
  rw [List.count_append, counted, List.count_cons, List.count_singleton]
  simp [itself, Nat.add_comm]

/-! ## Content -/

/-- A text without characters has no anchors. -/
theorem eq_zero_of_isEmpty {content : String} {count : Nat}
    (has : HasAnchors anchor content count) (nothing : content.isEmpty) : count = 0 := by
  rw [String.isEmpty_iff.mp nothing] at has
  exact has.countAnchors_eq.symm

theorem hasAnchors_crossReference (resolve : Resolver) (target : Target) (hint : Option Span)
    {content : String} {count : Nat} (inner : HasAnchors anchor content count) :
    HasAnchors anchor (crossReference resolve target hint content) count := by
  refine hasAnchors_anchor _ ?_
  split
  · rename_i nothing
    rw [eq_zero_of_isEmpty inner nothing]
    exact hasAnchors_html target.raw
  · exact inner

open Footnote (Mention)

variable (id : UInt32) (resolve : Resolver) (place : Option Span)

mutual

/-- The markup of a node has the anchor of a number as often as a node in it defines the number. -/
theorem hasAnchors_markup (inline : Inline) (clean : inline.noPassthrough) :
    HasAnchors (footnoteAnchor id) (inline.markup (dialect resolve) place)
      (inline.mentions.countP (Mention.defines id)) := by
  match inline with
  | .text body _ => exact hasAnchors_html body
  | .styled style content _ =>
      refine hasAnchors_plain ?_ (hasAnchors_markupAll content clean)
      cases style <;> decide
  | .link target [] _ => exact hasAnchors_anchor target (hasAnchors_html target)
  | .link target (first :: rest) _ =>
      exact hasAnchors_anchor target (hasAnchors_markupAll (first :: rest) clean)
  | .crossReference target content span =>
      exact hasAnchors_crossReference resolve target _ (hasAnchors_markupAll content clean)
  | .math formula display _ => exact hasAnchors_math formula display
  | .passthrough _ _ => exact absurd clean Bool.false_ne_true
  | .command named _ => exact hasAnchors_command named
  | .footnote [] _ (some own) _ =>
      have bare : (Inline.footnote [] none (some own) .unknown).mentions.countP
          (Mention.defines id) = 0 := by
        simp [Inline.mentions, Inline.mentionsAll, Mention.defines]
      exact bare ▸ hasAnchors_footnoteReference own
  | .footnote [] _ none _ => exact hasAnchors_empty
  | .footnote (first :: rest) key own span =>
      have inner := hasAnchors_markupAll (first :: rest) clean
      rw [Inline.mentions, List.countP_append, List.countP_singleton]
      cases own with
      | none => exact inner
      | some own =>
          have shown := hasAnchors_footnoteDefinition id own inner
          have defines :
              (Mention.defines id ⟨key, some own, first :: rest⟩ = true) = (own = id) := by
            simp [Mention.defines]
          simp only [defines]
          exact shown
  | .indexTerm terms visible _ =>
      exact hasAnchors_empty.append (hasAnchors_html (visibleTerm terms visible))

/-- A sequence gives the anchor of a footnote once for each node that defines it. -/
theorem hasAnchors_markupAll (content : List Inline) (clean : Inline.noPassthroughAll content) :
    HasAnchors (footnoteAnchor id) (Inline.markupAll (dialect resolve) place content)
      ((Inline.mentionsAll content).countP (Mention.defines id)) := by
  match content with
  | [] => exact hasAnchors_empty
  | inline :: rest =>
      rw [Inline.noPassthroughAll, Bool.and_eq_true] at clean
      rw [Inline.mentionsAll, List.countP_append]
      exact (hasAnchors_markup inline clean.1).append (hasAnchors_markupAll rest clean.2)

end

end Html

/-! ## Listings -/

namespace Callout

/-- The id of a callout is no anchor of a footnote. -/
theorem id_ne_footnoteAnchor (bundle : Bundle) (ordinal : Nat) (id : UInt32) :
    bundle.id ordinal ≠ Html.footnoteAnchor id := by
  intro same
  have first := congrArg (fun text => text.toList.head?) same
  simp [Bundle.id, Bundle.base, Html.footnoteAnchor, String.toList_append] at first

theorem hasAnchors_verbatim (text : String) : HasAnchors anchor (verbatim .html text) 0 :=
  hasAnchors_html text

theorem hasAnchors_markMarkup (id : UInt32) (bundle : Bundle) (ordinal : Nat) :
    HasAnchors (Html.footnoteAnchor id) (markMarkup .html bundle ordinal) 0 := by
  have literal : Literal .html isValueChar (bundle.id ordinal) := literal_id bundle ordinal
  have own : Ordinary (Html.footnoteAnchor id) ("id", bundle.id ordinal) := by
    have named : isName "id" := by decide
    refine ⟨⟨named, (notMem_of_literal literal).2⟩, fun same => ?_⟩
    exact id_ne_footnoteAnchor bundle ordinal id (congrArg Prod.snd same)
  have linked : ∀ entry ∈ [("class", "conum"), ("href", "#" ++ bundle.id ordinal),
      ("data-value", ordinal.repr)], Ordinary (Html.footnoteAnchor id) entry := by
    have number : Literal .html isValueChar ordinal.repr := literal_repr ordinal
    have address : Literal .html isValueChar ("#" ++ bundle.id ordinal) :=
      (literal_constant (by decide)).append literal
    refine List.forall_mem_cons.mpr ⟨ordinary_constant (by decide) (by decide) (by decide), ?_⟩
    refine List.forall_mem_cons.mpr ⟨ordinary_of_literal (by decide) (by decide) address, ?_⟩
    exact List.forall_mem_singleton.mpr (ordinary_of_literal (by decide) (by decide) number)
  have shown : HasAnchors (Html.footnoteAnchor id) (circled ordinal) 0 :=
    hasAnchors_of_literal (literal_circled ordinal : Literal .html isValueChar _)
  exact (hasAnchors_element (by decide) (List.forall_mem_singleton.mpr own) hasAnchors_empty).append
    (hasAnchors_element (by decide) linked shown)

/-- No callout of a listing has the anchor of a footnote. -/
theorem hasAnchors_annotated (id : UInt32) {bundle : Bundle} {text annotated : String}
    (found : annotate? .html bundle text = some annotated) :
    HasAnchors (Html.footnoteAnchor id) annotated 0 := by
  unfold annotate? at found
  dsimp only at found
  split at found
  · rw [← Option.some.inj found]
    refine hasAnchors_join fun part inside => ?_
    obtain ⟨piece, -, rfl⟩ := List.mem_map.mp inside
    cases piece with
    | char c => exact hasAnchors_verbatim (String.singleton c)
    | mark ordinal => exact hasAnchors_markMarkup id bundle ordinal
  · cases found

end Callout

end Rendition
