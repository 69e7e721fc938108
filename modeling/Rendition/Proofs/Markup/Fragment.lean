/-
# Rendition.Proofs.Markup.Fragment -- well-formed markup

A *fragment* is a piece of HTML or DocBook that may stand anywhere in a page:
every tag that is opened in it is closed in it, in the right order; attribute
values stand in double quotes; and the reserved characters are written as
character references wherever they are not markup.

`Fragment` is the grammar, on the output text itself.  The formats differ in
their references, in the tags that are never closed (in HTML the `img` alone)
and in whether an element may be written in the short form.  The lemmas say
that the escapes write literal text and that `Markup.element` and its kin keep
fragments fragments; what the dialects make of them is `Proofs.Markup.Dialects`.
-/
import Mathlib.Tactic.SplitIfs
import Rendition.Escape
import Rendition.Markup.Backend
import Rendition.Markup.Element

namespace Rendition.Markup

set_option autoImplicit false

open Rendition.Text

/-! ## The grammar -/

/-- The formats whose markup is written in tags. -/
inductive TagFormat where
  | html
  | docBook
  deriving DecidableEq

namespace TagFormat

def backend : TagFormat → Backend
  | .html => .html
  | .docBook => .docBook

/-- The character references of a format, by their names. -/
def references : TagFormat → List String
  | .html => ["amp", "lt", "gt", "quot", "apos", "#39", "#160", "#8250"]
  | .docBook => ["amp", "lt", "gt", "quot", "apos"]

/-- The tags that open no element. -/
def voidTags : TagFormat → List String
  | .html => ["img"]
  | .docBook => []

/-- Whether an element without content may be written as a single tag. -/
def hasShortForm : TagFormat → Bool
  | .html => false
  | .docBook => true

end TagFormat

/-- Whether a character may stand for itself in text. -/
def isTextChar (c : Char) : Bool := c ≠ '<' ∧ c ≠ '>' ∧ c ≠ '&'

/-- Whether a character may stand for itself in an attribute value. -/
def isValueChar (c : Char) : Bool := isTextChar c ∧ c ≠ '\x22'

theorem isTextChar_iff {c : Char} : isTextChar c ↔ c ≠ '<' ∧ c ≠ '>' ∧ c ≠ '&' :=
  decide_eq_true_iff

theorem isValueChar_iff {c : Char} : isValueChar c ↔ isTextChar c ∧ c ≠ '\x22' :=
  decide_eq_true_iff

/-- Whether a text is the name of a tag or an attribute. -/
def isName (text : String) : Bool :=
  text.toList.head?.any Char.isAlpha ∧ text.toList.all fun c => c.isAlphanum ∨ c = '-' ∨ c = ':'

/-- Text without markup: characters that stand for themselves, and character references. -/
inductive Literal (format : TagFormat) (plain : Char → Bool) : String → Prop where
  | empty : Literal format plain ""
  | char {c : Char} {rest : String} :
      plain c → Literal format plain rest → Literal format plain (String.singleton c ++ rest)
  | reference {name rest : String} : name ∈ format.references →
      Literal format plain rest → Literal format plain ("&" ++ name ++ ";" ++ rest)

/-- The attributes of a tag, each after a space, the values in double quotes. -/
inductive AttributeList (format : TagFormat) : String → Prop where
  | empty : AttributeList format ""
  | attribute {name value rest : String} : isName name → Literal format isValueChar value →
      AttributeList format rest →
      AttributeList format (" " ++ name ++ "=\"" ++ value ++ "\"" ++ rest)

/-- Well-formed markup. -/
inductive Fragment (format : TagFormat) : String → Prop where
  | text {body : String} : Literal format isTextChar body → Fragment format body
  | element {name attributes content : String} : isName name → name ∉ format.voidTags →
      AttributeList format attributes → Fragment format content →
      Fragment format ("<" ++ name ++ attributes ++ ">" ++ content ++ ("</" ++ name ++ ">"))
  | void {name attributes : String} : name ∈ format.voidTags → AttributeList format attributes →
      Fragment format ("<" ++ name ++ attributes ++ ">")
  | short {name attributes : String} : format.hasShortForm → isName name →
      AttributeList format attributes → Fragment format ("<" ++ name ++ attributes ++ "/>")
  | append {first second : String} :
      Fragment format first → Fragment format second → Fragment format (first ++ second)

variable {format : TagFormat} {plain : Char → Bool}

/-! ## Literal text -/

theorem Literal.append {first second : String} (left : Literal format plain first)
    (right : Literal format plain second) : Literal format plain (first ++ second) := by
  induction left with
  | empty => simpa using right
  | char allowed _ ih =>
      rw [String.append_assoc]
      exact .char allowed ih
  | reference known _ ih =>
      rw [String.append_assoc]
      exact .reference known ih

/-- Literal text stays literal where more characters are allowed. -/
theorem Literal.mono {wider : Char → Bool} (more : ∀ c, plain c → wider c) {body : String}
    (literal : Literal format plain body) : Literal format wider body := by
  induction literal with
  | empty => exact .empty
  | char allowed _ ih => exact .char (more _ allowed) ih
  | reference known _ ih => exact .reference known ih

/-- The references of DocBook are known in both formats. -/
theorem Literal.of_docBook {body : String} (literal : Literal .docBook plain body) :
    Literal format plain body := by
  have shared : TagFormat.docBook.references.all format.references.contains := by
    cases format <;> decide
  induction literal with
  | empty => exact .empty
  | char allowed _ ih => exact .char allowed ih
  | reference known _ ih =>
      exact .reference (List.contains_iff_mem.mp (List.all_eq_true.mp shared _ known)) ih

/-- A text of characters that stand for themselves. -/
theorem literal_of_all {body : String} (allowed : ∀ c ∈ body.toList, plain c) :
    Literal format plain body := by
  rw [← String.ofList_toList (s := body)]
  generalize body.toList = cs at allowed
  induction cs with
  | nil => exact .empty
  | cons c cs ih =>
      rw [← List.singleton_append, String.ofList_append, ← String.singleton_eq_ofList]
      exact .char (allowed c (by simp)) (ih fun d inside => allowed d (by simp [inside]))

theorem literal_singleton {c : Char} (allowed : plain c) :
    Literal format plain (String.singleton c) :=
  literal_of_all (by simpa using allowed)

/-- One character reference alone. -/
theorem literal_reference {name : String} (known : name ∈ format.references) :
    Literal format plain ("&" ++ name ++ ";") := by
  have alone : Literal format plain ("&" ++ name ++ ";" ++ "") := .reference known .empty
  simpa using alone

/-- A substitution that writes literal text for each character writes literal text. -/
theorem literal_substitute {f : Char → String} (each : ∀ c, Literal format plain (f c))
    (body : String) : Literal format plain (substitute f body) := by
  unfold substitute
  induction body.toList with
  | nil => exact .empty
  | cons c cs ih =>
      rw [List.flatMap_cons, String.ofList_append, String.ofList_toList]
      exact (each c).append ih

/-! ### Escapes -/

/-- The four entities that all escapes share. -/
theorem literal_htmlEntity (c : Char) : Literal format isValueChar (Escape.htmlEntity c) := by
  unfold Escape.htmlEntity
  split_ifs with amp lt gt quote
  · exact literal_reference (by cases format <;> decide : "amp" ∈ format.references)
  · exact literal_reference (by cases format <;> decide : "lt" ∈ format.references)
  · exact literal_reference (by cases format <;> decide : "gt" ∈ format.references)
  · exact literal_reference (by cases format <;> decide : "quot" ∈ format.references)
  · refine literal_singleton ?_
    rw [isValueChar_iff, isTextChar_iff]
    exact ⟨⟨lt, gt, amp⟩, quote⟩

theorem literal_html (text : String) : Literal format isValueChar (Escape.html text) :=
  literal_substitute literal_htmlEntity text

theorem literal_xml (text : String) : Literal format isValueChar (Escape.xml text) := by
  refine literal_substitute (fun c => ?_) text
  unfold Escape.xmlEntity
  split
  · exact literal_reference (by cases format <;> decide : "apos" ∈ format.references)
  · exact literal_htmlEntity c

/-- Attribute values of HTML write the apostrophe as a number, which DocBook has no name for. -/
theorem literal_attributeValue (text : String) :
    Literal .html isValueChar (Escape.attributeValue text) := by
  refine literal_substitute (fun c => ?_) text
  unfold Escape.attributeEntity
  split
  · exact literal_reference (by decide : "#39" ∈ TagFormat.html.references)
  · exact literal_htmlEntity c

/-! ### Constants and numbers -/

/-- A text without reserved characters, as it stands. -/
theorem literal_constant {value : String} (allowed : value.toList.all isValueChar) :
    Literal format isValueChar value :=
  literal_of_all (by simpa using allowed)

theorem literal_repr (n : Nat) : Literal format isValueChar n.repr := by
  refine literal_of_all fun c inside => ?_
  rw [Nat.toList_repr] at inside
  have digit : c.isDigit := Nat.isDigit_of_mem_toDigits (by decide) (by decide) inside
  have distinct : ∀ reserved : Char, reserved.isDigit = false → c ≠ reserved := by
    rintro reserved other rfl
    exact Bool.false_ne_true (other.symm.trans digit)
  rw [isValueChar_iff, isTextChar_iff]
  exact ⟨⟨distinct _ rfl, distinct _ rfl, distinct _ rfl⟩, distinct _ rfl⟩

/-! ## Elements -/

theorem fragment_empty : Fragment format "" := .text .empty

/-- Text that could stand in an attribute value can stand in text. -/
theorem fragment_of_literal {body : String} (literal : Literal format isValueChar body) :
    Fragment format body :=
  .text (literal.mono fun _ allowed => (isValueChar_iff.mp allowed).1)

/-- Fixed text without reserved characters is well formed. -/
theorem fragment_constant {body : String} (allowed : body.toList.all isValueChar) :
    Fragment format body :=
  fragment_of_literal (literal_constant allowed)

theorem fragment_repr (n : Nat) : Fragment format n.repr := fragment_of_literal (literal_repr n)

theorem fragment_html (text : String) : Fragment format (Escape.html text) :=
  fragment_of_literal (literal_html text)

theorem fragment_xml (text : String) : Fragment format (Escape.xml text) :=
  fragment_of_literal (literal_xml text)

/-- Content between two constants, such as brackets. -/
theorem fragment_between {left content right : String} (opening : left.toList.all isValueChar)
    (inner : Fragment format content) (closing : right.toList.all isValueChar) :
    Fragment format (left ++ content ++ right) :=
  ((fragment_constant opening).append inner).append (fragment_constant closing)

theorem fragment_join {parts : List String} (each : ∀ part ∈ parts, Fragment format part) :
    Fragment format (String.join parts) := by
  induction parts with
  | nil => exact fragment_empty
  | cons part parts ih =>
      rw [String.join_cons]
      exact (each part (by simp)).append (ih fun other inside => each other (by simp [inside]))

theorem fragment_intercalate {separator : String} (between : Fragment format separator)
    {parts : List String} (each : ∀ part ∈ parts, Fragment format part) :
    Fragment format (separator.intercalate parts) := by
  match parts with
  | [] => exact fragment_empty
  | [part] => simpa using each part (by simp)
  | part :: next :: rest =>
      rw [String.intercalate_cons_cons]
      have others : ∀ other ∈ next :: rest, Fragment format other :=
        fun other inside => each other (by simp [List.mem_cons.mp inside])
      exact ((each part (by simp)).append between).append (fragment_intercalate between others)

theorem attributeList_nil : AttributeList format (attributesText []) := .empty

theorem attributeList_cons {name value : String} {rest : List TagAttribute}
    (named : isName name) (escaped : Literal format isValueChar value)
    (others : AttributeList format (attributesText rest)) :
    AttributeList format (attributesText ((name, value) :: rest)) :=
  .attribute named escaped others

theorem attributeList_singleton {name value : String} (named : isName name)
    (escaped : Literal format isValueChar value) :
    AttributeList format (attributesText [(name, value)]) :=
  attributeList_cons named escaped attributeList_nil

/-- Whether an element of this name may stand around content. -/
def TagFormat.hasElement (format : TagFormat) (name : String) : Bool :=
  isName name ∧ name ∉ format.voidTags

/-- What is an element in HTML is one in DocBook, which has no tag without an element. -/
theorem hasElement_of_html {name : String} (known : TagFormat.html.hasElement name) :
    format.hasElement name := by
  cases format with
  | html => exact known
  | docBook =>
      simp only [TagFormat.hasElement, decide_eq_true_eq] at known ⊢
      exact ⟨known.1, List.not_mem_nil⟩

/-- An element of a format is well formed around well-formed content. -/
theorem fragment_element {name content : String} {attributes : List TagAttribute}
    (known : format.hasElement name) (listed : AttributeList format (attributesText attributes))
    (inner : Fragment format content) : Fragment format (element name attributes content) := by
  simp only [TagFormat.hasElement, decide_eq_true_eq] at known
  exact .element known.1 known.2 listed inner

theorem fragment_plain {name content : String} (known : format.hasElement name)
    (inner : Fragment format content) : Fragment format (element name [] content) :=
  fragment_element known attributeList_nil inner

end Rendition.Markup
