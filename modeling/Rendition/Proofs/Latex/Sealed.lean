/-
# Rendition.Proofs.Latex.Sealed -- LaTeX text that stays in its argument

Markup is *sealed* if, read with a backslash and the character after it as one token,
its braces match, no backslash is left open and no other reserved character is bare:
then it can neither end the argument it stands in nor change how the rest is read.

Escaped text is sealed, a command with sealed arguments is sealed, and sealed markup
follows on sealed markup.  So all inline content is sealed but math, passthroughs and
addresses, which are not escaped as text (`isSealed_markupAll`).
-/
import Rendition.Proofs.Latex.Argument
import Rendition.Proofs.Text.Escape

namespace Rendition

set_option autoImplicit false

open Rendition.Text

mutual

/-- Whether a node is written as text at any depth: it is no passthrough, math, link,
cross-reference or image, and has none in its content. -/
def Inline.isTextual : Inline → Bool
  | .text _ _ | .indexTerm _ _ _ => true
  | .styled _ content _ | .footnote content _ _ _ => Inline.isTextualAll content
  | .command named _ => named.name != "image"
  | .link _ _ _ | .crossReference _ _ _ | .math _ _ _ | .passthrough _ _ => false

def Inline.isTextualAll : List Inline → Bool
  | [] => true
  | node :: rest => node.isTextual && Inline.isTextualAll rest

end

namespace Latex

/-- The characters that LaTeX reserves, besides the braces. -/
def reserved : List Char := ['\\', '$', '&', '#', '_', '%', '~', '^']

/-- Markup whose braces match and in which no other reserved character is bare. -/
structure IsSealed (markup : String) : Prop where
  balanced : isBalanced '\x7b' '\x7d' (bareChars '\\' markup.toList)
  unreserved : ∀ c ∈ reserved, c ∉ bareChars '\\' markup.toList

/-- Whether markup is sealed, as a test of its bare characters. -/
theorem isSealed_iff (markup : String) :
    IsSealed markup ↔
      isBalanced '\x7b' '\x7d' (bareChars '\\' markup.toList) ∧
        reserved.all fun c => c ∉ bareChars '\\' markup.toList := by
  constructor
  · intro closed
    refine ⟨closed.balanced, List.all_eq_true.mpr fun c special => ?_⟩
    exact decide_eq_true (closed.unreserved c special)
  · rintro ⟨balanced, unreserved⟩
    refine ⟨balanced, fun c special => ?_⟩
    exact of_decide_eq_true (List.all_eq_true.mp unreserved c special)

/-- Decided over the reserved characters, not over all there are. -/
instance (markup : String) : Decidable (IsSealed markup) :=
  decidable_of_iff _ (isSealed_iff markup).symm

namespace IsSealed

variable {markup others : String}

theorem whole (closed : IsSealed markup) : IsWhole '\\' markup.toList := by
  rw [IsWhole, ← mem_bareChars_iff]
  exact closed.unreserved '\\' (by decide)

/-- Sealed pieces make sealed markup. -/
theorem append (left : IsSealed markup) (right : IsSealed others) :
    IsSealed (markup ++ others) := by
  have chars : bareChars '\\' (markup ++ others).toList =
      bareChars '\\' markup.toList ++ bareChars '\\' others.toList := by
    rw [String.toList_append, bareChars_append left.whole]
  constructor
  · rw [chars, isBalanced, isBalanced_append left.balanced]
    exact right.balanced
  · intro c special inside
    rw [chars, List.mem_append] at inside
    exact inside.elim (left.unreserved c special) (right.unreserved c special)

theorem braced (inner : IsSealed markup) : IsSealed (braced markup) := by
  have chars : bareChars '\\' (Latex.braced markup).toList =
      '\x7b' :: (bareChars '\\' markup.toList ++ ['\x7d']) := by
    have stretch : (Latex.braced markup).toList = '\x7b' :: (markup.toList ++ ['\x7d']) := by
      simp [Latex.braced]
    rw [stretch, bareChars, tokens_cons (by decide), tokens_append inner.whole]
    simp [bareChars, tokens, Token.bare?]
  constructor
  · have closed : isBalanced '\x7b' '\x7d' (bareChars '\\' (Latex.braced markup).toList) =
        closesAll '\x7b' '\x7d' 1 ['\x7d'] := by
      rw [chars, isBalanced, closesAll, if_pos rfl]
      exact isBalanced_append inner.balanced
    rw [closed]
    rfl
  · intro c special inside
    rw [chars, List.mem_cons, List.mem_append, List.mem_singleton] at inside
    rcases inside with rfl | inside | rfl
    · exact absurd special (by decide)
    · exact inner.unreserved c special inside
    · exact absurd special (by decide)

/-- Sealed markup fits in braces, and so a command is read with the sealed markup it was given. -/
theorem firstArgument?_call (closed : IsSealed markup) {name : String} (named : isCommandName name)
    (after : String) : firstArgument? (call name [markup] ++ after) = some (markup, after) := by
  have fits : Delimiter.braces.Fits markup :=
    (fits_braces_iff markup).mpr ⟨closed.whole, closed.balanced⟩
  rw [call_cons, List.map_nil, String.join_nil, String.append_empty]
  exact (firstArgument?_eq_some_iff .braces named markup after).mpr fits

end IsSealed

theorem isSealed_empty : IsSealed "" := by decide

theorem isSealed_intercalate {separator : String} (between : IsSealed separator)
    {parts : List String} (each : ∀ part ∈ parts, IsSealed part) :
    IsSealed (separator.intercalate parts) := by
  match parts with
  | [] => exact isSealed_empty
  | [part] => simpa using each part (by simp)
  | part :: next :: rest =>
      rw [String.intercalate_cons_cons]
      have others : ∀ other ∈ next :: rest, IsSealed other :=
        fun other inside => each other (by simp [List.mem_cons.mp inside])
      exact ((each part (by simp)).append between).append (isSealed_intercalate between others)

theorem isSealed_join {parts : List String} (each : ∀ part ∈ parts, IsSealed part) :
    IsSealed (String.join parts) := by
  induction parts with
  | nil => exact isSealed_empty
  | cons part parts ih =>
      rw [String.join_cons]
      exact (each part (by simp)).append (ih fun other inside => each other (by simp [inside]))

/-- A command with sealed arguments. -/
theorem isSealed_call {name : String} (named : IsSealed ("\\" ++ name)) {arguments : List String}
    (each : ∀ argument ∈ arguments, IsSealed argument) : IsSealed (call name arguments) := by
  refine named.append (isSealed_join ?_)
  rw [List.forall_mem_map]
  exact fun argument inside => (each argument inside).braced

/-! ## Escaped text -/

/-- A text is sealed if each of its characters is written so. -/
theorem isSealed_substitute {f : Char → String} (each : ∀ c, IsSealed (f c)) (text : String) :
    IsSealed (substitute f text) := by
  rw [substitute]
  induction text.toList with
  | nil => exact isSealed_empty
  | cons c cs ih =>
      rw [List.flatMap_cons, String.ofList_append, String.ofList_toList]
      exact (each c).append ih

/-- Text without any reserved character. -/
theorem isSealed_of_plain {text : String}
    (plain : ∀ c ∈ text.toList, c ∉ '\x7b' :: '\x7d' :: reserved) : IsSealed text := by
  have chars : bareChars '\\' text.toList = text.toList := by
    have unmarked : '\\' ∉ text.toList := fun inside => plain _ inside (by decide)
    have read := tokens_append_of_notMem unmarked []
    rw [List.append_nil] at read
    rw [bareChars, read, tokens, List.append_nil, List.filterMap_map]
    exact List.filterMap_some
  constructor
  · rw [chars, isBalanced]
    generalize text.toList = cs at plain
    induction cs with
    | nil => rfl
    | cons c cs ih =>
        have first := plain c List.mem_cons_self
        rw [List.mem_cons, List.mem_cons, not_or, not_or] at first
        rw [closesAll_other first.1 first.2.1]
        exact ih fun d inside => plain d (List.mem_cons_of_mem _ inside)
  · rw [chars]
    intro c special inside
    exact plain c inside (List.mem_cons_of_mem _ (List.mem_cons_of_mem _ special))

theorem isSealed_repr (n : Nat) : IsSealed n.repr := by
  refine isSealed_of_plain fun c inside special => ?_
  rw [Nat.toList_repr] at inside
  have digit : c.isDigit := Nat.isDigit_of_mem_toDigits (by decide) (by decide) inside
  have undigital : ('\x7b' :: '\x7d' :: reserved).all fun c => !c.isDigit := by decide
  have other := List.all_eq_true.mp undigital c special
  rw [digit] at other
  exact Bool.false_ne_true other

/-- A character that is written as itself, if it is not reserved. -/
theorem isSealed_of_eq_singleton {f : Char → String} {special : List Char}
    (others : ∀ c, c ∉ special → f c = String.singleton c)
    (all : '\x7b' :: '\x7d' :: reserved ⊆ special) (each : special.all fun c => IsSealed (f c))
    (c : Char) : IsSealed (f c) := by
  by_cases inside : c ∈ special
  · exact of_decide_eq_true (List.all_eq_true.mp each c inside)
  · rw [others c inside]
    refine isSealed_of_plain fun d same => ?_
    rw [String.toList_singleton, List.mem_singleton] at same
    exact fun reserved => inside (all (same ▸ reserved))

/-- Escaped text is sealed, whatever it holds. -/
theorem isSealed_latex (text : String) : IsSealed (Escape.latex text) :=
  isSealed_substitute (isSealed_of_eq_singleton (fun _ => Escape.latexCommand_of_notMem)
    (by decide) (by decide)) text

theorem isSealed_indexLevel (text : String) : IsSealed (Escape.indexLevel text) := by
  rw [Escape.indexLevel_eq]
  exact isSealed_substitute (isSealed_of_eq_singleton (fun _ => Escape.indexWord_of_notMem)
    (by decide) (by decide)) text

/-! ## Commands -/

theorem isSealed_command {named : Command} (shown : named.name ≠ "image") :
    IsSealed (command named) := by
  have one : ∀ {text : String}, IsSealed text → ∀ argument ∈ [text], IsSealed argument :=
    fun closed => List.forall_mem_singleton.mpr closed
  have each : ∀ (texts : List String), ∀ text ∈ texts.map Escape.latex, IsSealed text := by
    intro texts
    rw [List.forall_mem_map]
    exact fun text _ => isSealed_latex text
  unfold command
  split_ifs with image icon kbd button menu
  · exact absurd image shown
  · exact isSealed_call (by decide) (one (isSealed_latex _))
  · exact isSealed_call (by decide) (one (isSealed_intercalate (by decide) (each _)))
  · exact isSealed_call (by decide) (one (isSealed_latex _))
  · exact isSealed_call (by decide) (one (isSealed_intercalate (by decide) (each _)))
  · exact isSealed_call (by decide) (each [named.name, named.target.getD "", named.body])

theorem isSealed_bracketed {markup : String} (inner : IsSealed markup) :
    IsSealed (bracketed markup) :=
  ((by decide : IsSealed "[").append inner).append (by decide)

theorem isSealed_footnoteDefinition (id : Option UInt32) {content : String}
    (inner : IsSealed content) : IsSealed (footnoteDefinition id content) := by
  cases id with
  | none => exact isSealed_call (by decide) (List.forall_mem_singleton.mpr inner)
  | some id =>
      have label : IsSealed (call "label" ["fn-" ++ id.toNat.repr]) := by
        refine isSealed_call (by decide) (List.forall_mem_singleton.mpr ?_)
        exact (by decide : IsSealed "fn-").append (isSealed_repr _)
      have opening : IsSealed ("\\footnote" ++ bracketed id.toNat.repr) :=
        (by decide : IsSealed "\\footnote").append (isSealed_bracketed (isSealed_repr _))
      exact opening.append (label.append inner).braced

def entry (terms : List String) : String :=
  "!".intercalate (terms.map fun term => Escape.indexLevel (trimmed term))

theorem indexTerm_cons (first : String) (rest : List String) :
    indexTerm (first :: rest) = call "index" [entry (first :: rest)] := rfl

theorem isSealed_entry (terms : List String) : IsSealed (entry terms) := by
  refine isSealed_intercalate (by decide) ?_
  rw [List.forall_mem_map]
  exact fun term _ => isSealed_indexLevel _

theorem isSealed_indexTerm (terms : List String) : IsSealed (indexTerm terms) := by
  cases terms with
  | nil => exact isSealed_empty
  | cons first rest =>
      rw [indexTerm_cons]
      exact isSealed_call (by decide) (List.forall_mem_singleton.mpr (isSealed_entry _))

/-! ## Content -/

mutual

/-- A textual node is sealed: each constructor writes sealed text around sealed parts. -/
theorem isSealed_markup (place : Option Span) (node : Inline) (textual : node.isTextual) :
    IsSealed (node.markup dialect place) := by
  match node with
  | .text body _ => exact isSealed_latex body
  | .styled style content _ =>
      refine isSealed_call ?_
        (List.forall_mem_singleton.mpr (isSealed_markupAll place content textual))
      cases style <;> decide
  | .command named _ => exact isSealed_command (bne_iff_ne.mp textual)
  | .footnote [] _ (some id) _ =>
      exact (by decide : IsSealed "\\footnotemark").append (isSealed_bracketed (isSealed_repr _))
  | .footnote [] _ none _ => exact isSealed_empty
  | .footnote (first :: rest) _ id _ =>
      exact isSealed_footnoteDefinition id (isSealed_markupAll place (first :: rest) textual)
  | .indexTerm terms visible _ =>
      exact (isSealed_indexTerm terms).append (isSealed_latex (visibleTerm terms visible))

theorem isSealed_markupAll (place : Option Span) (content : List Inline)
    (textual : Inline.isTextualAll content) :
    IsSealed (Inline.markupAll dialect place content) := by
  match content with
  | [] => exact isSealed_empty
  | node :: rest =>
      rw [Inline.isTextualAll, Bool.and_eq_true] at textual
      exact (isSealed_markup place node textual.1).append
        (isSealed_markupAll place rest textual.2)

end

/-- **LaTeX text cannot break out of its argument.**  Read with a backslash and the character after
it as one token, the LaTeX markup of content that is written as text has braces that match, no
backslash that is left open and no other reserved character.  So a command that takes it as its
argument is read with that argument, whatever follows. -/
theorem textual_keeps_argument (place : Option Span) (content : List Inline)
    (textual : Inline.isTextualAll content) :
    isBalanced '\x7b' '\x7d'
        (bareChars '\\' (Inline.markupAll dialect place content).toList) ∧
      (∀ c ∈ reserved, c ∉ bareChars '\\' (Inline.markupAll dialect place content).toList) ∧
      ∀ name after, isCommandName name →
        firstArgument? (call name [Inline.markupAll dialect place content] ++ after) =
          some (Inline.markupAll dialect place content, after) := by
  have closed := isSealed_markupAll place content textual
  exact ⟨closed.balanced, closed.unreserved, fun _ after named =>
    closed.firstArgument?_call named after⟩

namespace Example

/-- All reserved characters in a text, in a footnote within formatted content, in the parts of
macros and in the levels of an index term. -/
def reservedThroughout : List Inline :=
  [.ofText "\\\x7b\x7d$&#_%~^",
    .ofStyled .strong [.footnote [.ofText "\x7d"] none (some 1) .unknown],
    .command ⟨"kbd", none, "\x7d+%"⟩ .unknown, .command ⟨"#", some "\\", "~"⟩ .unknown,
    .indexTerm ["\\!\x7b", "\x22\x7d"] true .unknown]

theorem reservedThroughout_keeps :
    Inline.isTextualAll reservedThroughout ∧
      isBalanced '\x7b' '\x7d'
        (bareChars '\\' (Inline.markupAll dialect none reservedThroughout).toList) ∧
      (∀ c ∈ reserved,
        c ∉ bareChars '\\' (Inline.markupAll dialect none reservedThroughout).toList) ∧
      firstArgument? (call "emph" [Inline.markupAll dialect none reservedThroughout] ++ "\x7d") =
        some (Inline.markupAll dialect none reservedThroughout, "\x7d") := by
  have textual : Inline.isTextualAll reservedThroughout := by decide
  obtain ⟨balanced, unreserved, reads⟩ :=
    textual_keeps_argument none reservedThroughout textual
  exact ⟨textual, balanced, unreserved, reads "emph" "\x7d" (by decide)⟩

end Example

end Latex

end Rendition
