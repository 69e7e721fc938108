/-
# Rendition.Proofs.Math.Leaves -- no character is dropped

What a reader takes off a text it shows in the leaves of what it returns
(`Shows`): a leaf shows its characters, a bracket shows itself and its closer if there
is one, blanks show nothing.  Braces are the only characters that may be lost, since
they only group, and even they are shown below the last level of nesting; so they are
left out of the comparison unless the text has none.

Marks and backslashes become structure and are no part of any leaf.  Without them the
leaves of a text hold all of its characters that are no blanks, in their order
(`leafText_parse`).
-/
import Rendition.Proofs.Math.Context
import Rendition.Proofs.Math.Run

namespace Rendition.Math

set_option autoImplicit false

open Rendition.Text

/-! ## The text of a tree -/

namespace Node

mutual

/-- The texts of the leaves of a node, from left to right. -/
def leafText : Node → List Char
  | .row children => leafTextAll children
  | .identifier body | .number body | .operator body | .text body => body.toList
  | .fraction numerator denominator => numerator.leafText ++ denominator.leafText
  | .root radicand => radicand.leafText
  | .scripts base sub sup => base.leafText ++ leafTextIn sub ++ leafTextIn sup

def leafTextAll : List Node → List Char
  | [] => []
  | node :: rest => node.leafText ++ leafTextAll rest

def leafTextIn : Option Node → List Char
  | none => []
  | some node => node.leafText

end

end Node

/-! ## What is taken and what is shown -/

/-- Whether a character is a curly bracket. -/
def isBrace (c : Char) : Bool := c = '\x7b' ∨ c = '\x7d'

/-- Between a text and what is left of it, the characters that are kept and no blanks are those of
a text that is shown. -/
def Shows (kept : Char → Bool) (cs rest shown : List Char) : Prop :=
  ∃ taken, cs = taken ++ rest ∧
    shown.filter kept = taken.filter fun c => !isBlank c && kept c

/-- A text of plain structure: no mark and no backslash, and braces only if they are not kept. -/
structure Unmarked (kept : Char → Bool) (cs : List Char) : Prop where
  unmarked : ∀ c ∈ cs, isMark c = false
  literal : '\\' ∉ cs
  grouped : ∀ c ∈ cs, isBrace c → kept '\x7b' = false ∧ kept '\x7d' = false

section Shows

variable {kept : Char → Bool} {cs rest : List Char}

/-- What is left of an unmarked text is unmarked. -/
theorem Unmarked.of_suffix {ds : List Char} (plain : Unmarked kept cs) (suffix : ds <:+ cs) :
    Unmarked kept ds where
  unmarked c inside := plain.unmarked c (suffix.subset inside)
  literal inside := plain.literal (suffix.subset inside)
  grouped c inside := plain.grouped c (suffix.subset inside)

theorem Shows.suffix {shown : List Char} (piece : Shows kept cs rest shown) : rest <:+ cs := by
  obtain ⟨taken, rfl, -⟩ := piece
  exact List.suffix_append taken rest

/-- What is shown first and what is shown next is shown in this order. -/
theorem Shows.trans {ds shown others : List Char} (first : Shows kept cs ds shown)
    (second : Shows kept ds rest others) : Shows kept cs rest (shown ++ others) := by
  obtain ⟨taken, rfl, same⟩ := first
  obtain ⟨more, rfl, same'⟩ := second
  exact ⟨taken ++ more, by simp, by simp [same, same']⟩

theorem shows_nothing : Shows kept cs cs [] := ⟨[], rfl, rfl⟩

theorem shows_blanks : Shows kept cs (skipBlanks cs) [] := by
  refine ⟨cs.takeWhile isBlank, List.takeWhile_append_dropWhile.symm, Eq.symm ?_⟩
  have blank : ∀ c ∈ cs.takeWhile isBlank, isBlank c := List.all_eq_true.mp List.all_takeWhile
  rw [List.filter_nil, List.filter_eq_nil_iff]
  intro c inside
  simp [blank c inside]

/-- Characters that are no blanks show themselves. -/
theorem shows_solid {taken : List Char} (whole : taken ++ rest = cs)
    (solid : ∀ c ∈ taken, isBlank c = false) : Shows kept cs rest taken := by
  refine ⟨taken, whole.symm, List.filter_congr fun c inside => ?_⟩
  simp [solid c inside]

theorem shows_char {c : Char} (solid : isBlank c = false) : Shows kept (c :: cs) cs [c] :=
  shows_solid rfl (List.forall_mem_singleton.mpr solid)

/-- A character that is not kept need not be shown, and may be. -/
theorem shows_hidden {c : Char} (hidden : kept c = false) : Shows kept (c :: cs) cs [] :=
  ⟨[c], rfl, by simp [hidden]⟩

end Shows

/-! ## Leaves -/

/-- A class of characters that begins no text after a formula has no blanks. -/
theorem not_isBlank_of_class {p : Char → Bool} (foreign : enders.any p = false) {c : Char}
    (holds : p c) : isBlank c = false := by
  cases blank : isBlank c with
  | false => rfl
  | true => exact absurd holds (by simp [eq_false_of_any foreign (mem_enders (.inl blank))])

/-- A leaf shows what it takes. -/
theorem shows_readLeaf {kept : Char → Bool} {c : Char} {cs : List Char}
    (solid : isBlank c = false) :
    Shows kept (c :: cs) (readLeaf c cs).2 (readLeaf c cs).1.leafText := by
  by_cases digit : c.isDigit = true
  · have solids : ∀ d ∈ (readNumber (c :: cs)).1, isBlank d = false := by
      intro d inside
      rcases digit_or_point_of_mem_readNumber inside with digit | rfl
      · exact not_isBlank_of_class foreign_isDigit digit
      · decide
    have piece : Shows kept (c :: cs) (readNumber (c :: cs)).2 (readNumber (c :: cs)).1 :=
      shows_solid (readNumber_append_eq (c :: cs)) solids
    simpa only [readLeaf, digit, ↓reduceIte, Node.leafText, String.toList_ofList] using piece
  · by_cases letter : isAlphabetic c = true
    · have solids : ∀ d ∈ (c :: cs).takeWhile isAlphabetic, isBlank d = false := fun d inside =>
        not_isBlank_of_class foreign_isAlphabetic (List.all_eq_true.mp List.all_takeWhile d inside)
      have piece : Shows kept (c :: cs) ((c :: cs).dropWhile isAlphabetic)
          ((c :: cs).takeWhile isAlphabetic) :=
        shows_solid List.takeWhile_append_dropWhile solids
      simpa [readLeaf, digit, letter, Node.leafText] using piece
    · have piece : Shows kept (c :: cs) cs [c] := shows_char solid
      by_cases operator : isOperator c = true
      · simpa [readLeaf, digit, letter, operator, Node.leafText] using piece
      · simpa [readLeaf, digit, letter, operator, Node.leafText] using piece

/-! ## Rows and groups -/

/-- What a row shows: its nodes, and its closer if it was met. -/
def Row.shown (close : Option Char) (row : Row) : List Char :=
  Node.leafTextAll row.children ++ if row.closed then close.toList else []

theorem Row.shown_prepend (close : Option Char) (node : Node) (row : Row) :
    (row.prepend [node]).shown close = node.leafText ++ row.shown close := by
  rw [Row.shown, Row.shown, ← List.append_assoc]
  rfl

section Rows

variable {kept : Char → Bool} {close : Option Char} {reader : AtomReader close}

/-- Without marks an atom carries no scripts. -/
theorem shows_scriptable {cs : List Char} (plain : Unmarked kept cs)
    (atom : Shows kept cs (reader.read cs).2 (reader.read cs).1.leafText) :
    Shows kept cs (reader.scriptable cs).2 (reader.scriptable cs).1.leafText := by
  have bare : ∀ c ∈ (skipBlanks (reader.read cs).2).head?, isMark c = false := by
    intro c start
    have left := (plain.of_suffix atom.suffix).of_suffix (List.dropWhile_suffix isBlank)
    exact left.unmarked c (List.mem_of_mem_head? start)
  rw [AtomReader.scriptable_eq, reader.scripts_done bare]
  simpa [Node.withScripts] using atom.trans shows_blanks

/-- A row shows what it takes if its atoms do. -/
theorem shows_row (closes : ∀ c, close = some c → isBlank c = false)
    (atoms : ∀ c cs, isBlank c = false → Unmarked kept (c :: cs) →
      Shows kept (c :: cs) (reader.read (c :: cs)).2 (reader.read (c :: cs)).1.leafText)
    {cs : List Char} (plain : Unmarked kept cs) :
    Shows kept cs (reader.row cs).rest ((reader.row cs).shown close) := by
  have blanks : Shows kept cs (skipBlanks cs) [] := shows_blanks
  cases found : skipBlanks cs with
  | nil =>
      rw [found] at blanks
      simpa [reader.row_ended found, Row.shown, Node.leafTextAll] using blanks
  | cons c rest =>
      rw [found] at blanks
      by_cases closer : close = some c
      · have last := blanks.trans (shows_char (closes c closer))
        simpa [reader.row_closed found closer, Row.shown, Node.leafTextAll, closer] using last
      · have left := plain.of_suffix blanks.suffix
        have first := shows_scriptable left (atoms c rest (not_isBlank_of_skipBlanks found) left)
        have shorter := reader.length_scriptable_lt c rest closer
        have most := blanks.suffix.length_le
        have others := shows_row closes atoms (left.of_suffix first.suffix)
        have whole := (blanks.trans first).trans others
        rw [reader.row_next found closer, Row.shown_prepend]
        exact whole
termination_by cs.length
decreasing_by omega

/-- Brackets are shown as leaves, the closing one if it was met. -/
theorem leafText_bracketed (opener closer : Char) (row : Row) :
    (bracketed opener closer row).leafText = opener :: row.shown (some closer) := by
  cases children : row.children <;> cases closed : row.closed <;>
    simp [bracketed, Row.shown, Node.leafText, Node.leafTextAll, children, closed]

/-- A group shows what it takes if its row does. -/
theorem shows_groupNode {c closer : Char} {cs : List Char} {row : Row}
    (bracket : closer? c = some closer) (plain : Unmarked kept (c :: cs))
    (inside : Shows kept cs row.rest (row.shown (some closer))) :
    Shows kept (c :: cs) row.rest (groupNode c closer row).leafText := by
  by_cases brace : c = '\x7b'
  · subst brace
    obtain rfl : '\x7d' = closer := by simpa [closer?] using bracket
    obtain ⟨opener, hidden⟩ := plain.grouped '\x7b' List.mem_cons_self (by decide)
    -- the closing brace is taken, and not being kept it need not be shown
    obtain ⟨taken, same, shown⟩ := (shows_hidden opener).trans inside
    refine ⟨taken, same, ?_⟩
    rw [← shown]
    cases closed : row.closed <;> simp [groupNode, Row.shown, closed, hidden, Node.leafText]
  · have solid := not_isBlank_of_class (by decide) (isOpener_of_closer? bracket)
    rw [groupNode, if_neg brace, leafText_bracketed]
    exact (shows_char solid).trans inside

end Rows

/-! ## Atoms and whole texts -/

/-- **An atom shows what it takes.** -/
theorem shows_read {kept : Char → Bool} (n : Nat) (close : Option Char) (cs : List Char)
    (closes : ∀ c, close = some c → isBlank c = false)
    (solid : ∀ c ∈ cs.head?, isBlank c = false) (plain : Unmarked kept cs) :
    Shows kept cs ((AtomReader.withRoom n close).read cs).2
      ((AtomReader.withRoom n close).read cs).1.leafText := by
  induction n, close, cs using AtomReader.read_induction with
  | ended n close =>
      rw [AtomReader.read_nil]
      simpa [Node.leafText, Node.leafTextAll] using shows_nothing
  | missing n c cs =>
      rw [AtomReader.read_closer rfl]
      simpa [Node.leafText, Node.leafTextAll] using shows_nothing
  | leaf n close c cs opens simple =>
      rw [AtomReader.read_leaf opens simple]
      exact shows_readLeaf (solid c rfl)
  | tooDeep close c cs opens opener =>
      rw [AtomReader.read_tooDeep opens opener]
      simpa [Node.leafText] using shows_char (solid c rfl)
  | group n close c closer cs opens bracket atoms =>
      rw [AtomReader.read_group opens bracket]
      have closers : ∀ d, some closer = some d → isBlank d = false := by
        rintro d ⟨⟩
        exact not_isBlank_of_isCloser (isCloser_of_closer? bracket)
      refine shows_groupNode bracket plain (shows_row closers ?_ (plain.of_suffix ?_))
      · intro d ds solid plain
        exact atoms (some closer) (d :: ds) closers (by rintro d ⟨⟩; exact solid) plain
      · exact List.suffix_cons c cs
  | command n close cs => exact absurd List.mem_cons_self plain.literal

/-- The leaves of a text without marks and backslashes show what is kept of it. -/
theorem filter_leafText_parse {kept : Char → Bool} {source : String}
    (plain : Unmarked kept source.toList) :
    (parse source).leafText.filter kept =
      source.toList.filter fun c => !isBlank c && kept c := by
  let reader := AtomReader.withRoom maxNesting none
  have endless : ∀ c, none = some c → isBlank c = false := by rintro c ⟨⟩
  have all : Shows kept source.toList (reader.row source.toList).rest
      ((reader.row source.toList).shown none) := by
    refine shows_row endless (fun c cs solid => ?_) plain
    exact shows_read maxNesting none (c :: cs) endless (by rintro d ⟨⟩; exact solid)
  obtain ⟨unclosed, ended⟩ := reader.row_unclosed source.toList
  rw [ended] at all
  obtain ⟨taken, whole, shown⟩ := all
  rw [whole, List.append_nil, ← shown, parse, Node.leafText, Row.shown, unclosed]
  simp [parseRow, reader]

/-- **No character is dropped.**  In a text without backslashes and marks, whatever its brackets
are, the leaves of its tree are its characters that are no blanks, in their order; braces apart,
which are leaves only below the last level of nesting.  A text without braces has exactly those
characters in its leaves. -/
theorem leafText_parse (source : String)
    (plain : ∀ c ∈ source.toList, c ≠ '\\' ∧ c ≠ '^' ∧ c ≠ '_') :
    ((parse source).leafText.filter fun c => !isBrace c) =
        (source.toList.filter fun c => !isBlank c && !isBrace c) ∧
      ((∀ c ∈ source.toList, isBrace c = false) →
        (parse source).leafText = source.toList.filter fun c => !isBlank c) := by
  have unmarked : ∀ c ∈ source.toList, isMark c = false := fun c inside =>
    decide_eq_false (not_or.mpr (plain c inside).2)
  have literal : '\\' ∉ source.toList := fun inside => (plain '\\' inside).1 rfl
  refine ⟨filter_leafText_parse ⟨unmarked, literal, fun _ _ _ => ⟨by decide, by decide⟩⟩, ?_⟩
  intro unbraced
  have plain : Unmarked (fun _ => true) source.toList :=
    ⟨unmarked, literal, fun c inside brace => absurd brace (by simp [unbraced c inside])⟩
  have whole := filter_leafText_parse plain
  rw [List.filter_eq_self.mpr fun _ _ => rfl] at whole
  simpa using whole

namespace Example

/-- Brackets that do not match, a point without digits before it and one that splits no number. -/
theorem leafText_unbalanced :
    (∀ c ∈ "\x7b(ab 1.5 ]\x7d .2) [ 3.x".toList, c ≠ '\\' ∧ c ≠ '^' ∧ c ≠ '_') ∧
      ((parse "\x7b(ab 1.5 ]\x7d .2) [ 3.x").leafText.filter fun c => !isBrace c) =
        "(ab1.5].2)[3.x".toList ∧
      (∀ c ∈ "(ab 1.5 ] .2 [ 3.x".toList, isBrace c = false) ∧
      (parse "(ab 1.5 ] .2 [ 3.x").leafText = "(ab1.5].2[3.x".toList := by
  have unbraced : ∀ c ∈ "(ab 1.5 ] .2 [ 3.x".toList, isBrace c = false := by simp [isBrace]
  refine ⟨by simp, ?_, unbraced, ?_⟩
  · exact (leafText_parse _ (by simp)).1.trans (by decide)
  · exact ((leafText_parse _ (by simp)).2 unbraced).trans (by decide)

end Example

end Rendition.Math
