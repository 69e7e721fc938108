/-
# Rendition.Math.Parse -- reading math expressions

    row        := scriptable* (closer | end)
    scriptable := atom (('^' | '_') operand)*
    atom       := '{' row '}' | '(' row ')' | '[' row ']' | '\' command
                | digits ['.' digits] | letters | operator | any other character

Reading never fails: what the grammar does not know becomes a text leaf.  The
closer is the character that ends the innermost open group; an atom that meets
it, or the end of the text, is an empty row and consumes nothing.

The grammar is given once over a reader of atoms (`AtomReader`), which carries
the proofs that it never lengthens the text and shortens it except at its
closer.  `AtomReader.withRoom n` reads groups and commands nested up to `n`
levels; deeper openers and backslashes are text.  Each level is built from the
one below, so reading ends for every text.
-/
import Rendition.Math.Node
import Rendition.Math.Symbol
import Rendition.Text.Blank
import Rendition.Text.Numeral

namespace Rendition.Math

set_option autoImplicit false
set_option linter.unusedVariables false

open Rendition.Text

/-- Nesting up to this depth is read as structure. -/
def maxNesting : Nat := 256

/-- The characters that are operators by themselves. -/
def isOperator (c : Char) : Bool := "+-=*/,;:|<>!?".toList.contains c

/-! ## Leaves -/

/-- The digits of a number and the text after them: a point counts when a digit follows it. -/
def readNumber (cs : List Char) : List Char × List Char :=
  let whole := cs.takeWhile Char.isDigit
  match cs.dropWhile Char.isDigit with
  | '.' :: d :: rest =>
      if d.isDigit then
        (whole ++ '.' :: (d :: rest).takeWhile Char.isDigit, (d :: rest).dropWhile Char.isDigit)
      else (whole, '.' :: d :: rest)
  | rest => (whole, rest)

/-- The leaf that starts with `c`, and the text after it. -/
def readLeaf (c : Char) (cs : List Char) : Node × List Char :=
  if c.isDigit then
    let (digits, rest) := readNumber (c :: cs)
    (.number (String.ofList digits), rest)
  else if isAlphabetic c then
    (.identifier (String.ofList ((c :: cs).takeWhile isAlphabetic)), cs.dropWhile isAlphabetic)
  else if isOperator c then (.operator (String.singleton c), cs)
  else (.text (String.singleton c), cs)

theorem length_readNumber_le (c : Char) (cs : List Char) (digit : c.isDigit = true) :
    (readNumber (c :: cs)).2.length ≤ cs.length := by
  have drop : (c :: cs).dropWhile Char.isDigit = cs.dropWhile Char.isDigit := by
    simp [digit]
  have shorter := (List.dropWhile_sublist Char.isDigit (l := cs)).length_le
  simp only [readNumber, drop]
  split
  · rename_i d rest eq
    rw [eq] at shorter
    have fraction := (List.dropWhile_sublist Char.isDigit (l := (d :: rest))).length_le
    simp only [List.length_cons] at shorter fraction
    split <;> simp only [List.length_cons] <;> omega
  · exact shorter

theorem length_readLeaf_le (c : Char) (cs : List Char) : (readLeaf c cs).2.length ≤ cs.length := by
  unfold readLeaf
  split
  · rename_i digit
    exact length_readNumber_le c cs digit
  · split
    · exact (List.dropWhile_sublist _).length_le
    · split <;> exact Nat.le_refl _

/-! ## Rows over a reader of atoms -/

/-- A reader of atoms inside a group that ends at `close`. -/
structure AtomReader (close : Option Char) where
  /-- The atom at the start of a text, and the text after it. -/
  read : List Char → Node × List Char
  /-- No text is added. -/
  length_read_le : ∀ cs, (read cs).2.length ≤ cs.length
  /-- Only the closer stays. -/
  length_read_lt : ∀ c cs, close ≠ some c → (read (c :: cs)).2.length < (c :: cs).length

/-- A row of nodes, whether its closer was met, and the text after it. -/
structure Row where
  children : List Node
  closed : Bool
  rest : List Char

namespace AtomReader

variable {close : Option Char} (reader : AtomReader close)

/-- An operand: an atom after any blanks. -/
def operand (cs : List Char) : Node × List Char := reader.read (skipBlanks cs)

theorem length_operand_le (cs : List Char) : (reader.operand cs).2.length ≤ cs.length :=
  Nat.le_trans (reader.length_read_le _) (length_skipBlanks_le cs)

/-- The scripts that follow a base; a later script replaces an earlier one of its kind. -/
def scripts (sub sup : Option Node) (cs : List Char) : (Option Node × Option Node) × List Char :=
  match found : skipBlanks cs with
  | '^' :: rest => scripts sub (some (reader.operand rest).1) (reader.operand rest).2
  | '_' :: rest => scripts (some (reader.operand rest).1) sup (reader.operand rest).2
  | rest => ((sub, sup), rest)
termination_by cs.length
decreasing_by
  all_goals
    have blanks := length_skipBlanks_le cs
    have operand := reader.length_operand_le rest
    rw [found, List.length_cons] at blanks
    omega

theorem length_scripts_le (sub sup : Option Node) (cs : List Char) :
    (reader.scripts sub sup cs).2.length ≤ cs.length := by
  fun_induction AtomReader.scripts reader sub sup cs with
  | case1 sub sup cs rest found ih =>
      have blanks := length_skipBlanks_le cs
      have operand := reader.length_operand_le rest
      rw [found, List.length_cons] at blanks
      omega
  | case2 sub sup cs rest found ih =>
      have blanks := length_skipBlanks_le cs
      have operand := reader.length_operand_le rest
      rw [found, List.length_cons] at blanks
      omega
  | case3 sub sup cs =>
      exact length_skipBlanks_le cs

/-- An atom with the scripts that follow it. -/
def scriptable (cs : List Char) : Node × List Char :=
  let (base, rest) := reader.read cs
  let ((sub, sup), rest) := reader.scripts none none rest
  (base.withScripts sub sup, rest)

/-- An atom with its scripts takes at least one character, so that a row ends. -/
theorem length_scriptable_lt (c : Char) (cs : List Char) (opens : close ≠ some c) :
    (reader.scriptable (c :: cs)).2.length < (c :: cs).length :=
  Nat.lt_of_le_of_lt (reader.length_scripts_le none none _) (reader.length_read_lt c cs opens)

/-- The nodes up to the closer, which is consumed, or to the end of the text. -/
def row (cs : List Char) : Row :=
  match found : skipBlanks cs with
  | [] => ⟨[], false, []⟩
  | c :: rest =>
      if closes : close = some c then ⟨[], true, rest⟩
      else
        let first := reader.scriptable (c :: rest)
        let others := row first.2
        { others with children := first.1 :: others.children }
termination_by cs.length
decreasing_by
  have blanks := length_skipBlanks_le cs
  have first := reader.length_scriptable_lt c rest closes
  rw [found] at blanks
  omega

theorem length_row_le (cs : List Char) : (reader.row cs).rest.length ≤ cs.length := by
  fun_induction AtomReader.row reader cs with
  | case1 cs found => simp
  | case2 cs c rest found closes =>
      have blanks := length_skipBlanks_le cs
      rw [found, List.length_cons] at blanks
      simp only
      omega
  | case3 cs c rest found closes first others ih =>
      have blanks := length_skipBlanks_le cs
      have shorter := reader.length_scriptable_lt c rest closes
      rw [found] at blanks
      have after : others.rest.length ≤ first.2.length := ih
      have before : first.2.length < (c :: rest).length := shorter
      show others.rest.length ≤ cs.length
      omega

end AtomReader

/-! ## Levels of nesting -/

/-- A group in round or square brackets: its brackets, as far as they are there, around its row. -/
def bracketed (opener closer : Char) (row : Row) : Node :=
  .row (.operator (String.singleton opener) ::
    ((if row.children.isEmpty then [] else [.row row.children]) ++
      (if row.closed then [.operator (String.singleton closer)] else [])))

/-- The command after a backslash; operands are read with `operand`. -/
def readCommand (operand : List Char → Node × List Char) : List Char → Node × List Char
  | [] => (.text "\\", [])
  | c :: cs =>
      if c.isAlpha then
        let name := String.ofList ((c :: cs).takeWhile Char.isAlpha)
        let rest := cs.dropWhile Char.isAlpha
        if name = "frac" then
          let (numerator, rest) := operand rest
          let (denominator, rest) := operand rest
          (.fraction numerator denominator, rest)
        else if name = "sqrt" then
          let (radicand, rest) := operand rest
          (.root radicand, rest)
        else (.identifier ((symbol? name).getD name), rest)
      else (.operator (String.singleton c), cs)

/-- A command leaves no more than there was if its operands do not. -/
theorem length_readCommand_le {operand : List Char → Node × List Char}
    (shorter : ∀ cs, (operand cs).2.length ≤ cs.length) (cs : List Char) :
    (readCommand operand cs).2.length ≤ cs.length := by
  cases cs with
  | nil => simp [readCommand]
  | cons c cs =>
      have name := (List.dropWhile_sublist Char.isAlpha (l := cs)).length_le
      have first := shorter (cs.dropWhile Char.isAlpha)
      have second := shorter (operand (cs.dropWhile Char.isAlpha)).2
      simp only [readCommand]
      split
      · split
        · simp only [List.length_cons]; omega
        · split <;> simp only [List.length_cons] <;> omega
      · simp

namespace AtomReader

/-- The reader below the last level: every opener and backslash is text. -/
def flat (close : Option Char) : AtomReader close where
  read
    | [] => (.row [], [])
    | c :: cs =>
        if close = some c then (.row [], c :: cs)
        else if "\x7b([\\".toList.contains c then (.text (String.singleton c), cs)
        else readLeaf c cs
  length_read_le cs := by
    cases cs with
    | nil => simp
    | cons c cs =>
        have leaf := length_readLeaf_le c cs
        simp only [List.length_cons]
        repeat' split
        all_goals (try dsimp only [List.length_cons])
        all_goals omega
  length_read_lt c cs opens := by
    have leaf := length_readLeaf_le c cs
    simp only [opens, ↓reduceIte, List.length_cons]
    split
    all_goals (try dsimp only)
    all_goals omega

/-- The reader one level above `inner`. -/
def nest (inner : (close : Option Char) → AtomReader close) (close : Option Char) :
    AtomReader close where
  read
    | [] => (.row [], [])
    | c :: cs =>
        if close = some c then (.row [], c :: cs)
        else if c = '\x7b' then
          let row := (inner (some '\x7d')).row cs
          (.row row.children, row.rest)
        else if c = '(' then
          let row := (inner (some ')')).row cs
          (bracketed '(' ')' row, row.rest)
        else if c = '[' then
          let row := (inner (some ']')).row cs
          (bracketed '[' ']' row, row.rest)
        else if c = '\\' then readCommand (inner close).operand cs
        else readLeaf c cs
  length_read_le cs := by
    cases cs with
    | nil => simp
    | cons c cs =>
        have leaf := length_readLeaf_le c cs
        have command := length_readCommand_le (inner close).length_operand_le cs
        have brace := (inner (some '\x7d')).length_row_le cs
        have round := (inner (some ')')).length_row_le cs
        have square := (inner (some ']')).length_row_le cs
        simp only [List.length_cons]
        repeat' split
        all_goals (try dsimp only [List.length_cons])
        all_goals omega
  length_read_lt c cs opens := by
    have leaf := length_readLeaf_le c cs
    have command := length_readCommand_le (inner close).length_operand_le cs
    have brace := (inner (some '\x7d')).length_row_le cs
    have round := (inner (some ')')).length_row_le cs
    have square := (inner (some ']')).length_row_le cs
    simp only [opens, ↓reduceIte, List.length_cons]
    repeat' split
    all_goals (try dsimp only)
    all_goals omega

/-- The reader that has room for `n` levels of nesting. -/
def withRoom : Nat → (close : Option Char) → AtomReader close
  | 0 => flat
  | n + 1 => nest (withRoom n)

end AtomReader

def parseRow (source : List Char) : List Node :=
  ((AtomReader.withRoom maxNesting none).row source).children

/-- The tree of a math expression: a row. -/
def parse (source : String) : Node := .row (parseRow source.toList)

end Rendition.Math
