/-
# Rendition.Proofs.Math.Reading -- the grammar of math, one equation for each step

Rows, scripts and atoms are read by recursion on the text that is left.  Here stands
once what each of them does with a text, by the first character that is not blank:
a row ends, closes or reads one more node; a script mark takes an operand; an atom
is a group, a command or a leaf.  Blanks in front of a row, of scripts and of an
operand are not seen.
-/
import Mathlib.Tactic.SplitIfs
import Rendition.Math.Parse
import Rendition.Proofs.Text.Blank

namespace Rendition.Math

set_option autoImplicit false

open Rendition.Text

/-! ## Leaves -/

/-- A number is what it is written as. -/
theorem readNumber_append_eq (cs : List Char) : (readNumber cs).1 ++ (readNumber cs).2 = cs := by
  have whole := List.takeWhile_append_dropWhile (p := Char.isDigit) (l := cs)
  simp only [readNumber]
  split
  · rename_i d rest found
    rw [found] at whole
    by_cases digit : d.isDigit = true
    · rw [if_pos digit, List.append_assoc, List.cons_append,
        List.takeWhile_append_dropWhile, whole]
    · rw [if_neg digit, whole]
  · exact whole

/-- A leaf takes what it is read from off the text. -/
theorem readLeaf_suffix (c : Char) (cs : List Char) : (readLeaf c cs).2 <:+ c :: cs := by
  by_cases digit : c.isDigit = true
  · simp only [readLeaf, digit, ↓reduceIte]
    exact ⟨_, readNumber_append_eq (c :: cs)⟩
  · by_cases letter : isAlphabetic c = true
    · have after := (List.dropWhile_suffix isAlphabetic (l := cs)).trans (List.suffix_cons c cs)
      simpa [readLeaf, digit, letter] using after
    · by_cases operator : isOperator c = true
      · simp [readLeaf, digit, letter, operator]
      · simp [readLeaf, digit, letter, operator]

/-! ## Rows over a reader of atoms -/

def Row.prepend (nodes : List Node) (row : Row) : Row :=
  { row with children := nodes ++ row.children }

theorem Row.prepend_nil (row : Row) : row.prepend [] = row := rfl

theorem Row.prepend_prepend (nodes others : List Node) (row : Row) :
    (row.prepend others).prepend nodes = row.prepend (nodes ++ others) := by
  simp [prepend]

/-- Whether a character begins a script. -/
def isMark (c : Char) : Bool := c = '^' ∨ c = '_'

theorem isMark_iff {c : Char} : isMark c ↔ c = '^' ∨ c = '_' := decide_eq_true_iff

namespace AtomReader

variable {close : Option Char} (reader : AtomReader close)

/-- An atom first, then the scripts that follow it. -/
theorem scriptable_eq (cs : List Char) :
    reader.scriptable cs =
      ((reader.read cs).1.withScripts (reader.scripts none none (reader.read cs).2).1.1
          (reader.scripts none none (reader.read cs).2).1.2,
        (reader.scripts none none (reader.read cs).2).2) := rfl

section Scripts

variable {sub sup : Option Node} {cs rest : List Char} {c : Char}

/-- A script mark takes an operand, which replaces an earlier one of its kind. -/
theorem scripts_mark (found : skipBlanks cs = c :: rest) (mark : isMark c) :
    reader.scripts sub sup cs =
      reader.scripts (if c = '^' then sub else some (reader.operand rest).1)
        (if c = '^' then some (reader.operand rest).1 else sup) (reader.operand rest).2 := by
  rw [scripts]
  rcases isMark_iff.mp mark with rfl | rfl
  · split <;> simp_all
  · split <;> simp_all

/-- Without a mark ahead the scripts are complete. -/
theorem scripts_done (unmarked : ∀ c ∈ (skipBlanks cs).head?, isMark c = false) :
    reader.scripts sub sup cs = ((sub, sup), skipBlanks cs) := by
  rw [scripts]
  split
  · rename_i found
    exact absurd (unmarked '^' (by simp [found])) (by decide)
  · rename_i found
    exact absurd (unmarked '_' (by simp [found])) (by decide)
  · rfl

end Scripts

section Row

variable {cs rest : List Char} {c : Char}

theorem row_ended (found : skipBlanks cs = []) : reader.row cs = ⟨[], false, []⟩ := by
  rw [row]
  split <;> simp_all

theorem row_closed (found : skipBlanks cs = c :: rest) (closes : close = some c) :
    reader.row cs = ⟨[], true, rest⟩ := by
  rw [row]
  split <;> simp_all

/-- A row goes on with one more atom and its scripts unless its closer is there. -/
theorem row_next (found : skipBlanks cs = c :: rest) (opens : close ≠ some c) :
    reader.row cs =
      (reader.row (reader.scriptable (c :: rest)).2).prepend
        [(reader.scriptable (c :: rest)).1] := by
  rw [row]
  split
  · simp_all
  · rename_i d others same
    obtain ⟨rfl, rfl⟩ := List.cons.inj (found.symm.trans same)
    rw [dif_neg opens]
    rfl

end Row

section Nodes

variable {P : Node → Prop}

/-- The scripts of an atom are atoms, or were found before. -/
theorem scripts_of_read (atoms : ∀ cs, P (reader.read cs).1) {sub sup : Option Node}
    (below : ∀ node ∈ sub, P node) (above : ∀ node ∈ sup, P node) (cs : List Char) :
    (∀ node ∈ (reader.scripts sub sup cs).1.1, P node) ∧
      ∀ node ∈ (reader.scripts sub sup cs).1.2, P node := by
  fun_induction AtomReader.scripts reader sub sup cs with
  | case1 sub sup cs rest found ih =>
      refine ih below ?_
      rintro node ⟨⟩
      exact atoms _
  | case2 sub sup cs rest found ih =>
      refine ih ?_ above
      rintro node ⟨⟩
      exact atoms _
  | case3 sub sup cs => exact ⟨below, above⟩

/-- The nodes of a row are atoms with atoms for their scripts. -/
theorem exists_of_mem_row (atoms : ∀ cs, P (reader.read cs).1) {cs : List Char} {child : Node}
    (member : child ∈ (reader.row cs).children) :
    ∃ base sub sup, child = base.withScripts sub sup ∧ P base ∧
      (∀ node ∈ sub, P node) ∧ ∀ node ∈ sup, P node := by
  fun_induction AtomReader.row reader cs with
  | case1 => cases member
  | case2 => cases member
  | case3 cs c rest found opens first others ih =>
      rcases List.mem_cons.mp member with rfl | later
      · have missing : ∀ node ∈ (none : Option Node), P node := by rintro node ⟨⟩
        obtain ⟨below, above⟩ :=
          reader.scripts_of_read atoms missing missing (reader.read (c :: rest)).2
        exact ⟨_, _, _, rfl, atoms _, below, above⟩
      · exact ih later

end Nodes

/-- Rows do not see blanks in front. -/
theorem row_congr {cs ds : List Char} (same : skipBlanks cs = skipBlanks ds) :
    reader.row cs = reader.row ds := by
  cases found : skipBlanks cs with
  | nil => rw [reader.row_ended found, reader.row_ended (same.symm.trans found)]
  | cons c rest =>
      by_cases closes : close = some c
      · rw [reader.row_closed found closes, reader.row_closed (same.symm.trans found) closes]
      · rw [reader.row_next found closes, reader.row_next (same.symm.trans found) closes]

end AtomReader

/-! ## Atoms -/

def closer? (c : Char) : Option Char :=
  if c = '\x7b' then some '\x7d'
  else if c = '(' then some ')'
  else if c = '[' then some ']'
  else none

/-- Whether an atom that begins with a character is nested one level deeper than the character. -/
def isOpener (c : Char) : Bool := "\x7b([\\".toList.contains c

theorem isOpener_of_closer? {c closer : Char} (bracket : closer? c = some closer) :
    isOpener c := by
  rw [closer?] at bracket
  split_ifs at bracket with brace round square
  · exact brace ▸ by decide
  · exact round ▸ by decide
  · exact square ▸ by decide

theorem closer?_eq_none_of_not_isOpener {c : Char} (simple : isOpener c = false) :
    closer? c = none := by
  cases bracket : closer? c with
  | none => rfl
  | some closer => exact absurd (isOpener_of_closer? bracket) (by simp [simple])

/-- What opens no group but nests is a backslash. -/
theorem eq_backslash_of_isOpener {c : Char} (opener : isOpener c) (closerless : closer? c = none) :
    c = '\\' := by
  rw [closer?] at closerless
  split_ifs at closerless with brace round square
  simpa [isOpener, brace, round, square] using opener

/-- The node of a group: braces only group, other brackets are shown. -/
def groupNode (opener closer : Char) (row : Row) : Node :=
  if opener = '\x7b' then .row row.children else bracketed opener closer row

namespace AtomReader

variable {close : Option Char} {n : Nat} {c : Char} {cs : List Char}

theorem read_nil : (withRoom n close).read [] = (.row [], []) := by
  cases n <;> rfl

/-- At its closer a reader finds an empty row and leaves the closer. -/
theorem read_closer (closes : close = some c) :
    (withRoom n close).read (c :: cs) = (.row [], c :: cs) := by
  cases n <;> simp [withRoom, flat, nest, closes]

/-- Below the last level what would nest is shown as text. -/
theorem read_tooDeep (opens : close ≠ some c) (nests : isOpener c) :
    (withRoom 0 close).read (c :: cs) = (.text (String.singleton c), cs) := by
  rw [isOpener] at nests
  simp only [withRoom, flat, opens, nests, ↓reduceIte]

theorem read_command (opens : close ≠ some '\\') :
    (withRoom (n + 1) close).read ('\\' :: cs) = readCommand (withRoom n close).operand cs := by
  simp [withRoom, nest, opens]

/-- A group is read as a row up to its own closer. -/
theorem read_group {closer : Char} (opens : close ≠ some c) (bracket : closer? c = some closer) :
    (withRoom (n + 1) close).read (c :: cs) =
      (groupNode c closer ((withRoom n (some closer)).row cs),
        ((withRoom n (some closer)).row cs).rest) := by
  simp only [withRoom, nest, if_neg opens]
  rw [closer?] at bracket
  split_ifs at bracket with brace round square
  · cases bracket
    rw [if_pos brace, groupNode, if_pos brace]
  · cases bracket
    rw [if_neg brace, if_pos round, groupNode, if_neg brace, round]
  · cases bracket
    rw [if_neg brace, if_neg round, if_pos square, groupNode, if_neg brace, square]

theorem read_leaf (opens : close ≠ some c) (simple : isOpener c = false) :
    (withRoom n close).read (c :: cs) = readLeaf c cs := by
  cases n with
  | zero =>
      simp only [withRoom, flat, if_neg opens]
      rw [← isOpener, simple, if_neg Bool.false_ne_true]
  | succ n =>
      have other : ∀ d, isOpener d → c ≠ d := by
        rintro d nests rfl
        exact Bool.false_ne_true (simple.symm.trans nests)
      simp only [withRoom, nest, if_neg opens]
      rw [if_neg (other _ (by decide)), if_neg (other _ (by decide)), if_neg (other _ (by decide)),
        if_neg (other _ (by decide))]

/-- What holds of every atom: it is shown for what begins with each kind of character, and for a
group or a command from what holds one level below. -/
@[elab_as_elim]
theorem read_induction {motive : Nat → Option Char → List Char → Prop}
    (ended : ∀ n close, motive n close [])
    (missing : ∀ n c cs, motive n (some c) (c :: cs))
    (leaf : ∀ n close c cs, close ≠ some c → isOpener c = false → motive n close (c :: cs))
    (tooDeep : ∀ close c cs, close ≠ some c → isOpener c → motive 0 close (c :: cs))
    (group : ∀ n close c closer cs, close ≠ some c → closer? c = some closer →
      (∀ close cs, motive n close cs) → motive (n + 1) close (c :: cs))
    (command : ∀ n close cs, close ≠ some '\\' → (∀ close cs, motive n close cs) →
      motive (n + 1) close ('\\' :: cs))
    (n : Nat) (close : Option Char) (cs : List Char) : motive n close cs := by
  induction n generalizing close cs with
  | zero =>
      cases cs with
      | nil => exact ended 0 close
      | cons c cs =>
          by_cases closes : close = some c
          · exact closes ▸ missing 0 c cs
          · cases opener : isOpener c with
            | false => exact leaf 0 close c cs closes opener
            | true => exact tooDeep close c cs closes opener
  | succ n ih =>
      cases cs with
      | nil => exact ended (n + 1) close
      | cons c cs =>
          by_cases closes : close = some c
          · exact closes ▸ missing (n + 1) c cs
          · cases opener : isOpener c with
            | false => exact leaf (n + 1) close c cs closes opener
            | true =>
                cases bracket : closer? c with
                | some closer => exact group n close c closer cs closes bracket ih
                | none =>
                    obtain rfl := eq_backslash_of_isOpener opener bracket
                    exact command n close cs closes ih

end AtomReader

/-! ## Commands -/

section Commands

variable {operand : List Char → Node × List Char} {cs : List Char}

theorem readCommand_symbol {c : Char} {rest : List Char} (symbol : c.isAlpha = false) :
    readCommand operand (c :: rest) = (.operator (String.singleton c), rest) := by
  simp [readCommand, symbol]

/-- The letters after the backslash are the name of the command. -/
theorem readCommand_name {name : List Char} (letters : cs.takeWhile Char.isAlpha = name)
    (named : name ≠ []) :
    readCommand operand cs =
      let command := String.ofList name
      let rest := cs.dropWhile Char.isAlpha
      if command = "frac" then
        (.fraction (operand rest).1 (operand (operand rest).2).1, (operand (operand rest).2).2)
      else if command = "sqrt" then (.root (operand rest).1, (operand rest).2)
      else (.identifier ((symbol? command).getD command), rest) := by
  subst letters
  cases cs with
  | nil => exact absurd rfl named
  | cons c cs =>
      by_cases letter : c.isAlpha = true
      · simp [readCommand, letter]
      · simp [letter] at named

end Commands

end Rendition.Math
