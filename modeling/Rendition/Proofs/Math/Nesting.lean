/-
# Rendition.Proofs.Math.Nesting -- texts whose brackets match

A text is *well nested* if its round, square and curly brackets are nested properly,
each closed by one of its own kind, and not too deep (`wellNested`).  The check reads
the text once and keeps the closers of the brackets that are open.

`Formula` says the same as a grammar: a formula is a sequence of plain characters and
of groups around formulas, and beside them of the commands for roots and fractions
with their operands in braces.  Where the check holds, the text up to the closer of
the innermost open bracket is a formula (`exists_formula_of_nestedWithin`).
-/
import Rendition.Proofs.Math.Reading

namespace Rendition.Math

set_option autoImplicit false

/-! ## The check -/

/-- Whether a character is a closing bracket. -/
def isCloser (c : Char) : Bool := "\x7d)]".toList.contains c

/-- Whether a text closes the open brackets with these closers, the innermost first, and nests its
own properly; never more than `limit` brackets are open, and there is no backslash. -/
def nestedWithin (limit : Nat) : List Char → List Char → Bool
  | closers, [] => closers.isEmpty
  | closers, c :: cs =>
      match closer? c with
      | some closer => closers.length < limit && nestedWithin limit (closer :: closers) cs
      | none =>
          if isCloser c then closers.head? = some c && nestedWithin limit closers.tail cs
          else c ≠ '\\' && nestedWithin limit closers cs

/-- Whether the brackets of a text are properly nested by kind, at most `limit` deep, and no
backslash is in it. -/
def wellNested (limit : Nat) (text : String) : Bool := nestedWithin limit [] text.toList

/-! ## The grammar -/

/-- Whether a character is neither a bracket nor a backslash. -/
def isPlain (c : Char) : Bool := !isOpener c && !isCloser c

/-- A text that is read in `room` levels of nesting: plain characters, groups and commands with
their operands in braces. -/
inductive Formula : Nat → List Char → Prop where
  | nil {room : Nat} : Formula room []
  | plain {room : Nat} {c : Char} {cs : List Char} :
      isPlain c → Formula room cs → Formula room (c :: cs)
  | group {room : Nat} {opener closer : Char} {inner cs : List Char} :
      closer? opener = some closer → Formula room inner → Formula (room + 1) cs →
      Formula (room + 1) (opener :: (inner ++ closer :: cs))
  | root {room : Nat} {inner cs : List Char} : Formula room inner → Formula (room + 2) cs →
      Formula (room + 2) ('\\' :: ("sqrt\x7b".toList ++ (inner ++ '\x7d' :: cs)))
  | fraction {room : Nat} {numerator denominator cs : List Char} :
      Formula room numerator → Formula room denominator → Formula (room + 2) cs →
      Formula (room + 2)
        ('\\' :: ("frac\x7b".toList ++
          (numerator ++ '\x7d' :: '\x7b' :: (denominator ++ '\x7d' :: cs))))

theorem isPlain_iff {c : Char} : isPlain c ↔ isOpener c = false ∧ isCloser c = false := by
  simp [isPlain]

theorem isCloser_iff {c : Char} : isCloser c ↔ c = '\x7d' ∨ c = ')' ∨ c = ']' := by
  simp [isCloser]

theorem ne_of_isPlain {c d : Char} (plain : isPlain c) (special : isPlain d = false) : c ≠ d := by
  rintro rfl
  exact Bool.false_ne_true (special.symm.trans plain)

theorem not_isCloser_of_closer? {c closer : Char} (bracket : closer? c = some closer) :
    isCloser c = false := by
  rw [closer?] at bracket
  split_ifs at bracket with brace round square
  · exact brace ▸ by decide
  · exact round ▸ by decide
  · exact square ▸ by decide

theorem isCloser_of_closer? {c closer : Char} (bracket : closer? c = some closer) :
    isCloser closer := by
  rw [closer?] at bracket
  split_ifs at bracket <;> cases bracket <;> decide

/-- A character that opens nothing is plain, closes a bracket or is a backslash. -/
theorem isPlain_of_closer?_eq_none {c : Char} (closerless : closer? c = none)
    (opens : isCloser c = false) (letter : c ≠ '\\') : isPlain c := by
  rw [closer?] at closerless
  split_ifs at closerless with brace round square
  refine isPlain_iff.mpr ⟨?_, opens⟩
  simp [isOpener, brace, round, square, letter]

namespace Formula

/-- A formula needs no more than the room it fits in. -/
theorem mono {room more : Nat} {cs : List Char} (formula : Formula room cs) (le : room ≤ more) :
    Formula more cs := by
  induction formula generalizing more with
  | nil => exact .nil
  | plain plain _ ih => exact .plain plain (ih le)
  | group bracket _ _ inner after =>
      obtain ⟨more, rfl⟩ := Nat.exists_eq_add_of_le' (Nat.le_trans (Nat.le_add_left 1 _) le)
      exact .group bracket (inner (Nat.le_of_succ_le_succ le)) (after le)
  | root _ _ inner after =>
      obtain ⟨more, rfl⟩ := Nat.exists_eq_add_of_le' (Nat.le_trans (Nat.le_add_left 2 _) le)
      exact .root (inner (Nat.add_le_add_iff_right.mp le)) (after le)
  | fraction _ _ _ numerator denominator after =>
      obtain ⟨more, rfl⟩ := Nat.exists_eq_add_of_le' (Nat.le_trans (Nat.le_add_left 2 _) le)
      exact .fraction (numerator (Nat.add_le_add_iff_right.mp le))
        (denominator (Nat.add_le_add_iff_right.mp le)) (after le)

/-- No formula begins with a closing bracket. -/
theorem not_isCloser {room : Nat} {c : Char} {cs : List Char} (formula : Formula room (c :: cs)) :
    isCloser c = false := by
  cases formula with
  | plain plain _ => exact (isPlain_iff.mp plain).2
  | group bracket => exact not_isCloser_of_closer? bracket
  | root | fraction => decide

/-- What follows a plain character of a formula is a formula. -/
theorem of_plain_cons {room : Nat} {c : Char} {cs : List Char} (plain : isPlain c)
    (formula : Formula room (c :: cs)) : Formula room cs := by
  have simple := (isPlain_iff.mp plain).1
  cases formula with
  | plain _ rest => exact rest
  | group bracket => exact absurd (isOpener_of_closer? bracket) (by simp [simple])
  | root | fraction => exact absurd simple (by decide)

/-- Plain characters in front of a formula may go. -/
theorem of_plain_append {room : Nat} {front cs : List Char} (plain : ∀ c ∈ front, isPlain c)
    (formula : Formula room (front ++ cs)) : Formula room cs := by
  induction front with
  | nil => exact formula
  | cons c front ih =>
      obtain ⟨first, others⟩ := List.forall_mem_cons.mp plain
      exact ih others (formula.of_plain_cons first)

end Formula

/-! ## From the check to the grammar -/

/-- What follows a formula in brackets with these closers: the innermost closer and text that
closes the others, or nothing if no bracket is open. -/
def Closes (limit : Nat) : List Char → List Char → Prop
  | [], rest => rest = []
  | closer :: outer, rest => ∃ others, rest = closer :: others ∧ nestedWithin limit outer others

/-- **Up to the closer of the innermost open bracket a well-nested text is a formula.** -/
theorem exists_formula_of_nestedWithin {limit : Nat} {closers cs : List Char}
    (nested : nestedWithin limit closers cs) (few : closers.length ≤ limit) :
    ∃ inner rest, cs = inner ++ rest ∧ Formula (limit - closers.length) inner ∧
      Closes limit closers rest := by
  match cs with
  | [] =>
      obtain rfl : closers = [] := by simpa [nestedWithin] using nested
      exact ⟨[], [], rfl, .nil, rfl⟩
  | c :: cs =>
      rw [nestedWithin] at nested
      split at nested
      · rename_i closer bracket
        simp only [Bool.and_eq_true, decide_eq_true_eq] at nested
        obtain ⟨room, inside⟩ := nested
        obtain ⟨inner, _, split, group, others, rfl, outside⟩ :=
          exists_formula_of_nestedWithin inside room
        have shorter : others.length < (c :: cs).length := by
          simp [split]
          omega
        obtain ⟨after, rest, rfl, formula, closes⟩ := exists_formula_of_nestedWithin outside few
        refine ⟨c :: (inner ++ closer :: after), rest, by simp [split], ?_, closes⟩
        have level : limit - closers.length = limit - (closer :: closers).length + 1 := by
          simp only [List.length_cons]
          omega
        rw [level] at formula ⊢
        exact .group bracket group formula
      · rename_i closerless
        split at nested
        · rename_i closes
          simp only [Bool.and_eq_true, decide_eq_true_eq] at nested
          obtain ⟨innermost, nested⟩ := nested
          obtain ⟨outer, rfl⟩ := List.head?_eq_some_iff.mp innermost
          exact ⟨[], c :: cs, rfl, .nil, cs, rfl, nested⟩
        · rename_i opens
          simp only [Bool.and_eq_true, decide_eq_true_eq] at nested
          obtain ⟨letter, nested⟩ := nested
          obtain ⟨inner, rest, rfl, formula, closes⟩ := exists_formula_of_nestedWithin nested few
          have plain := isPlain_of_closer?_eq_none closerless (by simpa using opens) letter
          exact ⟨c :: inner, rest, rfl, .plain plain formula, closes⟩
termination_by cs.length
decreasing_by
  · simp
  · exact shorter
  · simp

/-- A well-nested text is a formula. -/
theorem formula_of_wellNested {limit : Nat} {text : String} (nested : wellNested limit text) :
    Formula limit text.toList := by
  obtain ⟨inner, rest, whole, formula, rfl⟩ :=
    exists_formula_of_nestedWithin nested (Nat.zero_le limit)
  rwa [whole, List.append_nil]

end Rendition.Math
