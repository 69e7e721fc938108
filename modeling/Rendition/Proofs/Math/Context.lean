/-
# Rendition.Proofs.Math.Context -- a formula is read the same wherever it stands

A formula stands in a group or in none, at some depth, and before some rest of the
text (`Place`).  It *fits* there if the rest does not touch it: it begins with a
blank or a closing bracket, it brings no script for the last atom of the formula,
and if the formula ends with a script mark, nothing follows that could be taken for
the operand (`Fits`).

Then the nodes of the formula are the same in every place that has room for its
groups, and reading goes on with the rest as if the formula were not there
(`exists_rowReads`).  The proof follows the reader: an atom, the scripts after it,
the others.  Groups and operands are shorter formulas, each fitting before the
bracket that closes it.

So the nodes of two texts one after the other are those of the first and those of
the second (`parse_append`).
-/
import Mathlib.Data.List.TakeWhile
import Rendition.Proofs.Math.Nesting
import Rendition.Proofs.Text.Blank

namespace Rendition.Math

set_option autoImplicit false

open Rendition.Text

/-! ## Places -/

/-- The first character of a text that is not blank. -/
def firstSolid? (cs : List Char) : Option Char := cs.find? fun c => !isBlank c

def lastSolid? (cs : List Char) : Option Char := firstSolid? cs.reverse

/-- What may follow a formula: nothing, or text that begins with a blank or a closing bracket. -/
def Apart (rest : List Char) : Prop := ∀ c ∈ rest.head?, isBlank c ∨ isCloser c

/-- The closer of the group around a place, if any, and the text that follows. -/
structure Place (close : Option Char) (rest : List Char) : Prop where
  closing : ∀ c, close = some c → isCloser c
  apart : Apart rest

/-- A text in a place where what follows brings it neither a script nor an operand. -/
structure Fits (close : Option Char) (rest cs : List Char) : Prop extends Place close rest where
  unscripted : ∀ c ∈ (skipBlanks rest).head?, isMark c = false
  sated : ∀ c ∈ lastSolid? cs, isMark c → ∀ d ∈ (skipBlanks rest).head?, close = some d

theorem head?_skipBlanks (cs : List Char) : (skipBlanks cs).head? = firstSolid? cs := by
  induction cs with
  | nil => rfl
  | cons c cs ih =>
      rw [firstSolid?, List.find?_cons]
      by_cases blank : isBlank c = true
      · simpa [skipBlanks, firstSolid?, blank] using ih
      · simp [skipBlanks, blank]

theorem Place.ne_some {close : Option Char} {rest : List Char} (place : Place close rest) {c : Char}
    (opens : isCloser c = false) : close ≠ some c := by
  intro same
  exact Bool.false_ne_true (opens.symm.trans (place.closing c same))

theorem lastSolid?_append_of_eq_some {cs ds : List Char} {c : Char}
    (last : lastSolid? ds = some c) : lastSolid? (cs ++ ds) = some c := by
  rw [lastSolid?, firstSolid?] at last ⊢
  rw [List.reverse_append, List.find?_append, last, Option.some_or]

/-- What fits in a place still fits when its beginning was read. -/
theorem Fits.of_suffix {close : Option Char} {rest cs ds : List Char} (fits : Fits close rest cs)
    (suffix : ds <:+ cs) : Fits close rest ds where
  toPlace := fits.toPlace
  unscripted := fits.unscripted
  sated c last := by
    obtain ⟨front, rfl⟩ := suffix
    exact fits.sated c (lastSolid?_append_of_eq_some last)

/-- A closing bracket is no blank. -/
theorem not_isBlank_of_isCloser {c : Char} (closes : isCloser c) : isBlank c = false := by
  rcases isCloser_iff.mp closes with rfl | rfl | rfl <;> decide

theorem not_isMark_of_isCloser {c : Char} (closes : isCloser c) : isMark c = false := by
  rcases isCloser_iff.mp closes with rfl | rfl | rfl <;> decide

/-- Every text fits into a group. -/
theorem fits_closer {closer : Char} (closes : isCloser closer) (others cs : List Char) :
    Fits (some closer) (closer :: others) cs := by
  have solid := skipBlanks_cons_of_not_isBlank others (not_isBlank_of_isCloser closes)
  refine { closing := ?_, apart := ?_, unscripted := ?_, sated := ?_ }
  · rintro c ⟨⟩
    exact closes
  · rintro c ⟨⟩
    exact .inr closes
  · rw [solid]
    rintro c ⟨⟩
    exact not_isMark_of_isCloser closes
  · rw [solid]
    rintro _ _ _ c ⟨⟩
    rfl

/-! ## Leaves -/

theorem eq_false_of_any {p : Char → Bool} {cs : List Char} (foreign : cs.any p = false) {c : Char}
    (inside : c ∈ cs) : p c = false := by
  simpa using List.any_eq_false.mp foreign c inside

/-- The characters that have a class which no bracket and no backslash has are plain. -/
theorem isPlain_of_class {p : Char → Bool} (foreign : "\x7b([\\\x7d)]".toList.any p = false)
    {c : Char} (holds : p c) : isPlain c := by
  have other : ∀ d ∈ "\x7b([\\\x7d)]".toList, c ≠ d := by
    rintro d bracket rfl
    exact Bool.false_ne_true ((eq_false_of_any foreign bracket).symm.trans holds)
  simp_all [isPlain, isOpener, isCloser]

theorem isPlain_of_isBlank {c : Char} (blank : isBlank c) : isPlain c :=
  isPlain_of_class (by decide) blank

/-- The characters with which what follows a formula may begin. -/
def enders : List Char :=
  "\x7d)]".toList ++
    (List.range' 9 5 ++ List.range' 0x2000 11 ++
      [0x20, 0x85, 0xA0, 0x1680, 0x2028, 0x2029, 0x202F, 0x205F, 0x3000]).map Char.ofNat

theorem mem_enders {c : Char} (ends : isBlank c ∨ isCloser c) : c ∈ enders := by
  rw [enders, List.mem_append]
  rcases ends with blank | closes
  · exact .inr (List.mem_map.mpr ⟨c.toNat, mem_blankCodes blank, Char.ofNat_toNat c⟩)
  · exact .inl (List.contains_iff_mem.mp closes)

/-- A class of characters is read off a text the same if something follows that is not in it. -/
theorem span_append {p : Char → Bool} (foreign : enders.any p = false) {rest : List Char}
    (apart : Apart rest) (cs : List Char) :
    (cs ++ rest).takeWhile p = cs.takeWhile p ∧
      (cs ++ rest).dropWhile p = cs.dropWhile p ++ rest := by
  induction cs with
  | nil =>
      cases rest with
      | nil => exact ⟨rfl, rfl⟩
      | cons c rest =>
          have outside := eq_false_of_any foreign (mem_enders (apart c rfl))
          simp [outside]
  | cons c cs ih =>
      by_cases inside : p c = true
      · simp [inside, ih]
      · simp [inside]

theorem foreign_isDigit : enders.any Char.isDigit = false := by decide

theorem foreign_isAlphabetic : enders.any isAlphabetic = false := by decide +kernel

/-- A number ends before what may follow a formula. -/
theorem readNumber_append {rest : List Char} (apart : Apart rest) (cs : List Char) :
    readNumber (cs ++ rest) = ((readNumber cs).1, (readNumber cs).2 ++ rest) := by
  have whole := span_append foreign_isDigit apart cs
  simp only [readNumber, whole]
  -- what is left decides whether a point belongs to the number, and it may be too short for that
  rcases cs.dropWhile Char.isDigit with _ | ⟨c, _ | ⟨d, tail⟩⟩
  · cases rest with
    | nil => rfl
    | cons c rest =>
        have point : c ≠ '.' := by
          rintro rfl
          exact absurd (mem_enders (apart _ rfl)) (by decide)
        simp [point]
  · by_cases point : c = '.'
    · subst point
      cases rest with
      | nil => rfl
      | cons d rest => simp [eq_false_of_any foreign_isDigit (mem_enders (apart d rfl))]
    · simp [point]
  · by_cases point : c = '.'
    · subst point
      have fraction := span_append foreign_isDigit apart (d :: tail)
      rw [List.cons_append] at fraction
      by_cases digit : d.isDigit = true
      · simp only [List.cons_append, digit, ↓reduceIte, fraction]
      · simp [digit]
    · simp [point]

/-- A leaf ends before what may follow a formula. -/
theorem readLeaf_append {rest : List Char} (apart : Apart rest) (c : Char) (cs : List Char) :
    readLeaf c (cs ++ rest) = ((readLeaf c cs).1, (readLeaf c cs).2 ++ rest) := by
  by_cases digit : c.isDigit = true
  · have number := readNumber_append apart (c :: cs)
    rw [List.cons_append] at number
    simp only [readLeaf, digit, ↓reduceIte, number]
  · by_cases letter : isAlphabetic c = true
    · have name := span_append foreign_isAlphabetic apart cs
      simp [readLeaf, digit, letter, name]
    · by_cases operator : isOperator c = true
      · simp [readLeaf, digit, letter, operator]
      · simp [readLeaf, digit, letter, operator]

theorem digit_or_point_of_mem_readNumber {cs : List Char} {c : Char}
    (inside : c ∈ (readNumber cs).1) : c.isDigit ∨ c = '.' := by
  have digital : ∀ cs : List Char, c ∈ cs.takeWhile Char.isDigit → c.isDigit :=
    fun cs inside => List.all_eq_true.mp List.all_takeWhile c inside
  simp only [readNumber] at inside
  split at inside
  · rename_i d rest found
    by_cases digit : d.isDigit = true
    · rw [if_pos digit, List.mem_append, List.mem_cons] at inside
      rcases inside with whole | rfl | fraction
      · exact .inl (digital cs whole)
      · exact .inr rfl
      · exact .inl (digital _ fraction)
    · rw [if_neg digit] at inside
      exact .inl (digital cs inside)
  · exact .inl (digital cs inside)

/-- A leaf takes plain characters only. -/
theorem exists_front_of_readLeaf {c : Char} (plain : isPlain c) (cs : List Char) :
    ∃ front, c :: cs = front ++ (readLeaf c cs).2 ∧ ∀ d ∈ front, isPlain d := by
  by_cases digit : c.isDigit = true
  · refine ⟨(readNumber (c :: cs)).1, ?_, ?_⟩
    · simp only [readLeaf, digit, ↓reduceIte]
      exact (readNumber_append_eq _).symm
    · intro d inside
      rcases digit_or_point_of_mem_readNumber inside with digit | rfl
      · exact isPlain_of_class (by decide) digit
      · decide
  · by_cases letter : isAlphabetic c = true
    · refine ⟨c :: cs.takeWhile isAlphabetic, ?_, ?_⟩
      · simp [readLeaf, digit, letter]
      · have letters : ∀ d ∈ cs.takeWhile isAlphabetic, isAlphabetic d :=
          List.all_eq_true.mp List.all_takeWhile
        refine List.forall_mem_cons.mpr ⟨plain, fun d inside => ?_⟩
        exact isPlain_of_class (by decide) (letters d inside)
    · refine ⟨[c], ?_, List.forall_mem_singleton.mpr plain⟩
      by_cases operator : isOperator c = true
      · simp [readLeaf, digit, letter, operator]
      · simp [readLeaf, digit, letter, operator]

/-! ## Laws -/

/-- In every place with so much room this node is read first, and this text is left. -/
def AtomReads (room : Nat) (cs : List Char) (node : Node) (after : List Char) : Prop :=
  ∀ more, room ≤ more → ∀ close rest, Place close rest →
    (AtomReader.withRoom more close).read (cs ++ rest) = (node, after ++ rest)

/-- In every place with so much room these scripts are read first, and this text is left. -/
def ScriptsRead (room : Nat) (sub sup : Option Node) (cs : List Char)
    (found : Option Node × Option Node) (after : List Char) : Prop :=
  ∀ more, room ≤ more → ∀ close rest, Fits close rest cs →
    (AtomReader.withRoom more close).scripts sub sup (cs ++ rest) =
      (found, skipBlanks (after ++ rest))

/-- In every place with so much room these nodes are read, and reading goes on with the rest. -/
def RowReads (room : Nat) (cs : List Char) (nodes : List Node) : Prop :=
  ∀ more, room ≤ more → ∀ close rest, Fits close rest cs →
    (AtomReader.withRoom more close).row (cs ++ rest) =
      ((AtomReader.withRoom more close).row rest).prepend nodes

section Groups

variable {room more : Nat} {inner : List Char} {nodes : List Node}

/-- The row of a group ends at its closer, whatever follows the group. -/
theorem RowReads.row_group (reads : RowReads room inner nodes) (le : room ≤ more) {closer : Char}
    (closes : isCloser closer) (others : List Char) :
    (AtomReader.withRoom more (some closer)).row (inner ++ closer :: others) =
      ⟨nodes, true, others⟩ := by
  have solid := skipBlanks_cons_of_not_isBlank others (not_isBlank_of_isCloser closes)
  rw [reads more le _ _ (fits_closer closes others inner), AtomReader.row_closed _ solid rfl,
    Row.prepend, List.append_nil]

/-- An operand in braces. -/
theorem RowReads.operand_braces (reads : RowReads room inner nodes) (le : room ≤ more)
    {close : Option Char} {rest : List Char} (place : Place close rest) (others : List Char) :
    (AtomReader.withRoom (more + 1) close).operand ('\x7b' :: (inner ++ '\x7d' :: others)) =
      (.row nodes, others) := by
  have opens : close ≠ some '\x7b' := place.ne_some (by decide)
  have row := reads.row_group le (by decide : isCloser '\x7d') others
  rw [AtomReader.operand, skipBlanks_cons_of_not_isBlank _ (by decide),
    AtomReader.read_group opens rfl, row]
  rfl

end Groups

theorem readCommand_sqrt (operand : List Char → Node × List Char) (cs : List Char) :
    readCommand operand ("sqrt\x7b".toList ++ cs) =
      (.root (operand ('\x7b' :: cs)).1, (operand ('\x7b' :: cs)).2) := by
  rfl

theorem readCommand_frac (operand : List Char → Node × List Char) (cs : List Char) :
    readCommand operand ("frac\x7b".toList ++ cs) =
      (.fraction (operand ('\x7b' :: cs)).1 (operand (operand ('\x7b' :: cs)).2).1,
        (operand (operand ('\x7b' :: cs)).2).2) := by
  rfl

section Commands

variable {room more : Nat} {close : Option Char} {rest : List Char}

/-- A root around a formula. -/
theorem RowReads.read_root {inner : List Char} {nodes : List Node}
    (reads : RowReads room inner nodes) (le : room + 2 ≤ more) (place : Place close rest)
    (others : List Char) :
    (AtomReader.withRoom more close).read
        ('\\' :: ("sqrt\x7b".toList ++ (inner ++ '\x7d' :: others))) =
      (.root (.row nodes), others) := by
  obtain ⟨more, rfl⟩ := Nat.exists_eq_add_of_le' (Nat.le_trans (Nat.le_add_left 2 _) le)
  have operand := reads.operand_braces (Nat.add_le_add_iff_right.mp le) place others
  rw [AtomReader.read_command (place.ne_some (by decide)), readCommand_sqrt, operand]

/-- A fraction of two formulas. -/
theorem RowReads.read_fraction {numerator denominator : List Char} {first second : List Node}
    (above : RowReads room numerator first) (below : RowReads room denominator second)
    (le : room + 2 ≤ more) (place : Place close rest) (others : List Char) :
    (AtomReader.withRoom more close).read
        ('\\' :: ("frac\x7b".toList ++
          (numerator ++ '\x7d' :: '\x7b' :: (denominator ++ '\x7d' :: others)))) =
      (.fraction (.row first) (.row second), others) := by
  obtain ⟨more, rfl⟩ := Nat.exists_eq_add_of_le' (Nat.le_trans (Nat.le_add_left 2 _) le)
  have operand := above.operand_braces (Nat.add_le_add_iff_right.mp le) place
    ('\x7b' :: (denominator ++ '\x7d' :: others))
  have operand' := below.operand_braces (Nat.add_le_add_iff_right.mp le) place others
  rw [AtomReader.read_command (place.ne_some (by decide)), readCommand_frac, operand, operand']

end Commands

/-- A formula that does not begin with a blank begins with an atom. -/
theorem exists_atomReads {room : Nat} {c : Char} {cs : List Char} (formula : Formula room (c :: cs))
    (solid : isBlank c = false)
    (rows : ∀ room inner, inner.length < (c :: cs).length → Formula room inner →
      ∃ nodes, RowReads room inner nodes) :
    ∃ node after, Formula room after ∧ after <:+ c :: cs ∧ after.length < (c :: cs).length ∧
      AtomReads room (c :: cs) node after := by
  have whole := formula
  have opens := formula.not_isCloser
  cases formula with
  | plain plain _ =>
      obtain ⟨front, split, simple⟩ := exists_front_of_readLeaf plain cs
      have shorter := length_readLeaf_le c cs
      refine ⟨(readLeaf c cs).1, (readLeaf c cs).2, ?_, ⟨front, split.symm⟩, ?_, ?_⟩
      · exact .of_plain_append simple (split ▸ whole)
      · exact Nat.lt_succ_of_le shorter
      · intro more _ close rest place
        rw [List.cons_append, AtomReader.read_leaf (place.ne_some opens) (isPlain_iff.mp plain).1,
          readLeaf_append place.apart]
  | @group room _ closer inner after bracket group following =>
      obtain ⟨nodes, reads⟩ := rows room inner (by grind) group
      refine ⟨groupNode c closer ⟨nodes, true, []⟩, after, following, ?_, by grind, ?_⟩
      · exact ⟨c :: (inner ++ [closer]), by simp⟩
      · intro more le close rest place
        obtain ⟨more, rfl⟩ := Nat.exists_eq_add_of_le' (Nat.le_trans (Nat.le_add_left 1 _) le)
        have row := reads.row_group (Nat.le_of_succ_le_succ le) (isCloser_of_closer? bracket)
          (after ++ rest)
        rw [List.cons_append, List.append_assoc, List.cons_append,
          AtomReader.read_group (place.ne_some opens) bracket, row]
        rfl
  | @root room inner after group following =>
      obtain ⟨nodes, reads⟩ := rows room inner (by grind) group
      refine ⟨.root (.row nodes), after, following, ?_, by grind, ?_⟩
      · exact ⟨'\\' :: ("sqrt\x7b".toList ++ (inner ++ ['\x7d'])), by simp⟩
      · intro more le close rest place
        simp only [List.cons_append, List.append_assoc]
        exact reads.read_root le place (after ++ rest)
  | @fraction room numerator denominator after above below following =>
      obtain ⟨first, readsFirst⟩ := rows room numerator (by grind) above
      obtain ⟨second, readsSecond⟩ := rows room denominator (by grind) below
      refine ⟨.fraction (.row first) (.row second), after, following, ?_, by grind, ?_⟩
      · exact ⟨'\\' :: ("frac\x7b".toList ++
          (numerator ++ '\x7d' :: '\x7b' :: (denominator ++ ['\x7d']))), by simp⟩
      · intro more le close rest place
        simp only [List.cons_append, List.append_assoc]
        exact readsFirst.read_fraction readsSecond le place (after ++ rest)

/-- Blanks in front of a formula may go. -/
theorem Formula.of_skipBlanks {room : Nat} {cs rest : List Char} {c : Char}
    (formula : Formula room cs) (found : skipBlanks cs = c :: rest) :
    Formula room (c :: rest) ∧ c :: rest <:+ cs := by
  have split := List.takeWhile_append_dropWhile (p := isBlank) (l := cs)
  rw [skipBlanks] at found
  rw [found] at split
  have blank : ∀ d ∈ cs.takeWhile isBlank, isBlank d := List.all_eq_true.mp List.all_takeWhile
  refine ⟨.of_plain_append (fun d inside => isPlain_of_isBlank (blank d inside)) ?_, _, split⟩
  rwa [split]

theorem lastSolid?_of_blank {c : Char} {cs : List Char} (solid : isBlank c = false)
    (blank : skipBlanks cs = []) : lastSolid? (c :: cs) = some c := by
  have blanks : ∀ d ∈ cs, isBlank d := List.dropWhile_eq_nil_iff.mp blank
  rw [lastSolid?, firstSolid?, List.reverse_cons, List.find?_append, List.find?_eq_none.mpr]
  · simp [solid]
  · intro d inside
    simpa using blanks d (List.mem_reverse.mp inside)

/-- An operand that is missing is an empty row, and what follows the formula stays. -/
theorem Fits.operand_missing {close : Option Char} {rest cs : List Char} {c : Char}
    (fits : Fits close rest cs) (last : lastSolid? cs = some c) (mark : isMark c) (room : Nat)
    {ds : List Char} (blank : skipBlanks ds = []) :
    (AtomReader.withRoom room close).operand (ds ++ rest) = (.row [], skipBlanks rest) := by
  have ends := fits.sated c last mark
  rw [AtomReader.operand, skipBlanks_append_of_blank blank]
  cases found : skipBlanks rest with
  | nil => exact AtomReader.read_nil
  | cons d others =>
      rw [found] at ends
      exact AtomReader.read_closer (ends d rfl)

/-- A formula begins with scripts, or with none. -/
theorem exists_scriptsRead {room : Nat} {cs : List Char} (formula : Formula room cs)
    (atoms : ∀ c ds, (c :: ds).length ≤ cs.length → Formula room (c :: ds) → isBlank c = false →
      ∃ node after, Formula room after ∧ after <:+ c :: ds ∧ after.length < (c :: ds).length ∧
        AtomReads room (c :: ds) node after)
    (sub sup : Option Node) :
    ∃ found after, Formula room after ∧ after <:+ cs ∧
      ScriptsRead room sub sup cs found after := by
  cases found : skipBlanks cs with
  | nil =>
      refine ⟨(sub, sup), [], .nil, List.nil_suffix, ?_⟩
      intro more _ close rest fits
      have blank : skipBlanks (cs ++ rest) = skipBlanks rest := skipBlanks_append_of_blank found
      rw [AtomReader.scripts_done _ (blank ▸ fits.unscripted), blank, List.nil_append]
  | cons c ds =>
      obtain ⟨marked, suffix⟩ := formula.of_skipBlanks found
      by_cases mark : isMark c = true
      · have operands := marked.of_plain_cons (isPlain_of_class (by decide) mark)
        cases operand : skipBlanks ds with
        | nil =>
            -- the mark stands last, so what follows supplies no operand
            refine ⟨(if c = '^' then sub else some (.row []),
              if c = '^' then some (.row []) else sup), [], .nil, List.nil_suffix, ?_⟩
            intro more _ close rest fits
            have last := lastSolid?_of_blank (not_isBlank_of_skipBlanks found) operand
            have missing := (fits.of_suffix suffix).operand_missing last mark more operand
            rw [AtomReader.scripts_mark _ (skipBlanks_append_of_solid found) mark, missing,
              AtomReader.scripts_done _ (by rw [skipBlanks_skipBlanks]; exact fits.unscripted),
              skipBlanks_skipBlanks, List.nil_append]
        | cons d es =>
            obtain ⟨started, inside⟩ := operands.of_skipBlanks operand
            have shorter : (d :: es).length < cs.length := by
              have := inside.length_le
              have := suffix.length_le
              simp only [List.length_cons] at *
              omega
            obtain ⟨node, after, rest, left, less, reads⟩ :=
              atoms d es (Nat.le_of_lt shorter) started (not_isBlank_of_skipBlanks operand)
            have tail : after <:+ cs :=
              left.trans (inside.trans ((List.suffix_cons c ds).trans suffix))
            obtain ⟨found', last, formula', left', reads'⟩ :=
              exists_scriptsRead rest
                (fun c ds le => atoms c ds (Nat.le_trans le tail.length_le))
                (if c = '^' then sub else some node) (if c = '^' then some node else sup)
            refine ⟨found', last, formula', left'.trans tail, ?_⟩
            intro more le close rest fits
            rw [AtomReader.scripts_mark _ (skipBlanks_append_of_solid found) mark,
              AtomReader.operand, skipBlanks_append_of_solid operand, ← List.cons_append,
              reads more le close rest fits.toPlace]
            exact reads' more le close rest (fits.of_suffix tail)
      · refine ⟨(sub, sup), cs, formula, List.suffix_rfl, ?_⟩
        intro more _ close rest fits
        refine AtomReader.scripts_done _ ?_
        rw [skipBlanks_append_of_solid found]
        rintro d ⟨⟩
        simpa using mark
termination_by cs.length
decreasing_by omega

/-- **A formula is read the same wherever it fits.** -/
theorem exists_rowReads {room : Nat} {cs : List Char} (formula : Formula room cs) :
    ∃ nodes, RowReads room cs nodes := by
  have atoms : ∀ c ds, (c :: ds).length ≤ cs.length → Formula room (c :: ds) → isBlank c = false →
      ∃ node after, Formula room after ∧ after <:+ c :: ds ∧ after.length < (c :: ds).length ∧
        AtomReads room (c :: ds) node after := by
    intro c ds le started solid
    refine exists_atomReads started solid fun room inner shorter group => ?_
    exact exists_rowReads group
  cases found : skipBlanks cs with
  | nil =>
      refine ⟨[], fun more _ close rest _ => ?_⟩
      rw [Row.prepend_nil]
      exact AtomReader.row_congr _ (skipBlanks_append_of_blank found)
  | cons c ds =>
      obtain ⟨started, suffix⟩ := formula.of_skipBlanks found
      obtain ⟨base, scripted, formula', left, shorter, reads⟩ :=
        atoms c ds suffix.length_le started (not_isBlank_of_skipBlanks found)
      have inside : scripted <:+ cs := left.trans suffix
      obtain ⟨scripts, others, following, left', reads'⟩ :=
        exists_scriptsRead formula'
          (fun c ds le => atoms c ds (Nat.le_trans le inside.length_le)) none none
      have less : others.length < cs.length :=
        Nat.lt_of_le_of_lt left'.length_le (Nat.lt_of_lt_of_le shorter suffix.length_le)
      obtain ⟨nodes, reads''⟩ := exists_rowReads following
      refine ⟨base.withScripts scripts.1 scripts.2 :: nodes, fun more le close rest fits => ?_⟩
      rw [AtomReader.row_next _ (skipBlanks_append_of_solid found)
          (fits.ne_some started.not_isCloser), AtomReader.scriptable_eq, ← List.cons_append,
        reads more le close rest fits.toPlace, reads' more le close rest (fits.of_suffix inside),
        AtomReader.row_congr _ (skipBlanks_skipBlanks (others ++ rest)),
        reads'' more le close rest (fits.of_suffix (left'.trans inside)), Row.prepend_prepend]
      rfl
termination_by cs.length
decreasing_by
  · omega
  · exact less

/-! ## Texts one after the other -/

def Node.children : Node → List Node
  | .row children => children
  | _ => []

/-- Blanks at the end of the text are in nobody's way. -/
theorem fits_blank {back : List Char} (blank : skipBlanks back = []) (cs : List Char) :
    Fits none back cs := by
  have blanks : ∀ c ∈ back, isBlank c := List.dropWhile_eq_nil_iff.mp blank
  refine { closing := ?_, apart := ?_, unscripted := ?_, sated := ?_ }
  · rintro c ⟨⟩
  · intro c start
    exact .inl (blanks c (List.mem_of_mem_head? start))
  · rw [blank]
    rintro c ⟨⟩
  · rw [blank]
    rintro _ _ _ c ⟨⟩

theorem RowReads.parseRow_append {room : Nat} {cs back : List Char} {nodes : List Node}
    (reads : RowReads room cs nodes) (le : room ≤ maxNesting) (blank : skipBlanks back = []) :
    parseRow (cs ++ back) = nodes := by
  rw [parseRow, reads maxNesting le none back (fits_blank blank cs), Row.prepend,
    AtomReader.row_ended _ blank, List.append_nil]

/-- A text with room enough is read as its row. -/
theorem RowReads.parseRow_eq {room : Nat} {cs : List Char} {nodes : List Node}
    (reads : RowReads room cs nodes) (le : room ≤ maxNesting) : parseRow cs = nodes := by
  have whole : parseRow (cs ++ []) = nodes := reads.parseRow_append le rfl
  rwa [List.append_nil] at whole

/-- **Texts are read one after the other.**  A blank between two texts keeps them apart, if the
brackets of the first match, at most 256 deep, no backslash is in it, and no script mark stands at
the place where they meet. -/
theorem parse_append (first second : String) (nested : wellNested 256 first)
    (sated : ∀ c ∈ lastSolid? first.toList, c ≠ '^' ∧ c ≠ '_')
    (unscripted : ∀ c ∈ firstSolid? second.toList, c ≠ '^' ∧ c ≠ '_') :
    (parse (first ++ " " ++ second)).children =
      (parse first).children ++ (parse second).children := by
  obtain ⟨nodes, reads⟩ := exists_rowReads (formula_of_wellNested nested)
  have blank : skipBlanks (' ' :: second.toList) = skipBlanks second.toList := rfl
  have fits : Fits none (' ' :: second.toList) first.toList := by
    refine { closing := ?_, apart := ?_, unscripted := ?_, sated := ?_ }
    · rintro c ⟨⟩
    · rintro c ⟨⟩
      exact .inl (by decide)
    · intro c start
      rw [blank, head?_skipBlanks] at start
      exact decide_eq_false (not_or.mpr (unscripted c start))
    · intro c last mark
      exact absurd (isMark_iff.mp mark) (not_or.mpr (sated c last))
  have whole := reads maxNesting (Nat.le_refl _) none _ fits
  rw [AtomReader.row_congr _ blank] at whole
  have alone := reads.parseRow_eq (Nat.le_refl _)
  have text : (first ++ " " ++ second).toList = first.toList ++ ' ' :: second.toList := by
    simp [String.toList_append]
  simp only [parse, Node.children, text]
  rw [alone, parseRow, whole]
  rfl

namespace Example

/-- Marks without operands stand inside groups, and what follows the blank could go on with the
number before it and closes brackets that nothing opened. -/
theorem unbalanced_append :
    wellNested 256 "(x_\x7b2^\x7d [^])^3" ∧
      lastSolid? "(x_\x7b2^\x7d [^])^3".toList = some '3' ∧
      firstSolid? ".5)\\sqrt] \x7bk".toList = some '.' ∧
      (parse ("(x_\x7b2^\x7d [^])^3" ++ " " ++ ".5)\\sqrt] \x7bk")).children =
        (parse "(x_\x7b2^\x7d [^])^3").children ++ (parse ".5)\\sqrt] \x7bk").children := by
  have last : lastSolid? "(x_\x7b2^\x7d [^])^3".toList = some '3' := by decide
  have first : firstSolid? ".5)\\sqrt] \x7bk".toList = some '.' := by decide
  refine ⟨by decide, last, first, parse_append _ _ (by decide) ?_ ?_⟩
  · rw [last]
    rintro c ⟨⟩
    decide
  · rw [first]
    rintro c ⟨⟩
    decide

end Example

end Rendition.Math
