/-
# Rendition.Proofs.Math.Matching -- counting the parentheses of a call

The end of a call and the comma between its arguments are found by counting: an
opening parenthesis counts up, a closing one down.  Here the counter is a number that
cannot go below zero (`scan`), and a scan that would take it there ends in
`underflow`.  None does: from an opening parenthesis on the counter is positive until
the scan ends, and the arguments of a call are balanced, so that between them no more
is closed than was opened.  The scans find what the readers of calls find
(`scan_endsCall`, `scan_splitsCall`).

Said without a counter, a call ends at the first position up to which as many
parentheses are closed as are opened (`isLeast_evenPositions`).
-/
import Mathlib.Order.Bounds.Basic
import Rendition.Proofs.Math.Extent
import Rendition.Proofs.Text.Blank

namespace Rendition.Math

set_option autoImplicit false

open Rendition.Text

/-! ## Scans with a counter -/

/-- How a scan ends: at a position, at the end of the text, or where a parenthesis is closed while
the counter is zero. -/
inductive Scan where
  | found (position : Nat)
  | missing
  | underflow

/-- Whether a character ends the call whose opening parenthesis was counted first. -/
def endsCall (c : Char) (depth : Nat) : Bool := c = ')' ∧ depth = 1

/-- Whether a character splits the arguments of a call. -/
def splitsCall (c : Char) (depth : Nat) : Bool := c = ',' ∧ depth = 0

/-- The scan of a text that begins at a position, with so many parentheses open, up to a character
at which it stops. -/
def scan (stops : Char → Nat → Bool) (depth position : Nat) : List Char → Scan
  | [] => .missing
  | c :: cs =>
      if stops c depth then .found position
      else if c = ')' ∧ depth = 0 then .underflow
      else scan stops (depthAfter depth c) (position + 1) cs

/-- The parenthesis that ends the call whose opening parenthesis is at a position. -/
def matching (cs : List Char) (opening : Nat) : Scan := scan endsCall 0 opening (cs.drop opening)

/-- The end of a scan that finds the end of the first part of a split. -/
def Scan.ofSplit (position : Nat) : Option (List Char × List Char) → Scan
  | some (front, _) => .found (position + front.length)
  | none => .missing

theorem Scan.ofSplit_map (position : Nat) (c : Char) (split : Option (List Char × List Char)) :
    ofSplit position (split.map fun (front, back) => (c :: front, back)) =
      ofSplit (position + 1) split := by
  cases split with
  | none => rfl
  | some parts => exact congrArg Scan.found (by rw [List.length_cons]; omega)

theorem depthAfter_succ {depth : Nat} {c : Char} (within : ¬(c = ')' ∧ depth = 0)) :
    depthAfter (depth + 1) c = depthAfter depth c + 1 := by
  rw [depthAfter, depthAfter]
  split_ifs with opens closes
  · rfl
  · have positive : depth ≠ 0 := fun zero => within ⟨closes, zero⟩
    omega
  · rfl

/-- Once a parenthesis is open the counter stays above zero up to the one that closes it. -/
theorem scan_endsCall (depth position : Nat) (cs : List Char) :
    scan endsCall (depth + 1) position cs = .ofSplit position (closing? depth cs) := by
  induction cs generalizing depth position with
  | nil => rfl
  | cons c cs ih =>
      rw [scan]
      by_cases ends : c = ')' ∧ depth = 0
      · obtain ⟨rfl, rfl⟩ := ends
        rfl
      · have goes : endsCall c (depth + 1) = false := by simpa [endsCall] using ends
        rw [goes, if_neg Bool.false_ne_true, if_neg (by simp), depthAfter_succ ends, ih,
          closing?_cons ends, Scan.ofSplit_map]

/-- In a balanced text no parenthesis is closed at zero. -/
theorem scan_splitsCall {depth : Nat} (position : Nat) {cs : List Char}
    (closed : closesAll '(' ')' depth cs) :
    scan splitsCall depth position cs = .ofSplit position (splitArguments? depth cs) := by
  induction cs generalizing depth position with
  | nil => rfl
  | cons c cs ih =>
      obtain ⟨within, closed⟩ := closesAll_cons_iff.mp closed
      rw [scan]
      by_cases splits : c = ',' ∧ depth = 0
      · obtain ⟨rfl, rfl⟩ := splits
        rfl
      · have goes : splitsCall c depth = false := by simpa [splitsCall] using splits
        rw [goes, if_neg Bool.false_ne_true, if_neg within, ih _ closed,
          splitArguments?_cons splits, Scan.ofSplit_map]

/-! ## Counts -/

/-- The characters from one position to another, both included. -/
def extent (cs : List Char) (first last : Nat) : List Char :=
  (cs.drop first).take (last + 1 - first)

/-- The positions after an opening parenthesis up to which as many parentheses are closed as are
opened, itself included. -/
def evenPositions (cs : List Char) (opening : Nat) : Set Nat :=
  { last | opening < last ∧ last < cs.length ∧
    (extent cs opening last).count '(' = (extent cs opening last).count ')' }

variable {cs tail : List Char} {opening : Nat}

/-- An even position, said of the text behind the opening parenthesis. -/
theorem mem_evenPositions_iff (opens : cs.drop opening = '(' :: tail) (n : Nat) :
    opening + 1 + n ∈ evenPositions cs opening ↔
      n < tail.length ∧ (tail.take (n + 1)).count ')' = (tail.take (n + 1)).count '(' + 1 := by
  have inside : extent cs opening (opening + 1 + n) = '(' :: tail.take (n + 1) := by
    rw [extent, opens, show opening + 1 + n + 1 - opening = (n + 1) + 1 by omega,
      List.take_succ_cons]
  have length := congrArg List.length opens
  rw [List.length_drop, List.length_cons] at length
  rw [evenPositions, Set.mem_ofPred_eq, inside, List.count_cons_self,
    List.count_cons_of_ne (by decide), and_iff_right (by omega)]
  exact and_congr (by omega) eq_comm

/-- What a character adds to the counter is what it adds to the counts. -/
theorem depthAfter_add_count {depth : Nat} {c : Char} (within : ¬(c = ')' ∧ depth = 0))
    (front : List Char) :
    depthAfter depth c + (c :: front).count ')' + front.count '(' =
      depth + (c :: front).count '(' + front.count ')' := by
  rw [depthAfter]
  split_ifs with opens closes
  · subst opens
    rw [List.count_cons_self, List.count_cons_of_ne (by decide)]
    omega
  · subst closes
    have positive : depth ≠ 0 := fun zero => within ⟨rfl, zero⟩
    rw [List.count_cons_self, List.count_cons_of_ne (by decide)]
    omega
  · rw [List.count_cons_of_ne opens, List.count_cons_of_ne closes]
    omega

/-- A call without an end closes nowhere as many parentheses as it opens. -/
theorem count_le_of_closing?_eq_none {depth : Nat} (unclosed : closing? depth cs = none) (n : Nat) :
    (cs.take n).count ')' ≤ depth + (cs.take n).count '(' := by
  induction cs generalizing depth n with
  | nil => simp
  | cons c cs ih =>
      cases n with
      | zero => simp
      | succ n =>
          have within : ¬(c = ')' ∧ depth = 0) := by
            rintro ⟨rfl, rfl⟩
            cases unclosed
          rw [closing?_cons within, Option.map_eq_none_iff] at unclosed
          have later := ih unclosed n
          have counts := depthAfter_add_count within (cs.take n)
          rw [List.take_succ_cons]
          omega

/-- A call ends at the first position up to which it closes as many parentheses as it opens. -/
theorem isLeast_evenPositions {inside rest : List Char} (opens : cs.drop opening = '(' :: tail)
    (found : closing? 0 tail = some (inside, rest)) :
    IsLeast (evenPositions cs opening) (opening + 1 + inside.length) := by
  obtain ⟨rfl, closed⟩ := closing?_eq_some found
  obtain ⟨total, within⟩ := (closesAll_iff (by decide)).mp closed
  refine ⟨(mem_evenPositions_iff opens _).mpr ?_, fun last even => ?_⟩
  · rw [List.take_length_add_append]
    simp
    omega
  · obtain ⟨n, rfl⟩ := Nat.exists_eq_add_of_le even.1
    obtain ⟨-, even⟩ := (mem_evenPositions_iff opens n).mp even
    by_contra before
    have early : n + 1 ≤ inside.length := by omega
    have here := within (n + 1)
    rw [List.take_append_of_le_length early] at even
    omega

/-- A call that does not end has no even position. -/
theorem evenPositions_eq_empty (opens : cs.drop opening = '(' :: tail)
    (unclosed : closing? 0 tail = none) : evenPositions cs opening = ∅ := by
  refine Set.eq_empty_of_forall_notMem fun last even => ?_
  obtain ⟨n, rfl⟩ := Nat.exists_eq_add_of_le even.1
  obtain ⟨-, even⟩ := (mem_evenPositions_iff opens n).mp even
  have here := count_le_of_closing?_eq_none unclosed (n + 1)
  omega

/-- In a balanced text that no comma splits, a parenthesis is open before every comma. -/
theorem count_lt_of_splitArguments?_eq_none {depth : Nat} {before after : List Char}
    (unsplit : splitArguments? depth (before ++ ',' :: after) = none)
    (closed : closesAll '(' ')' depth (before ++ ',' :: after)) :
    before.count ')' < depth + before.count '(' := by
  induction before generalizing depth with
  | nil =>
      have positive : depth ≠ 0 := by
        rintro rfl
        cases unsplit
      simpa [Nat.pos_iff_ne_zero] using positive
  | cons c before ih =>
      rw [List.cons_append] at unsplit closed
      obtain ⟨within, closed⟩ := closesAll_cons_iff.mp closed
      have comma : ¬(c = ',' ∧ depth = 0) := by
        rintro ⟨rfl, rfl⟩
        cases unsplit
      rw [splitArguments?_cons comma, Option.map_eq_none_iff] at unsplit
      have later := ih unsplit closed
      have counts := depthAfter_add_count within before
      omega

/-- Blanks at the ends of a text are no part of its balance. -/
theorem isBalanced_trim (text : List Char) :
    isBalanced '(' ')' (trim text) = isBalanced '(' ')' text := by
  have solid (cs : List Char) :
      isBalanced '(' ')' (cs.filter fun c => !isBlank c) = isBalanced '(' ')' cs :=
    closesAll_filter (by decide) (by decide)
  rw [← solid (trim text), filter_trim, solid]

/-! ## Calls -/

theorem exists_drop_eq (opens : cs[opening]? = some '(') :
    ∃ tail, cs.drop opening = '(' :: tail ∧ cs.drop (opening + 1) = tail := by
  obtain ⟨here, same⟩ := List.getElem?_eq_some_iff.mp opens
  exact ⟨_, same ▸ List.drop_eq_getElem_cons here, rfl⟩

/-- From an opening parenthesis on the counter does not underflow: the scan finds the end of the
call that is read there. -/
theorem matching_eq_ofSplit (opens : cs[opening]? = some '(') :
    matching cs opening = .ofSplit (opening + 1) (closing? 0 (cs.drop (opening + 1))) := by
  obtain ⟨tail, same, rfl⟩ := exists_drop_eq opens
  rw [matching, same]
  exact scan_endsCall 0 (opening + 1) _

/-- The scan stops at the first even position. -/
theorem matching_eq_found_iff (opens : cs[opening]? = some '(') (ending : Nat) :
    matching cs opening = .found ending ↔ IsLeast (evenPositions cs opening) ending := by
  obtain ⟨tail, same, rest⟩ := exists_drop_eq opens
  rw [matching_eq_ofSplit opens, rest]
  cases found : closing? 0 tail with
  | none =>
      rw [evenPositions_eq_empty same found]
      exact ⟨nofun, fun least => absurd least.1 (Set.notMem_empty ending)⟩
  | some parts =>
      obtain ⟨inside, after⟩ := parts
      have least := isLeast_evenPositions same found
      rw [Scan.ofSplit, Scan.found.injEq]
      exact ⟨fun same => same ▸ least, fun other => least.unique other⟩

/-- The scan finds no end if and only if there is no even position. -/
theorem matching_eq_missing_iff (opens : cs[opening]? = some '(') :
    matching cs opening = .missing ↔ evenPositions cs opening = ∅ := by
  obtain ⟨tail, same, rest⟩ := exists_drop_eq opens
  rw [matching_eq_ofSplit opens, rest]
  cases found : closing? 0 tail with
  | none => exact ⟨fun _ => evenPositions_eq_empty same found, fun _ => rfl⟩
  | some parts =>
      have least := isLeast_evenPositions same found
      exact ⟨nofun, fun empty => absurd (empty ▸ least.1) (Set.notMem_empty _)⟩

/-- A text that begins with the call of a fraction: what is written around the comma of its
arguments, where the scans end, and what the arguments are. -/
structure IsFractionCall (cs first second numerator denominator rest : List Char) : Prop where
  written : cs = "frac(".toList ++ (first ++ ',' :: second) ++ ')' :: rest
  ends : matching cs 4 = .found (5 + (first ++ ',' :: second).length)
  splits : scan splitsCall 0 0 (first ++ ',' :: second) = .found first.length
  /-- The comma stands outside all parentheses. -/
  outside : first.count ')' = first.count '('
  /-- Every comma before it stands inside some. -/
  inside : ∀ before after, first = before ++ ',' :: after → before.count ')' < before.count '('
  numerator_eq : numerator = trim first
  denominator_eq : denominator = trim second
  numerator_balanced : isBalanced '(' ')' numerator
  denominator_balanced : isBalanced '(' ')' denominator

/-- A fraction that is read stands in the text with its comma and its parenthesis. -/
theorem exists_isFractionCall {numerator denominator rest : List Char}
    (found : readCall? cs = some (.frac numerator denominator, rest)) :
    ∃ first second, IsFractionCall cs first second numerator denominator rest := by
  unfold readCall? at found
  split at found
  · obtain ⟨_, -, same⟩ := Option.bind_eq_some_iff.mp found
    cases same
  · rename_i tail
    obtain ⟨⟨arguments, _⟩, ended, found⟩ := Option.bind_eq_some_iff.mp found
    obtain ⟨⟨first, second⟩, split, same⟩ := Option.bind_eq_some_iff.mp found
    cases same
    have ends : matching ('f' :: 'r' :: 'a' :: 'c' :: '(' :: tail) 4 =
        .ofSplit 5 (closing? 0 tail) := matching_eq_ofSplit rfl
    obtain ⟨written, closed⟩ := closing?_eq_some ended
    have splits := scan_splitsCall 0 closed
    obtain ⟨rfl, above, below, single⟩ := splitArguments?_eq_some split closed
    rw [ended] at ends
    rw [split, Scan.ofSplit, Nat.zero_add] at splits
    refine ⟨first, second, ?_, ends, splits, ?_, ?_, rfl, rfl, ?_, ?_⟩
    · rw [written]
      rfl
    · simpa using ((closesAll_iff (by decide)).mp above).1
    · rintro before after rfl
      simpa using count_lt_of_splitArguments?_eq_none single above
    · exact (isBalanced_trim first).trans above
    · exact (isBalanced_trim second).trans below
  · cases found

/-- **The extents of calls are balanced.**  From any opening parenthesis on the counter does not
underflow, and the scan finds the first position up to which as many parentheses are closed as are
opened, or nothing if there is none.  In the arguments of every call of a fraction the scan for the
comma does not underflow either; the comma that it finds is the first outside all parentheses, and
both arguments are balanced. -/
theorem extents_balanced (cs : List Char) :
    (∀ opening, cs[opening]? = some '(' →
      matching cs opening = .ofSplit (opening + 1) (closing? 0 (cs.drop (opening + 1))) ∧
        matching cs opening ≠ .underflow ∧
        (∀ ending, matching cs opening = .found ending ↔
          IsLeast (evenPositions cs opening) ending) ∧
        (matching cs opening = .missing ↔ evenPositions cs opening = ∅)) ∧
      ∀ numerator denominator rest, readCall? cs = some (.frac numerator denominator, rest) →
        ∃ first second, IsFractionCall cs first second numerator denominator rest := by
  refine ⟨fun opening opens => ⟨matching_eq_ofSplit opens, ?_, matching_eq_found_iff opens,
    matching_eq_missing_iff opens⟩, fun numerator denominator rest => exists_isFractionCall⟩
  rw [matching_eq_ofSplit opens]
  cases closing? 0 (cs.drop (opening + 1)) <;> exact nofun

namespace Example

/-- A fraction with a comma and blanks in its arguments. -/
def pairOver : List Char := "frac((a,b) , c)+d".toList

theorem pairOver_extents :
    pairOver[4]? = some '(' ∧ matching pairOver 4 = .found 14 ∧
      IsLeast (evenPositions pairOver 4) 14 ∧
      readCall? pairOver = some (.frac "(a,b)".toList "c".toList, "+d".toList) ∧
      ∃ first second,
        IsFractionCall pairOver first second "(a,b)".toList "c".toList "+d".toList := by
  have opens : pairOver[4]? = some '(' := by cbv
  have found : matching pairOver 4 = .found 14 := by cbv
  have read : readCall? pairOver = some (.frac "(a,b)".toList "c".toList, "+d".toList) := by cbv
  obtain ⟨ends, calls⟩ := extents_balanced pairOver
  exact ⟨opens, found, ((ends 4 opens).2.2.1 14).mp found, read, calls _ _ _ read⟩

end Example

end Rendition.Math
