/-
# Rendition.Proofs.Text.Balance -- brackets that match

A text is balanced in a pair of brackets if each closing one has an opening one
before it and all are closed at the end.  The check reads the text once and counts
the open brackets (`closesAll`).  A text that closes what is open leaves the rest of
a text in front of which it stands as many open brackets as there were besides
(`closesAll_append`); so a balanced text does not change the count at all.
-/
import Mathlib.Tactic.SplitIfs

namespace Rendition.Text

set_option autoImplicit false

/-- Whether a text closes so many open brackets and all of its own, none before it is open. -/
def closesAll (opener closer : Char) : Nat → List Char → Bool
  | depth, [] => depth = 0
  | depth, c :: cs =>
      if c = opener then closesAll opener closer (depth + 1) cs
      else if c = closer then 0 < depth && closesAll opener closer (depth - 1) cs
      else closesAll opener closer depth cs

/-- Whether the brackets of a text match. -/
def isBalanced (opener closer : Char) (cs : List Char) : Bool := closesAll opener closer 0 cs

variable {opener closer c : Char} {depth : Nat} {cs rest : List Char}

theorem closesAll_other (opens : c ≠ opener) (closes : c ≠ closer) :
    closesAll opener closer depth (c :: cs) = closesAll opener closer depth cs := by
  rw [closesAll, if_neg opens, if_neg closes]

/-- A text that closes so many brackets leaves those that were open besides. -/
theorem closesAll_append (closed : closesAll opener closer depth cs) (more : Nat) :
    closesAll opener closer (depth + more) (cs ++ rest) = closesAll opener closer more rest := by
  induction cs generalizing depth with
  | nil =>
      obtain rfl : depth = 0 := of_decide_eq_true closed
      rw [Nat.zero_add, List.nil_append]
  | cons c cs ih =>
      rw [closesAll] at closed
      rw [List.cons_append, closesAll]
      split_ifs at closed ⊢ with opens closes
      · rw [Nat.add_right_comm]
        exact ih closed
      · rw [Bool.and_eq_true, decide_eq_true_eq] at closed
        obtain ⟨depth, rfl⟩ := Nat.exists_eq_add_of_le' closed.1
        rw [Nat.add_right_comm, decide_eq_true (Nat.succ_pos _), Bool.true_and]
        exact ih closed.2
      · exact ih closed

theorem isBalanced_append (balanced : isBalanced opener closer cs) :
    closesAll opener closer depth (cs ++ rest) = closesAll opener closer depth rest := by
  have whole : closesAll opener closer (0 + depth) (cs ++ rest) = _ :=
    closesAll_append balanced depth
  rwa [Nat.zero_add] at whole

/-- What closes all that is open closes as many brackets as it opens and as were open, and on the
way never more than that. -/
theorem closesAll_iff (apart : opener ≠ closer) :
    closesAll opener closer depth cs ↔ cs.count closer = depth + cs.count opener ∧
      ∀ n, (cs.take n).count closer ≤ depth + (cs.take n).count opener := by
  induction cs generalizing depth with
  | nil => simp [closesAll, eq_comm]
  | cons c cs ih =>
      rw [closesAll, ← Nat.and_forall_add_one]
      simp only [List.take_zero, List.take_succ_cons, List.count_nil, Nat.zero_le, true_and]
      split_ifs with opens closes
      · subst opens
        simp only [ih, List.count_cons_self, List.count_cons_of_ne apart]
        exact and_congr (by omega) (forall_congr' fun n => by omega)
      · subst closes
        simp only [Bool.and_eq_true, decide_eq_true_eq, ih, List.count_cons_self,
          List.count_cons_of_ne opens]
        constructor
        · rintro ⟨positive, total, within⟩
          exact ⟨by omega, fun n => by have here := within n; omega⟩
        · rintro ⟨total, within⟩
          have positive := within 0
          simp only [List.take_zero, List.count_nil] at positive
          exact ⟨by omega, by omega, fun n => by have here := within n; omega⟩
      · simp only [ih, List.count_cons_of_ne opens, List.count_cons_of_ne closes]

/-- Characters that are no brackets may go. -/
theorem closesAll_filter {kept : Char → Bool} (opens : kept opener) (closes : kept closer) :
    closesAll opener closer depth (cs.filter kept) = closesAll opener closer depth cs := by
  induction cs generalizing depth with
  | nil => rfl
  | cons c cs ih =>
      by_cases stays : kept c = true
      · rw [List.filter_cons_of_pos stays, closesAll, closesAll, ih, ih, ih]
      · have other : c ≠ opener ∧ c ≠ closer := by
          constructor <;> rintro rfl <;> contradiction
        rw [List.filter_cons_of_neg stays, closesAll_other other.1 other.2, ih]

end Rendition.Text
