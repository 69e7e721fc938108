/-
# Rendition.Proofs.Math.Extent -- where a call and its arguments end

The text up to the parenthesis that ends a call closes exactly the parentheses that
were open (`closing?_eq_some`), so the arguments of a call are balanced.  The comma
that splits the arguments of a fraction leaves both balanced, and no comma before it
stands outside parentheses (`splitArguments?_eq_some`).  Together: a text begins with
a call only as that call is written (`readCall?_eq_some`).
-/
import Mathlib.Tactic.SplitIfs
import Rendition.Proofs.Math.Calls
import Rendition.Proofs.Text.Balance

namespace Rendition.Math

set_option autoImplicit false

open Rendition.Text

/-- How many parentheses are open after a character; a closing one too many is passed over. -/
def depthAfter (depth : Nat) (c : Char) : Nat :=
  if c = '(' then depth + 1 else if c = ')' then depth - 1 else depth

theorem closing?_cons {depth : Nat} {c : Char} (within : ¬(c = ')' ∧ depth = 0)) (cs : List Char) :
    closing? depth (c :: cs) =
      (closing? (depthAfter depth c) cs).map fun (inside, rest) => (c :: inside, rest) := by
  simp only [closing?, depthAfter]
  split_ifs with opens closes
  · rfl
  · cases depth with
    | zero => exact absurd ⟨closes, rfl⟩ within
    | succ depth => rfl
  · rfl

theorem splitArguments?_cons {depth : Nat} {c : Char} (within : ¬(c = ',' ∧ depth = 0))
    (cs : List Char) :
    splitArguments? depth (c :: cs) =
      (splitArguments? (depthAfter depth c) cs).map
        fun (first, second) => (c :: first, second) := by
  rw [splitArguments?, if_neg within]
  rfl

/-- A text that closes what is open begins with no closing parenthesis too many. -/
theorem closesAll_cons_iff {depth : Nat} {c : Char} {cs : List Char} :
    closesAll '(' ')' depth (c :: cs) ↔
      ¬(c = ')' ∧ depth = 0) ∧ closesAll '(' ')' (depthAfter depth c) cs := by
  rw [closesAll, depthAfter]
  split_ifs with opens closes
  · simp [opens]
  · simp [closes, Nat.pos_iff_ne_zero]
  · simp [closes]

/-- What stands before the parenthesis that ends a call closes all that was open but the call. -/
theorem closing?_eq_some {depth : Nat} {cs inside rest : List Char}
    (found : closing? depth cs = some (inside, rest)) :
    cs = inside ++ ')' :: rest ∧ closesAll '(' ')' depth inside := by
  induction cs generalizing depth inside with
  | nil => cases found
  | cons c cs ih =>
      by_cases ends : c = ')' ∧ depth = 0
      · obtain ⟨rfl, rfl⟩ := ends
        cases found
        exact ⟨rfl, rfl⟩
      · rw [closing?_cons ends] at found
        obtain ⟨⟨inside, after⟩, further, same⟩ := Option.map_eq_some_iff.mp found
        cases same
        obtain ⟨rfl, closed⟩ := ih further
        exact ⟨rfl, closesAll_cons_iff.mpr ⟨ends, closed⟩⟩

/-- The comma that splits a balanced text stands outside its parentheses, and none before it
does. -/
theorem splitArguments?_eq_some {depth : Nat} {cs first second : List Char}
    (split : splitArguments? depth cs = some (first, second))
    (closed : closesAll '(' ')' depth cs) :
    cs = first ++ ',' :: second ∧ closesAll '(' ')' depth first ∧ isBalanced '(' ')' second ∧
      splitArguments? depth first = none := by
  induction cs generalizing depth first with
  | nil => cases split
  | cons c cs ih =>
      by_cases comma : c = ',' ∧ depth = 0
      · rw [splitArguments?, if_pos comma] at split
        obtain ⟨rfl, rfl⟩ := comma
        cases split
        exact ⟨rfl, rfl, closed, rfl⟩
      · rw [splitArguments?_cons comma] at split
        obtain ⟨⟨first, after⟩, further, same⟩ := Option.map_eq_some_iff.mp split
        cases same
        obtain ⟨paired, closed⟩ := closesAll_cons_iff.mp closed
        obtain ⟨rfl, front, back, unsplit⟩ := ih further closed
        refine ⟨rfl, closesAll_cons_iff.mpr ⟨paired, front⟩, back, ?_⟩
        rw [splitArguments?_cons comma, unsplit]
        rfl

/-- The text of a call with these arguments. -/
inductive Spelled : Call → List Char → Prop where
  | sqrt {argument : List Char} : isBalanced '(' ')' argument →
      Spelled (.sqrt argument) ("sqrt(".toList ++ (argument ++ [')']))
  | frac {numerator denominator : List Char} : isBalanced '(' ')' numerator →
      isBalanced '(' ')' denominator → splitArguments? 0 numerator = none →
      Spelled (.frac (trim numerator) (trim denominator))
        ("frac(".toList ++ (numerator ++ ',' :: (denominator ++ [')'])))

/-- A text that begins with a call. -/
theorem readCall?_eq_some {cs rest : List Char} {call : Call}
    (found : readCall? cs = some (call, rest)) :
    ∃ front, Spelled call front ∧ cs = front ++ rest := by
  unfold readCall? at found
  split at found
  · rename_i tail
    obtain ⟨⟨argument, after⟩, closed, same⟩ := Option.bind_eq_some_iff.mp found
    cases same
    obtain ⟨rfl, balanced⟩ := closing?_eq_some closed
    exact ⟨_, .sqrt balanced, by simp⟩
  · rename_i tail
    obtain ⟨⟨arguments, after⟩, closed, found⟩ := Option.bind_eq_some_iff.mp found
    obtain ⟨⟨numerator, denominator⟩, split, same⟩ := Option.bind_eq_some_iff.mp found
    cases same
    obtain ⟨rfl, balanced⟩ := closing?_eq_some closed
    obtain ⟨rfl, above, below, unsplit⟩ := splitArguments?_eq_some split balanced
    exact ⟨_, .frac above below unsplit, by simp⟩
  · cases found

end Rendition.Math
