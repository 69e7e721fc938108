/-
# Rendition.Proofs.Math.Arguments -- the arguments of a call

An argument is a text whose parentheses match and which holds no other bracket and no
backslash.  Where one stands inside a call, the parenthesis that ends the call is the
one after it (`closing?_closed`), and the comma that splits two arguments is the one
between them, unless the first holds a comma outside its parentheses
(`splitArguments?_comma`).  The parts into which a comma splits an argument are
arguments again (`of_splitArguments?`), and so they are without the blanks at their
ends (`Argument.trim`).
-/
import Rendition.Math.AsciiMath
import Rendition.Proofs.Math.Context

namespace Rendition.Math

set_option autoImplicit false

open Rendition.Text

/-- Text with matching parentheses, nested so deep at most, and without other brackets and
backslashes. -/
inductive Argument : Nat → List Char → Prop where
  | nil {room : Nat} : Argument room []
  | plain {room : Nat} {c : Char} {cs : List Char} :
      isPlain c → Argument room cs → Argument room (c :: cs)
  | group {room : Nat} {inner cs : List Char} : Argument room inner → Argument (room + 1) cs →
      Argument (room + 1) ('(' :: (inner ++ ')' :: cs))

/-- Whether the parentheses of a text match, at most `limit` deep, and it holds no other bracket
and no backslash. -/
def isArgument (limit : Nat) (text : String) : Bool :=
  wellNested limit text && text.toList.all fun c => !"\\\x7b\x7d[]".toList.contains c

theorem argument_of_formula {room : Nat} {cs : List Char} (formula : Formula room cs)
    (round : ∀ c ∈ cs, c ∉ "\\\x7b\x7d[]".toList) : Argument room cs := by
  induction formula with
  | nil => exact .nil
  | plain plain _ ih =>
      exact .plain plain (ih fun c inside => round c (List.mem_cons_of_mem _ inside))
  | @group room opener closer inner cs bracket _ _ group after =>
      have opens := round opener List.mem_cons_self
      have inside : ∀ c ∈ inner, c ∉ "\\\x7b\x7d[]".toList := fun c at_ => round c (by simp [at_])
      have outside : ∀ c ∈ cs, c ∉ "\\\x7b\x7d[]".toList := fun c at_ => round c (by simp [at_])
      rw [closer?] at bracket
      split_ifs at bracket with brace parenthesis square
      · exact absurd (brace ▸ by decide) opens
      · cases bracket
        subst parenthesis
        exact .group (group inside) (after outside)
      · exact absurd (square ▸ by decide) opens
  | root | fraction => exact absurd (by decide) (round '\\' List.mem_cons_self)

theorem argument_of_isArgument {limit : Nat} {text : String} (argument : isArgument limit text) :
    Argument limit text.toList := by
  rw [isArgument, Bool.and_eq_true, List.all_eq_true] at argument
  obtain ⟨nested, round⟩ := argument
  refine argument_of_formula (formula_of_wellNested nested) fun c inside => ?_
  simpa using round c inside

theorem splitArguments?_open (depth : Nat) (cs : List Char) :
    splitArguments? depth ('(' :: cs) =
      (splitArguments? (depth + 1) cs).map fun (first, second) => ('(' :: first, second) := by
  simp [splitArguments?]

theorem splitArguments?_close (depth : Nat) (cs : List Char) :
    splitArguments? (depth + 1) (')' :: cs) =
      (splitArguments? depth cs).map fun (first, second) => (')' :: first, second) := by
  simp [splitArguments?]

namespace Argument

variable {room : Nat} {cs : List Char}

theorem of_plain_cons {c : Char} (plain : isPlain c) (argument : Argument room (c :: cs)) :
    Argument room cs := by
  cases argument with
  | plain _ rest => exact rest
  | group => exact absurd plain (by decide)

theorem of_plain_append {front : List Char} (plain : ∀ c ∈ front, isPlain c)
    (argument : Argument room (front ++ cs)) : Argument room cs := by
  induction front with
  | nil => exact argument
  | cons c front ih =>
      obtain ⟨first, others⟩ := List.forall_mem_cons.mp plain
      exact ih others (argument.of_plain_cons first)

/-- Two arguments after another make one. -/
theorem append {others : List Char} (argument : Argument room cs)
    (following : Argument room others) : Argument room (cs ++ others) := by
  induction argument with
  | nil => exact following
  | plain plain _ ih => exact .plain plain (ih following)
  | group inside _ _ ih =>
      rw [List.cons_append, List.append_assoc, List.cons_append]
      exact .group inside (ih following)

/-- Inside an argument no parenthesis is closed that was opened before it. -/
theorem closing?_append (argument : Argument room cs) (depth : Nat) (rest : List Char) :
    closing? depth (cs ++ rest) =
      (closing? depth rest).map fun (inside, after) => (cs ++ inside, after) := by
  induction argument generalizing depth rest with
  | nil => simp
  | @plain _ c cs plain _ ih =>
      have opens : c ≠ '(' := ne_of_isPlain plain (by decide)
      have closes : c ≠ ')' := ne_of_isPlain plain (by decide)
      simp only [List.cons_append, closing?, if_neg opens, if_neg closes, ih]
      cases closing? depth rest <;> rfl
  | @group _ inner cs _ _ inside after =>
      simp only [List.cons_append, List.append_assoc, closing?, if_pos, inside,
        if_neg (by decide : ')' ≠ '('), after]
      cases closing? depth rest <;> simp

/-- The argument ends at the parenthesis after it. -/
theorem closing?_closed (argument : Argument room cs) (rest : List Char) :
    closing? 0 (cs ++ ')' :: rest) = some (cs, rest) := by
  rw [argument.closing?_append]
  simp [closing?]

theorem count_eq (argument : Argument room cs) : cs.count '(' = cs.count ')' := by
  induction argument with
  | nil => rfl
  | @plain _ c cs plain _ ih =>
      have opens : c ≠ '(' := ne_of_isPlain plain (by decide)
      have closes : c ≠ ')' := ne_of_isPlain plain (by decide)
      simp [opens, closes, ih]
  | group _ _ inside after => simp [inside, after]; omega

/-- Inside parentheses no comma of an argument splits. -/
theorem splitArguments?_append (argument : Argument room cs) (depth : Nat) (rest : List Char) :
    splitArguments? (depth + 1) (cs ++ rest) =
      (splitArguments? (depth + 1) rest).map fun (first, second) => (cs ++ first, second) := by
  induction argument generalizing depth rest with
  | nil => simp
  | @plain _ c cs plain _ ih =>
      have opens : c ≠ '(' := ne_of_isPlain plain (by decide)
      have closes : c ≠ ')' := ne_of_isPlain plain (by decide)
      simp only [List.cons_append, splitArguments?, if_neg opens, if_neg closes, ih]
      cases splitArguments? (depth + 1) rest <;> simp
  | group _ _ inside after =>
      rw [List.cons_append, List.append_assoc, List.cons_append, splitArguments?_open, inside,
        splitArguments?_close, after]
      cases splitArguments? (depth + 1) rest <;> simp

/-- A group in parentheses is passed over when arguments are split. -/
theorem splitArguments?_group {inner : List Char} (argument : Argument room inner)
    (rest : List Char) :
    splitArguments? 0 ('(' :: (inner ++ ')' :: rest)) =
      (splitArguments? 0 rest).map fun (first, second) =>
        ('(' :: (inner ++ ')' :: first), second) := by
  rw [splitArguments?_open, argument.splitArguments?_append, splitArguments?_close]
  cases splitArguments? 0 rest <;> rfl

/-- The arguments on both sides of the comma that splits are arguments. -/
theorem of_splitArguments? (argument : Argument room cs) {first second : List Char}
    (split : splitArguments? 0 cs = some (first, second)) :
    Argument room first ∧ Argument room second ∧ cs = first ++ ',' :: second := by
  induction argument generalizing first with
  | nil => simp [splitArguments?] at split
  | @plain _ c cs plain rest ih =>
      have opens : c ≠ '(' := ne_of_isPlain plain (by decide)
      have closes : c ≠ ')' := ne_of_isPlain plain (by decide)
      by_cases comma : c = ','
      · subst comma
        simp only [splitArguments?, and_self, ↓reduceIte, Option.some.injEq, Prod.mk.injEq] at split
        obtain ⟨rfl, rfl⟩ := split
        exact ⟨.nil, rest, rfl⟩
      · simp only [splitArguments?, comma, opens, closes, false_and, ↓reduceIte,
          Option.map_eq_some_iff, Prod.mk.injEq, Prod.exists] at split
        obtain ⟨first, _, found, rfl, rfl⟩ := split
        obtain ⟨front, back, rfl⟩ := ih found
        exact ⟨.plain plain front, back, rfl⟩
  | @group _ inner cs inside _ _ ih =>
      rw [inside.splitArguments?_group] at split
      simp only [Option.map_eq_some_iff, Prod.mk.injEq, Prod.exists] at split
      obtain ⟨first, _, found, rfl, rfl⟩ := split
      obtain ⟨front, back, rfl⟩ := ih found
      exact ⟨.group inside front, back, by simp⟩

/-- A comma splits if before every comma of the first argument a parenthesis is open. -/
theorem splitArguments?_comma (argument : Argument room cs)
    (joined : ∀ before after, cs = before ++ ',' :: after → before.count ')' < before.count '(')
    (rest : List Char) : splitArguments? 0 (cs ++ ',' :: rest) = some (cs, rest) := by
  induction argument with
  | nil => rfl
  | @plain _ c cs plain _ ih =>
      have opens : c ≠ '(' := ne_of_isPlain plain (by decide)
      have closes : c ≠ ')' := ne_of_isPlain plain (by decide)
      have comma : c ≠ ',' := by
        rintro rfl
        exact absurd (joined [] cs rfl) (by decide)
      have found := ih fun before after same => by
        simpa [opens, closes] using joined (c :: before) after (by rw [same]; rfl)
      simp only [List.cons_append, splitArguments?, comma, opens, closes, false_and, ↓reduceIte,
        found, Option.map_some]
  | @group _ inner cs inside _ _ ih =>
      have found := ih fun before after same => by
        have more := joined ('(' :: (inner ++ ')' :: before)) after (by simp [same])
        simp only [List.count_cons, List.count_append, inside.count_eq, beq_self_eq_true] at more
        simp at more
        omega
      rw [List.cons_append, List.append_assoc, List.cons_append, inside.splitArguments?_group,
        found]
      rfl

/-! ### Blanks -/

theorem of_skipBlanks (argument : Argument room cs) : Argument room (skipBlanks cs) := by
  have blank : ∀ c ∈ cs.takeWhile isBlank, isBlank c := List.all_eq_true.mp List.all_takeWhile
  refine of_plain_append (fun c inside => isPlain_of_isBlank (blank c inside)) ?_
  rwa [skipBlanks, List.takeWhile_append_dropWhile]

end Argument

theorem Argument.of_dropTrailingBlanks {room : Nat} {cs : List Char}
    (argument : Argument room cs) : Argument room (dropTrailingBlanks cs) := by
  induction argument with
  | nil => exact .nil
  | @plain _ c cs plain _ ih =>
      rw [dropTrailingBlanks]
      cases kept : dropTrailingBlanks cs with
      | nil =>
          by_cases first : isBlank c = true
          · simpa [first] using .nil
          · simpa [first] using .plain plain .nil
      | cons d rest => exact .plain plain (kept ▸ ih)
  | @group _ inner cs inside _ _ ih =>
      have whole := dropTrailingBlanks_append_of_solid ('(' :: inner) (c := ')') cs (by decide)
      rw [List.cons_append] at whole
      rw [whole]
      exact .group inside ih

theorem Argument.trim {room : Nat} {cs : List Char} (argument : Argument room cs) :
    Argument room (trim cs) :=
  argument.of_skipBlanks.of_dropTrailingBlanks

end Rendition.Math
