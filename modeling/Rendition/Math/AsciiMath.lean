/-
# Rendition.Math.AsciiMath -- calls expanded to commands

Two calls of the AsciiMath notation have a command of their own:

    sqrt(x)     becomes  \sqrt{x}
    frac(a, b)  becomes  \frac{a}{b}

A call ends at the parenthesis that balances its own; the comma that splits the
arguments of `frac` is the first outside inner parentheses, and the blanks
around each argument go.  A call without its closing parenthesis, or a `frac`
without a comma, is no call.  Arguments are expanded in turn, down to the depth
to which expressions are read; everything else is copied.
-/
import Rendition.Math.Parse

namespace Rendition.Math

set_option autoImplicit false
set_option linter.unusedVariables false

open Rendition.Text

/-- The text up to the parenthesis that closes `depth + 1` open ones, and the text after it. -/
def closing? (depth : Nat) : List Char → Option (List Char × List Char)
  | [] => none
  | c :: cs =>
      if c = '(' then (closing? (depth + 1) cs).map fun (inside, rest) => (c :: inside, rest)
      else if c = ')' then
        match depth with
        | 0 => some ([], cs)
        | depth + 1 => (closing? depth cs).map fun (inside, rest) => (c :: inside, rest)
      else (closing? depth cs).map fun (inside, rest) => (c :: inside, rest)

/-- The texts before and after the first comma outside parentheses. -/
def splitArguments? (depth : Nat) : List Char → Option (List Char × List Char)
  | [] => none
  | c :: cs =>
      if c = ',' ∧ depth = 0 then some ([], cs)
      else
        let depth := if c = '(' then depth + 1 else if c = ')' then depth - 1 else depth
        (splitArguments? depth cs).map fun (first, second) => (c :: first, second)

inductive Call where
  | sqrt (argument : List Char)
  | frac (numerator denominator : List Char)

/-- The call at the start of a text, and the text after it. -/
def readCall? : List Char → Option (Call × List Char)
  | 's' :: 'q' :: 'r' :: 't' :: '(' :: cs => do
      let (argument, rest) ← closing? 0 cs
      return (.sqrt argument, rest)
  | 'f' :: 'r' :: 'a' :: 'c' :: '(' :: cs => do
      let (arguments, rest) ← closing? 0 cs
      let (numerator, denominator) ← splitArguments? 0 arguments
      return (.frac (trim numerator) (trim denominator), rest)
  | _ => none

theorem length_of_closing? {depth : Nat} {cs inside rest : List Char}
    (closed : closing? depth cs = some (inside, rest)) :
    inside.length + rest.length < cs.length := by
  induction cs generalizing depth inside with
  | nil => simp [closing?] at closed
  | cons c cs ih =>
      simp only [closing?] at closed
      split at closed
      · simp only [Option.map_eq_some_iff, Prod.mk.injEq, Prod.exists] at closed
        obtain ⟨_, _, found, rfl, rfl⟩ := closed
        have shorter := ih found
        simp only [List.length_cons]; omega
      · split at closed
        · split at closed
          · cases closed; simp
          · simp only [Option.map_eq_some_iff, Prod.mk.injEq, Prod.exists] at closed
            obtain ⟨_, _, found, rfl, rfl⟩ := closed
            have shorter := ih found
            simp only [List.length_cons]; omega
        · simp only [Option.map_eq_some_iff, Prod.mk.injEq, Prod.exists] at closed
          obtain ⟨_, _, found, rfl, rfl⟩ := closed
          have shorter := ih found
          simp only [List.length_cons]; omega

/-- What follows a call is shorter than what begins with it. -/
theorem length_of_readCall? {cs rest : List Char} {call : Call}
    (found : readCall? cs = some (call, rest)) : rest.length < cs.length := by
  unfold readCall? at found
  split at found
  · simp only [Option.bind_eq_bind, Option.bind_eq_some_iff, Prod.exists] at found
    obtain ⟨argument, after, closed, same⟩ := found
    cases same
    have shorter := length_of_closing? closed
    simp only [List.length_cons]; omega
  · simp only [Option.bind_eq_bind, Option.bind_eq_some_iff, Prod.exists] at found
    obtain ⟨arguments, after, closed, numerator, denominator, split, same⟩ := found
    cases same
    have shorter := length_of_closing? closed
    simp only [List.length_cons]; omega
  · simp at found

/-- A call as a command, its arguments expanded by `inner`. -/
def Call.command (inner : List Char → List Char) : Call → List Char
  | .sqrt argument => "\\sqrt\x7b".toList ++ inner argument ++ ['\x7d']
  | .frac numerator denominator =>
      "\\frac\x7b".toList ++ inner numerator ++ "\x7d\x7b".toList ++ inner denominator ++ ['\x7d']

/-- The text with its outermost calls expanded, and their arguments by `inner`. -/
def expandCalls (inner : List Char → List Char) (cs : List Char) : List Char :=
  match found : readCall? cs with
  | some (call, rest) => call.command inner ++ expandCalls inner rest
  | none =>
      match cs with
      | [] => []
      | c :: rest => c :: expandCalls inner rest
termination_by cs.length
decreasing_by
  · exact length_of_readCall? found
  · simp

/-- The text with its calls expanded that are nested up to `room` levels. -/
def expandNested : Nat → List Char → List Char
  | 0, cs => cs
  | room + 1, cs => expandCalls (expandNested room) cs

/-- An AsciiMath expression in the grammar of `parse`. -/
def ofAsciiMath (source : String) : String :=
  String.ofList (expandNested maxNesting source.toList)

end Rendition.Math
