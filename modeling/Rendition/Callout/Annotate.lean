/-
# Rendition.Callout.Annotate -- callouts in the text of a listing

A mark is a run of decimal digits in angle brackets.  A mark whose number the
bundle has is replaced by markup that carries the id of the callout; all other
text, marks of other numbers included, is escaped as listing text.
-/
import Rendition.Callout.Bundle
import Rendition.Markup.Backend

namespace Rendition.Callout

set_option autoImplicit false
set_option linter.unusedVariables false

open Rendition.Text Rendition.Markup

/-- A stretch of a listing: one character, or a mark with its number. -/
inductive Piece where
  | char (c : Char)
  | mark (ordinal : Nat)

/-- The digits of the mark at the start of a text, and the text after it. -/
def readMark? : List Char → Option (List Char × List Char)
  | '<' :: cs =>
      let digits := cs.takeWhile isDecimalDigit
      match cs.dropWhile isDecimalDigit with
      | '>' :: rest => if digits.isEmpty then none else some (digits, rest)
      | _ => none
  | _ => none

/-- The number of the mark at the start of a text if the bundle has it, and the text after it. -/
def readOrdinal? (bundle : Bundle) (cs : List Char) : Option (Nat × List Char) := do
  let (digits, rest) ← readMark? cs
  let ordinal ← ordinalOf? digits
  if bundle.has ordinal then return (ordinal, rest) else none

/-- What follows a mark is shorter than what begins with it. -/
theorem length_of_readMark? {cs digits rest : List Char}
    (found : readMark? cs = some (digits, rest)) :
    rest.length < cs.length := by
  unfold readMark? at found
  split at found
  · rename_i cs
    have shorter := (List.dropWhile_sublist isDecimalDigit (l := cs)).length_le
    simp only at found
    split at found
    · rename_i after eq
      split at found
      · simp at found
      · cases found
        rw [eq] at shorter
        simp only [List.length_cons] at shorter ⊢
        omega
    · simp at found
  · simp at found

theorem length_of_readOrdinal? {bundle : Bundle} {cs rest : List Char} {ordinal : Nat}
    (found : readOrdinal? bundle cs = some (ordinal, rest)) : rest.length < cs.length := by
  simp only [readOrdinal?, Option.bind_eq_bind, Option.bind_eq_some_iff, Prod.exists] at found
  obtain ⟨digits, after, mark, number, value, known⟩ := found
  split at known
  · cases known; exact length_of_readMark? mark
  · simp at known

def pieces (bundle : Bundle) (cs : List Char) : List Piece :=
  match found : readOrdinal? bundle cs with
  | some (ordinal, rest) => .mark ordinal :: pieces bundle rest
  | none =>
      match cs with
      | [] => []
      | c :: rest => .char c :: pieces bundle rest
termination_by cs.length
decreasing_by
  · exact length_of_readOrdinal? found
  · simp

/-- Literal text of a listing.  LaTeX shows it verbatim. -/
def verbatim (backend : Backend) (text : String) : String :=
  match backend with
  | .html => Escape.html text
  | .docBook => Escape.xml text
  | .latex => text

def markMarkup (backend : Backend) (bundle : Bundle) (ordinal : Nat) : String :=
  let id := bundle.id ordinal
  match backend with
  | .html =>
      element "a" [("id", id)] "" ++
        element "a" [("class", "conum"), ("href", "#" ++ id), ("data-value", ordinal.repr)]
          (circled ordinal)
  | .docBook => emptyElement "co" [("xml:id", id)]
  | .latex => "(" ++ ordinal.repr ++ ")"

def Piece.markup (backend : Backend) (bundle : Bundle) : Piece → String
  | .char c => verbatim backend (String.singleton c)
  | .mark ordinal => markMarkup backend bundle ordinal

def Piece.isMark : Piece → Bool
  | .char _ => false
  | .mark _ => true

/-- The text of a listing with its marks replaced; none if it has no mark of the bundle. -/
def annotate? (backend : Backend) (bundle : Bundle) (text : String) : Option String :=
  let pieces := pieces bundle text.toList
  if pieces.any Piece.isMark then some (String.join (pieces.map (·.markup backend bundle)))
  else none

end Rendition.Callout
