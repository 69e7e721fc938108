/-
# Rendition.Text.Ranges -- character classes given by ranges of code points

A class of characters is published as a list of ranges, ascending and disjoint.
`Ranges.contains` decides membership and stops at the first range above the code
point, so a character of the first block costs one comparison.  `Ranges.size`
counts the code points: the standard publishes that number beside each list.
-/
namespace Rendition.Text

set_option autoImplicit false

/-- Ranges of code points, both ends included, in ascending order. -/
abbrev Ranges := List (Nat × Nat)

def Ranges.size : Ranges → Nat
  | [] => 0
  | (first, last) :: rest => last + 1 - first + Ranges.size rest

def Ranges.contains : Ranges → Nat → Bool
  | [], _ => false
  | (first, last) :: rest, code =>
      if code < first then false
      else if code ≤ last then true
      else Ranges.contains rest code

end Rendition.Text
