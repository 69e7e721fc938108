/-
# Rendition.Text.Natural -- natural numbers in decimal digits

Reading accepts the ten ASCII digits only; any number of leading zeros is
allowed and an empty text is refused.  `readNatural?_repr` says that what
`Nat.repr` writes is read back.
-/
namespace Rendition.Text

set_option autoImplicit false

/-- The number written by a non-empty run of ASCII digits. -/
def readNatural? (cs : List Char) : Option Nat :=
  if !cs.isEmpty && cs.all Char.isDigit then some (Nat.ofDigitChars 10 cs 0) else none

/-- The number written by a run of ASCII digits, if it is below `bound`. -/
def readNaturalBelow? (bound : Nat) (cs : List Char) : Option Nat :=
  (readNatural? cs).filter (· < bound)

/-- A position in a list: a number below 2^64, with an optional plus sign in front. -/
def readPosition? (s : String) : Option Nat :=
  match s.toList with
  | '+' :: cs => readNaturalBelow? UInt64.size cs
  | cs => readNaturalBelow? UInt64.size cs

theorem readNatural?_repr (n : Nat) : readNatural? n.repr.toList = some n := by
  have digits : (Nat.toDigits 10 n).all Char.isDigit = true := by
    simp only [List.all_eq_true]
    exact fun c inside => Nat.isDigit_of_mem_toDigits (by decide) (by decide) inside
  simp [readNatural?, Nat.repr_eq_ofList_toDigits, digits, Nat.ofDigitChars_ten_toDigits,
    Nat.toDigits_ne_nil]

end Rendition.Text
