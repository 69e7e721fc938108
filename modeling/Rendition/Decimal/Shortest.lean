/-
# Rendition.Decimal.Shortest -- the shortest decimal of a floating-point number

Among the decimals that are nearer to a number than to any other of its format,
`shortest` takes one with the fewest digits, and of those the nearest.  It tries
1, 2, and so on up to 17 digits and looks at the two neighbours of the number on
each grid, in exact arithmetic.

`Binary64.text` writes these digits: positionally, with at least one digit after
the point, while the leading digit stands between the 5th place after the point
and the 16th before it; outside with an exponent that carries its sign.
-/
import Rendition.Decimal.Binary64

namespace Rendition

set_option autoImplicit false

/-- The decimal `digits` times ten to the `exponent`. -/
structure Decimal where
  digits : Nat
  exponent : Int
  deriving DecidableEq

namespace Decimal

def withoutTrailingZeros (digits : Nat) (exponent : Int) : Decimal :=
  if more : digits ≠ 0 ∧ digits % 10 = 0 then withoutTrailingZeros (digits / 10) (exponent + 1)
  else ⟨digits, exponent⟩
termination_by digits

/-- The place of the leading digit of a positive ratio: zero for the units. -/
def leadingPlace (num den : Nat) : Int :=
  if den ≤ num then (Nat.toDigits 10 (num / den)).length - 1
  else -((Nat.toDigits 10 ((den - 1) / num)).length : Int)

end Decimal

namespace Binary64

/-- Four times the significand, in units of a quarter of the last bit. -/
def quarters (x : Binary64) : Nat := 4 * x.significand

/-- The lower and upper end of the reals that round to a positive number, in quarters of the last
bit.  Below a power of two the neighbour is half as far. -/
def interval (x : Binary64) : Nat × Nat :=
  let below := if x.significand = Nat.pow 2 52 ∧ minExponent < x.exponent then 1 else 2
  (x.quarters - below, x.quarters + 2)

/-- Whether a decimal on the grid of ten to the `place` rounds to the number. -/
def accepts (x : Binary64) (digits : Nat) (place : Int) : Bool :=
  let (low, high) := x.interval
  let value := digits * Nat.pow 10 place.toNat * Nat.pow 2 (-x.exponent).toNat * 4
  let unit := Nat.pow 10 (-place).toNat * Nat.pow 2 x.exponent.toNat
  if x.significand % 2 = 0 then low * unit ≤ value && value ≤ high * unit
  else low * unit < value && value < high * unit

/-- The neighbour of a positive number on the grid of ten to the `place` that rounds to it; of two
the nearer, of two equally near the even one. -/
def onGrid? (x : Binary64) (place : Int) : Option Nat :=
  let (num, den) := x.ratio
  let scaledNum := num * Nat.pow 10 (-place).toNat
  let scaledDen := den * Nat.pow 10 place.toNat
  let low := scaledNum / scaledDen
  match x.accepts low place, x.accepts (low + 1) place with
  | true, true => some (roundRatio scaledNum scaledDen)
  | true, false => some low
  | false, true => some (low + 1)
  | false, false => none

/-- The first grid with a neighbour, from `count` digits on. -/
def search (x : Binary64) (leading : Int) : (more : Nat) → (count : Nat) → Decimal
  | 0, _ => ⟨x.significand, 0⟩
  | more + 1, count =>
      let place := leading - count + 1
      match x.onGrid? place with
      | some digits => Decimal.withoutTrailingZeros digits place
      | none => search x leading more (count + 1)

/-- The shortest decimal of the absolute value. -/
def shortest (x : Binary64) : Decimal :=
  if x.significand = 0 then ⟨0, 0⟩
  else search x (Decimal.leadingPlace x.ratio.1 x.ratio.2) 17 1

end Binary64

namespace Decimal

def zeros (n : Int) : List Char := List.replicate n.toNat '0'

/-- The decimal without an exponent, with at least one digit on both sides of the point. -/
def positional (digits : List Char) (exponent : Int) : List Char :=
  let point := digits.length + exponent
  if 0 ≤ exponent then digits ++ zeros exponent ++ ['.', '0']
  else if 0 < point then digits.take point.toNat ++ '.' :: digits.drop point.toNat
  else '0' :: '.' :: zeros (-point) ++ digits

/-- The decimal with one digit before the point and an exponent. -/
def scientific (digits : List Char) (exponent : Int) : List Char :=
  let place := digits.length + exponent - 1
  let fraction := if digits.length ≤ 1 then [] else '.' :: digits.drop 1
  let sign := if place < 0 then '-' else '+'
  digits.take 1 ++ fraction ++ 'e' :: sign :: place.natAbs.repr.toList

def text (decimal : Decimal) : List Char :=
  let digits := Nat.toDigits 10 decimal.digits
  let place := digits.length + decimal.exponent - 1
  if -5 ≤ place ∧ place < 16 then positional digits decimal.exponent
  else scientific digits decimal.exponent

end Decimal

/-- A floating-point number as text. -/
def Binary64.text (x : Binary64) : String :=
  String.ofList ((if x.negative then ['-'] else []) ++ x.shortest.text)

end Rendition
