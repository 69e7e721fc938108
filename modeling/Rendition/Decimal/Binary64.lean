/-
# Rendition.Decimal.Binary64 -- floating-point numbers of 64 bits, exactly

A finite number of the format is a sign and a whole multiple of a power of two
with at most 53 bits.  All arithmetic is on natural numbers: `nearest?` rounds a
ratio once, to the nearest number of the format, ties to the even one, and is
`none` where the ratio is too large.

A decimal is read in one of two ways.  `ofDecimal?` rounds its exact value.
`ofScaled?` rounds the significand first and then scales it by the number
nearest to the power of ten, which rounds again: the way of a reader that keeps
no more than 64 bits of a significand.
-/
namespace Rendition

set_option autoImplicit false

/-- A finite floating-point number: plus or minus `significand` times two to the `exponent`. -/
structure Binary64 where
  negative : Bool
  significand : Nat
  exponent : Int
  deriving DecidableEq, Inhabited

namespace Binary64

def minExponent : Int := -1074

def maxExponent : Int := 971

def zero (negative : Bool) : Binary64 := ⟨negative, 0, minExponent⟩

/-- The whole number nearest to a ratio; of two the even one. -/
def roundRatio (num den : Nat) : Nat :=
  let quotient := num / den
  let remainder := num % den
  if den < 2 * remainder ∨ (den = 2 * remainder ∧ quotient % 2 = 1) then quotient + 1 else quotient

/-- A ratio divided by two to the `exponent`. -/
def scaleDown (num den : Nat) (exponent : Int) : Nat × Nat :=
  (num * Nat.pow 2 (-exponent).toNat, den * Nat.pow 2 exponent.toNat)

/-- The exponent that leaves a ratio with 53 bits before its point. -/
def exponentOf (num den : Nat) : Int :=
  let low := max minExponent ((num.log2 : Int) - den.log2 - 53)
  let (scaledNum, scaledDen) := scaleDown num den low
  if scaledNum < Nat.pow 2 53 * scaledDen then low else low + 1

/-- The number nearest to the ratio `num / den`, if there is room for it. -/
def nearest? (negative : Bool) (num den : Nat) : Option Binary64 :=
  if num = 0 then some (zero negative)
  else
    let exponent := exponentOf num den
    let (scaledNum, scaledDen) := scaleDown num den exponent
    let rounded := roundRatio scaledNum scaledDen
    let (significand, exponent) :=
      if rounded = Nat.pow 2 53 then (Nat.pow 2 52, exponent + 1) else (rounded, exponent)
    if maxExponent < exponent then none else some ⟨negative, significand, exponent⟩

def ratio (x : Binary64) : Nat × Nat :=
  (x.significand * Nat.pow 2 x.exponent.toNat, Nat.pow 2 (-x.exponent).toNat)

/-- The number nearest to a power of ten, as a ratio; up to the 308th it is finite. -/
def powerOfTen (k : Nat) : Nat × Nat :=
  ((nearest? false (Nat.pow 10 k) 1).getD (zero false)).ratio

/-- The product with a power of ten. -/
def timesPowerOfTen? (x : Binary64) (k : Nat) : Option Binary64 :=
  let (num, den) := x.ratio
  let (powerNum, powerDen) := powerOfTen k
  nearest? x.negative (num * powerNum) (den * powerDen)

/-- The quotient by a power of ten. -/
def overPowerOfTen (x : Binary64) (k : Nat) : Binary64 :=
  let (num, den) := x.ratio
  let (powerNum, powerDen) := powerOfTen k
  (nearest? x.negative (num * powerDen) (den * powerNum)).getD (zero x.negative)

/-- The quotient by ten to the `k`, in steps of at most 308 places. -/
def shiftRight (x : Binary64) (k : Nat) : Binary64 :=
  if k ≤ 308 ∨ x.significand = 0 then x.overPowerOfTen (min k 308)
  else shiftRight (x.overPowerOfTen 308) (k - 308)
termination_by k

/-- A significand of 64 bits, rounded and then scaled by a power of ten. -/
def ofScaled? (negative : Bool) (significand : Nat) (exponent : Int) : Option Binary64 := do
  let x ← nearest? negative significand 1
  if significand = 0 then return zero negative
  else if exponent < 0 then return x.shiftRight (-exponent).toNat
  else if 308 < exponent then none
  else x.timesPowerOfTen? exponent.toNat

/-- The number nearest to `digits` times ten to the `exponent`. -/
def ofDecimal? (negative : Bool) (digits : Nat) (exponent : Int) : Option Binary64 :=
  let places := (Nat.toDigits 10 digits).length + exponent
  if digits = 0 ∨ places < -400 then some (zero negative)
  else if 400 < places then none
  else nearest? negative (digits * Nat.pow 10 exponent.toNat)
      (Nat.pow 10 (-exponent).toNat)

end Binary64

end Rendition
