/-
# Rendition.Yaml.Scalar -- what a plain scalar means

A plain scalar is null, a truth value, a whole number, a floating-point number
or, if it is none of these, a string.  Digits after a leading zero are a string.
Whole numbers may have a plus sign and may be hexadecimal, octal or binary.  A
whole number that 128 bits hold but 64 bits do not has no meaning here; a longer
one is read as floating-point.
-/
import Rendition.Json.Reader

namespace Rendition.Yaml

set_option autoImplicit false

def digitValue? (base : Nat) (c : Char) : Option Nat := (Json.hexValue? c).filter (· < base)

/-- The number of a non-empty run of digits. -/
def digits? (base : Nat) (cs : List Char) : Option Nat :=
  if cs.isEmpty then none
  else cs.foldl (fun sum c => do return (← sum) * base + (← digitValue? base c)) (some 0)

/-- The number of digits that may have a base in front. -/
def basedDigits? : List Char → Option Nat
  | '0' :: 'x' :: cs => digits? 16 cs
  | '0' :: 'o' :: cs => digits? 8 cs
  | '0' :: 'b' :: cs => digits? 2 cs
  | cs => digits? 10 cs

def isZeroPadded (cs : List Char) : Bool :=
  let digits := match cs with
    | '+' :: cs => cs
    | '-' :: cs => cs
    | cs => cs
  digits.head? = some '0' && 1 < digits.length && digits.all Char.isDigit

def integer? (cs : List Char) : Option Int :=
  if isZeroPadded cs then none
  else match cs with
    | '-' :: cs => (basedDigits? cs).map fun n => -(n : Int)
    | '+' :: cs => (basedDigits? cs).map Int.ofNat
    | cs => (basedDigits? cs).map Int.ofNat

/-- The sign, digits and exponent of ten of a decimal with a point or an exponent. -/
def decimal? (cs : List Char) : Option (Bool × Nat × Int) := do
  let (negative, cs) := match cs with
    | '-' :: cs => (true, cs)
    | '+' :: cs => (false, cs)
    | cs => (false, cs)
  let whole := cs.takeWhile Char.isDigit
  let (fraction, cs) := match cs.dropWhile Char.isDigit with
    | '.' :: cs => (cs.takeWhile Char.isDigit, cs.dropWhile Char.isDigit)
    | cs => ([], cs)
  let (exponent, cs) ← Json.readExponent? cs
  if (whole ++ fraction).isEmpty ∨ ¬ cs.isEmpty then none
  else return (negative, Nat.ofDigitChars 10 (whole ++ fraction) 0,
    exponent.getD 0 - fraction.length)

/-- The texts of numbers without a value. -/
def isUndefined (text : String) : Bool :=
  [".inf", ".Inf", ".INF", "+.inf", "+.Inf", "+.INF", "-.inf", "-.Inf", "-.INF", ".nan", ".NaN",
    ".NAN"].contains text

def isNull (text : String) : Bool := ["", "~", "null", "Null", "NULL"].contains text

/-- The meaning of a plain scalar; none for a whole number of more than 64 and at most 128 bits. -/
def plainValue? (text : String) : Option Json :=
  let cs := text.toList
  if isNull text then some .null
  else if ["true", "True", "TRUE"].contains text then some (.bool true)
  else if ["false", "False", "FALSE"].contains text then some (.bool false)
  else match (integer? cs).filter fun n =>
      -Int.pow 2 127 ≤ n && n < Int.pow 2 128 with
    | some n =>
        if -Int.pow 2 63 ≤ n ∧ n < Int.pow 2 64 then some (.number (.integer n)) else none
    | none =>
        if isUndefined text then some .null
        else match (if isZeroPadded cs then none else decimal? cs) with
          | some (negative, digits, exponent) =>
              match Binary64.ofDecimal? negative digits exponent with
              | some x => some (.number (.float x))
              | none => some (.string text)
          | none => some (.string text)

end Rendition.Yaml
