/-
# Rendition.Json.Reader -- JSON values from text

A recursive-descent reader of the JSON grammar.  Each value consumes at least
one character, so the length of the text bounds the recursion; `read?` supplies
that bound and refuses a text with anything but blanks after its value.

Every array and object that is opened takes one level of the room that the reader
is given, and gives it back when it is closed.  A text that needs more levels is
refused; `maxDepth` is the room that documents are read with.

A number without fraction and exponent is whole if 64 bits hold it; every other
number is floating-point.
-/
import Rendition.Json.Basic

namespace Rendition.Json

set_option autoImplicit false

/-- The blanks of the JSON grammar. -/
def isSpace (c : Char) : Bool := c = ' ' || c = '\n' || c = '\r' || c = '\t'

def skipSpaces (cs : List Char) : List Char := cs.dropWhile isSpace

/-! ## Strings -/

def hexValue? (c : Char) : Option Nat :=
  if '0' ≤ c ∧ c ≤ '9' then some (c.toNat - '0'.toNat)
  else if 'a' ≤ c ∧ c ≤ 'f' then some (c.toNat - 'a'.toNat + 10)
  else if 'A' ≤ c ∧ c ≤ 'F' then some (c.toNat - 'A'.toNat + 10)
  else none

/-- The number of four hexadecimal digits. -/
def codeUnit? (a b c d : Char) : Option Nat := do
  return (((← hexValue? a) * 16 + (← hexValue? b)) * 16 + (← hexValue? c)) * 16 + (← hexValue? d)

/-- The character of a pair of surrogates. -/
def pairedChar? (high low : Nat) : Option Char :=
  if 0xD800 ≤ high ∧ high < 0xDC00 ∧ 0xDC00 ≤ low ∧ low < 0xE000 then
    some (Char.ofNat (0x10000 + (high - 0xD800) * 0x400 + (low - 0xDC00)))
  else none

/-- The character of a code unit that is no surrogate. -/
def plainChar? (unit : Nat) : Option Char :=
  if 0xD800 ≤ unit ∧ unit < 0xE000 then none else some (Char.ofNat unit)

/-- The character that a letter stands for after a backslash. -/
def escaped? (c : Char) : Option Char :=
  [('\x22', '\x22'), ('\\', '\\'), ('/', '/'), ('b', '\x08'), ('f', '\x0c'), ('n', '\n'),
    ('r', '\r'), ('t', '\t')].lookup c

/-- The characters up to the closing quote, and the text after it. -/
def readString? : List Char → Option (List Char × List Char)
  | [] => none
  | '\\' :: 'u' :: a :: b :: c :: d :: '\\' :: 'u' :: e :: f :: g :: h :: rest => do
      let first ← codeUnit? a b c d
      match plainChar? first with
      | some char =>
          let (chars, after) ← readString? ('\\' :: 'u' :: e :: f :: g :: h :: rest)
          return (char :: chars, after)
      | none =>
          let char ← pairedChar? first (← codeUnit? e f g h)
          let (chars, after) ← readString? rest
          return (char :: chars, after)
  | '\\' :: 'u' :: a :: b :: c :: d :: rest => do
      let char ← plainChar? (← codeUnit? a b c d)
      let (chars, after) ← readString? rest
      return (char :: chars, after)
  | '\\' :: c :: rest => do
      let char ← escaped? c
      let (chars, after) ← readString? rest
      return (char :: chars, after)
  | c :: rest =>
      if c = '\x22' then some ([], rest)
      else if c.toNat < 0x20 ∨ c = '\\' then none
      else (readString? rest).map fun (chars, after) => (c :: chars, after)

/-! ## Numbers -/

/-- A significand of at most 64 bits, its exponent of ten, and whether digits were left out. -/
structure Significand where
  value : Nat
  exponent : Int
  full : Bool

namespace Significand

/-- One more digit before the point: counted as a place if there is no room for it. -/
def addWhole (s : Significand) (digit : Char) : Significand :=
  let value := s.value * 10 + (digit.toNat - '0'.toNat)
  if s.full ∨ UInt64.size ≤ value then ⟨s.value, s.exponent + 1, true⟩
  else ⟨value, s.exponent, false⟩

/-- One more digit after the point: dropped if there is no room for it. -/
def addFraction (s : Significand) (digit : Char) : Significand :=
  let value := s.value * 10 + (digit.toNat - '0'.toNat)
  if s.full ∨ UInt64.size ≤ value then ⟨s.value, s.exponent, true⟩
  else ⟨value, s.exponent - 1, false⟩

/-- The significand of the digits before a point. -/
def ofWhole (digits : List Char) : Significand := digits.foldl addWhole ⟨0, 0, false⟩

/-- The significand with the digits after the point. -/
def withFraction (s : Significand) (digits : List Char) : Significand :=
  digits.foldl addFraction ⟨s.value, s.exponent, false⟩

end Significand

/-- The exponent at the start of a text, zero if there is none, and the text after it. -/
def readExponent? : List Char → Option (Option Int × List Char)
  | e :: rest =>
      if e = 'e' ∨ e = 'E' then
        let (negative, rest) := match rest with
          | '-' :: rest => (true, rest)
          | '+' :: rest => (false, rest)
          | _ => (false, rest)
        let digits := rest.takeWhile Char.isDigit
        let size : Int := Nat.ofDigitChars 10 digits 0
        if digits.isEmpty then none
        else some (some (if negative then -size else size), rest.dropWhile Char.isDigit)
      else some (none, e :: rest)
  | [] => some (none, [])

/-- The digits after a point at the start of a text, and the text after them. -/
def readFraction? : List Char → Option (Option (List Char) × List Char)
  | '.' :: rest =>
      let digits := rest.takeWhile Char.isDigit
      if digits.isEmpty then none else some (some digits, rest.dropWhile Char.isDigit)
  | rest => some (none, rest)

/-- The number of a sign and digits without fraction and exponent. -/
def wholeNumber? (negative : Bool) (s : Significand) : Option JsonNumber :=
  if s.full then .float <$> Binary64.ofScaled? negative s.value s.exponent
  else if ! negative then some (.integer s.value)
  else if s.value = 0 ∨ Nat.pow 2 63 < s.value then .float <$> Binary64.ofScaled? true s.value 0
  else some (.integer (-s.value))

/-- The number after its sign, and the text after it. -/
def readUnsigned? (negative : Bool) (cs : List Char) : Option (JsonNumber × List Char) := do
  let digits := cs.takeWhile Char.isDigit
  if digits.isEmpty ∨ (digits.head? = some '0' ∧ 1 < digits.length) then none
  else
    let whole := Significand.ofWhole digits
    let (fraction, rest) ← readFraction? (cs.dropWhile Char.isDigit)
    let (exponent, rest) ← readExponent? rest
    match fraction, exponent with
    | none, none => return (← wholeNumber? negative whole, rest)
    | _, _ =>
        let s := match fraction with
          | some digits => whole.withFraction digits
          | none => whole
        let number ← Binary64.ofScaled? negative s.value (s.exponent + exponent.getD 0)
        return (.float number, rest)

/-- The number at the start of a text, and the text after it. -/
def readNumber? : List Char → Option (JsonNumber × List Char)
  | '-' :: rest => readUnsigned? true rest
  | rest => readUnsigned? false rest

/-! ## Values -/

/-- The text after a word, if it starts with it. -/
def afterWord? (word : String) (cs : List Char) : Option (List Char) :=
  if word.toList.isPrefixOf cs then some (cs.drop word.length) else none

/-- How many arrays and objects may be open at once when a document is read. -/
def maxDepth : Nat := 127

mutual

/-- The value at the start of a text, and the text after it, within `fuel` steps, if no more than
`room` arrays and objects are open at once. -/
def readValue? : (fuel room : Nat) → List Char → Option (Json × List Char)
  | 0, _, _ => none
  | fuel + 1, room, cs =>
      match skipSpaces cs with
      | '\x22' :: rest => do
          let (chars, rest) ← readString? rest
          return (.string (String.ofList chars), rest)
      | '[' :: rest =>
          match room with
          | 0 => none
          | room + 1 =>
              match skipSpaces rest with
              | ']' :: rest => some (.array [], rest)
              | rest => do
                  let (elements, rest) ← readElements? fuel room rest
                  return (.array elements, rest)
      | '\x7b' :: rest =>
          match room with
          | 0 => none
          | room + 1 =>
              match skipSpaces rest with
              | '\x7d' :: rest => some (.object [], rest)
              | rest => do
                  let (members, rest) ← readMembers? fuel room rest
                  return (.object members, rest)
      | 'n' :: rest => do return (.null, ← afterWord? "ull" rest)
      | 't' :: rest => do return (.bool true, ← afterWord? "rue" rest)
      | 'f' :: rest => do return (.bool false, ← afterWord? "alse" rest)
      | rest => do
          let (numeral, rest) ← readNumber? rest
          return (.number numeral, rest)

/-- The elements up to the closing bracket, and the text after it. -/
def readElements? : (fuel room : Nat) → List Char → Option (List Json × List Char)
  | 0, _, _ => none
  | fuel + 1, room, cs => do
      let (json, rest) ← readValue? fuel room cs
      match skipSpaces rest with
      | ',' :: rest =>
          let (elements, rest) ← readElements? fuel room rest
          return (json :: elements, rest)
      | ']' :: rest => return ([json], rest)
      | _ => none

/-- The members up to the closing brace, and the text after it. -/
def readMembers? : (fuel room : Nat) → List Char → Option (List (String × Json) × List Char)
  | 0, _, _ => none
  | fuel + 1, room, cs =>
      match skipSpaces cs with
      | '\x22' :: rest => do
          let (chars, rest) ← readString? rest
          match skipSpaces rest with
          | ':' :: rest =>
              let (json, rest) ← readValue? fuel room rest
              match skipSpaces rest with
              | ',' :: rest =>
                  let (members, rest) ← readMembers? fuel room rest
                  return ((String.ofList chars, json) :: members, rest)
              | '\x7d' :: rest => return ([(String.ofList chars, json)], rest)
              | _ => none
          | _ => none
      | _ => none

end

/-- The value of a text with no more than `room` arrays and objects open at once. -/
def read? (room : Nat) (text : String) : Option Json := do
  let cs := text.toList
  let (json, rest) ← readValue? (cs.length + 1) room cs
  if (skipSpaces rest).isEmpty then return json else none

end Rendition.Json
