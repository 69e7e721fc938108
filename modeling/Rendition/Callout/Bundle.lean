/-
# Rendition.Callout.Bundle -- callouts shared by a listing and its list

A callout list explains marks in the listing before it.  The items whose
markers hold a number are the callouts of a bundle; the ids of all callouts of
one bundle start with its base, which no other bundle of the document has.
-/
import Rendition.Text.Natural
import Rendition.Text.Numeral

namespace Rendition.Callout

set_option autoImplicit false

open Rendition.Text

/-- The number of a run of digits: ASCII digits that fit in 32 bits. -/
def ordinalOf? (digits : List Char) : Option Nat := readNaturalBelow? UInt32.size digits

/-- The number of an item marker: that of its first run of decimal digits. -/
def markerOrdinal? (marker : String) : Option Nat :=
  let run := marker.toList.dropWhile fun c => ! isDecimalDigit c
  ordinalOf? (run.takeWhile isDecimalDigit)

/-- The callouts of a listing and the list after it: a serial number, and the number of each item
that has one. -/
structure Bundle where
  serial : UInt32
  ordinals : List (Option Nat)
  deriving DecidableEq

namespace Bundle

/-- The bundle of a list with these markers; none if no marker holds a number. -/
def ofMarkers? (markers : List String) (serial : UInt32) : Option Bundle :=
  let ordinals := markers.map markerOrdinal?
  if ordinals.all Option.isNone then none else some ⟨serial, ordinals⟩

/-- What the ids of all callouts of the bundle start with. -/
def base (bundle : Bundle) : String := "CO" ++ bundle.serial.toNat.repr

def id (bundle : Bundle) (ordinal : Nat) : String := bundle.base ++ "-" ++ ordinal.repr

/-- Whether some item of the list has a number. -/
def has (bundle : Bundle) (ordinal : Nat) : Bool := bundle.ordinals.contains (some ordinal)

/-- The id of a callout, if the list explains it. -/
def id? (bundle : Bundle) (ordinal : Nat) : Option String :=
  if bundle.has ordinal then some (bundle.id ordinal) else none

def itemOrdinal? (bundle : Bundle) (position : Nat) : Option Nat :=
  (bundle.ordinals[position]?).join

end Bundle

/-- A number in a circle up to twenty, in parentheses above. -/
def circled (ordinal : Nat) : String :=
  if 1 ≤ ordinal ∧ ordinal ≤ 20 then String.singleton (Char.ofNat (0x2460 + ordinal - 1))
  else "(" ++ ordinal.repr ++ ")"

end Rendition.Callout
