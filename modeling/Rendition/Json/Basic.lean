/-
# Rendition.Json.Basic -- JSON values

The members of an object keep the order in which they were written.  A number
is a whole number or a floating-point number.

`sorted` puts the members of every object in ascending order of their keys, the
last of several members of one key only: what remains when order is no meaning.
-/
import Rendition.Decimal.Shortest

namespace Rendition

set_option autoImplicit false

inductive JsonNumber where
  | integer (value : Int)
  | float (value : Binary64)
  deriving DecidableEq

def JsonNumber.text : JsonNumber → String
  | .integer value => value.repr
  | .float value => value.text

inductive Json where
  | null
  | bool (value : Bool)
  | number (value : JsonNumber)
  | string (value : String)
  | array (elements : List Json)
  | object (members : List (String × Json))

namespace Json

instance : Inhabited Json := ⟨.null⟩

def ofNat (n : Nat) : Json := .number (.integer n)

/-- A value, or null. -/
def ofOption {α : Type} (encode : α → Json) : Option α → Json
  | some value => encode value
  | none => .null

def ofStrings (values : List String) : Json := .array (values.map .string)

/-! ## Reading parts of a value -/

def string? : Json → Option String
  | .string value => some value
  | _ => none

def bool? : Json → Option Bool
  | .bool value => some value
  | _ => none

/-- A whole number from zero up to below `bound`. -/
def natural? (bound : Nat) : Json → Option Nat
  | .number (.integer value) => if 0 ≤ value ∧ value < bound then some value.toNat else none
  | _ => none

def elements? : Json → Option (List Json)
  | .array elements => some elements
  | _ => none

def members? : Json → Option (List (String × Json))
  | .object members => some members
  | _ => none

/-- The elements of an array, each decoded. -/
def listOf? {α : Type} (decode : Json → Option α) (json : Json) : Option (List α) := do
  (← json.elements?).mapM decode

def strings? (json : Json) : Option (List String) := json.listOf? string?

def field? (json : Json) (key : String) : Option Json :=
  match json with
  | .object members => members.lookup key
  | _ => none

/-- A member that may be missing or null. -/
def optional? {α : Type} (decode : Json → Option α) (json : Json) (key : String) :
    Option (Option α) :=
  match json.field? key with
  | none | some .null => some none
  | some value => (decode value).map some

/-- A member with a value of its own when it is missing. -/
def defaulted? {α : Type} (decode : Json → Option α) (json : Json) (key : String) (default : α) :
    Option α :=
  match json.field? key with
  | none => some default
  | some value => decode value

/-! ## Canonical order -/

/-- Put a member before the members of a sorted object; a later member of the same key stays. -/
def insertMember (key : String) (value : Json) : List (String × Json) → List (String × Json)
  | [] => [(key, value)]
  | (other, kept) :: rest =>
      if key < other then (key, value) :: (other, kept) :: rest
      else if key = other then (other, kept) :: rest
      else (other, kept) :: insertMember key value rest

mutual

/-- The value with the members of every object in ascending order of their keys. -/
def sorted : Json → Json
  | .array elements => .array (sortedAll elements)
  | .object members => .object (sortedMembers members)
  | .null => .null
  | .bool value => .bool value
  | .number value => .number value
  | .string value => .string value

def sortedAll : List Json → List Json
  | [] => []
  | json :: rest => json.sorted :: sortedAll rest

def sortedMembers : List (String × Json) → List (String × Json)
  | [] => []
  | (key, value) :: rest => insertMember key value.sorted (sortedMembers rest)

end

end Json

end Rendition
