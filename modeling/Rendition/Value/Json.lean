/-
# Rendition.Value.Json -- values and JSON

A payload arrives as JSON.  Whole numbers of 64 bits with a sign stay numbers;
every other number becomes its text, whatever the text of a number is.  All else
keeps its shape.
-/
import Rendition.Json.Printer
import Rendition.Value.Basic

namespace Rendition.Value

set_option autoImplicit false

variable (numberText : JsonNumber → String)

/-- A number of a payload: a 64-bit integer, or the text of any other number. -/
def ofNumber (number : JsonNumber) : Value :=
  match number with
  | .integer value =>
      if -Int.pow 2 63 ≤ value ∧ value < Int.pow 2 63 then .int value
      else .string (numberText number)
  | .float _ => .string (numberText number)

mutual

def ofJson : Json → Value
  | .null => .null
  | .bool value => .bool value
  | .number value => ofNumber numberText value
  | .string value => .string value
  | .array elements => .list (ofJsonAll elements)
  | .object members => .map (ofJsonMembers members)

def ofJsonAll : List Json → List Value
  | [] => []
  | json :: rest => ofJson json :: ofJsonAll rest

def ofJsonMembers : List (String × Json) → List (String × Value)
  | [] => []
  | (key, json) :: rest => (key, ofJson json) :: ofJsonMembers rest

end

/-- The value of a payload: the members of its objects carry no order and are sorted. -/
def ofPayload (json : Json) : Value := ofJson numberText json.sorted

mutual

def toJson : Value → Json
  | .string value => .string value
  | .bool value => .bool value
  | .int value => .number (.integer value)
  | .list items => .array (toJsonAll items)
  | .map entries => .object (toJsonEntries entries)
  | .null => .null

def toJsonAll : List Value → List Json
  | [] => []
  | value :: rest => value.toJson :: toJsonAll rest

def toJsonEntries : List (String × Value) → List (String × Json)
  | [] => []
  | (key, value) :: rest => (key, value.toJson) :: toJsonEntries rest

end

end Rendition.Value
