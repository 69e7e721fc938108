/-
# Rendition.Value.Basic -- the values that templates read

Text, truth values, whole numbers, lists, maps and null.  A map keeps its keys
in the order in which they were set.  `getPath?` walks through fields of maps and
positions of lists, step by step (`getPath?_append`).
-/
import Rendition.Text.Natural

namespace Rendition

set_option autoImplicit false

inductive Value where
  | string (value : String)
  | bool (value : Bool)
  | int (value : Int)
  | list (items : List Value)
  | map (entries : List (String × Value))
  | null

namespace Value

instance : Inhabited Value := ⟨.null⟩

/-- The text of an option, or null. -/
def ofText? (text : Option String) : Value :=
  match text with
  | some text => .string text
  | none => .null

def ofTexts (texts : List String) : Value := .list (texts.map .string)

/-! ## Reading -/

mutual

/-- Whether a condition on the value holds: there is something to show. -/
def truthy : Value → Bool
  | .bool value => value
  | .string value => ! value.isEmpty
  | .int value => value != 0
  | .list items => truthyAny items
  | .map entries => ! entries.isEmpty
  | .null => false

def truthyAny : List Value → Bool
  | [] => false
  | value :: rest => value.truthy || truthyAny rest

end

def get? (value : Value) (key : String) : Option Value :=
  match value with
  | .map entries => entries.lookup key
  | _ => none

/-- One step of a path: a field of a map, or an item of a list by its position. -/
def step? (value : Value) (segment : String) : Option Value :=
  match value with
  | .map entries => entries.lookup segment
  | .list items => do items[← Text.readPosition? segment]?
  | _ => none

def getPath? (value : Value) : List String → Option Value
  | [] => some value
  | segment :: rest => do (← value.step? segment).getPath? rest

def string? : Value → Option String
  | .string value => some value
  | _ => none

def int? : Value → Option Int
  | .int value => some value
  | _ => none

def list? : Value → Option (List Value)
  | .list items => some items
  | _ => none

mutual

/-- The value as output text: a list shows its items one after the other. -/
def render : Value → String
  | .string value => value
  | .bool true => "true"
  | .bool false => ""
  | .int value => value.repr
  | .list items => renderAll items
  | .map _ => "true"
  | .null => ""

def renderAll : List Value → String
  | [] => ""
  | value :: rest => value.render ++ renderAll rest

end

/-- A path is followed segment by segment. -/
theorem getPath?_append (value : Value) (path rest : List String) :
    value.getPath? (path ++ rest) = (value.getPath? path).bind (·.getPath? rest) := by
  induction path generalizing value with
  | nil => rfl
  | cons segment path ih => simp [getPath?, ih, Option.bind_assoc]

end Value

end Rendition
