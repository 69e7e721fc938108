/-
# Rendition.Math.Node -- math expressions as trees

A row is a horizontal sequence; leaves are identifiers, numbers, operators and
literal texts; a fraction has two parts, a root one, and scripts hang a
subscript, a superscript or both on a base.
-/
namespace Rendition.Math

set_option autoImplicit false

inductive Node where
  | row (children : List Node)
  | identifier (name : String)
  | number (digits : String)
  | operator (symbol : String)
  | text (text : String)
  | fraction (numerator denominator : Node)
  | root (radicand : Node)
  | scripts (base : Node) (sub sup : Option Node)

namespace Node

instance : Inhabited Node := ⟨.row []⟩

/-- A base with the scripts found after it; the base alone if there are none. -/
def withScripts (base : Node) : Option Node → Option Node → Node
  | none, none => base
  | sub, sup => .scripts base sub sup

end Node

end Rendition.Math
