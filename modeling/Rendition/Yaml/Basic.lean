/-
# Rendition.Yaml.Basic -- trees of YAML

Scalars, plain or quoted, sequences and mappings.  The keys of a mapping are
texts.  Only a plain scalar can be anything but a string.
-/
import Rendition.Yaml.Scalar

namespace Rendition

set_option autoImplicit false

inductive Yaml where
  | plain (text : String)
  | quoted (text : String)
  | sequence (elements : List Yaml)
  | mapping (entries : List (String × Yaml))

namespace Yaml

/-- The node of an absent value. -/
def absent : Yaml := .plain ""

def scalar? : Yaml → Option String
  | .plain text => some text
  | .quoted text => some text
  | _ => none

mutual

/-- The greatest number of collections around a node, itself included. -/
def depth : Yaml → Nat
  | .plain _ => 0
  | .quoted _ => 0
  | .sequence elements => depthAll elements + 1
  | .mapping entries => depthEntries entries + 1

def depthAll : List Yaml → Nat
  | [] => 0
  | yaml :: rest => max yaml.depth (depthAll rest)

def depthEntries : List (String × Yaml) → Nat
  | [] => 0
  | (_, yaml) :: rest => max yaml.depth (depthEntries rest)

end

mutual

def toJson? : Yaml → Option Json
  | .plain text => plainValue? text
  | .quoted text => some (.string text)
  | .sequence elements => (toJsonAll? elements).map .array
  | .mapping entries => (toJsonEntries? entries).map .object

def toJsonAll? : List Yaml → Option (List Json)
  | [] => some []
  | yaml :: rest => do return (← yaml.toJson?) :: (← toJsonAll? rest)

def toJsonEntries? : List (String × Yaml) → Option (List (String × Json))
  | [] => some []
  | (key, yaml) :: rest => do return (key, ← yaml.toJson?) :: (← toJsonEntries? rest)

end

end Yaml

end Rendition
