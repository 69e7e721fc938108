/-
# Rendition.Yaml.Layout -- the blocks and keys that columns show

A block starts where a dash or a key stands further right than the block around
it, and ends before the first token that stands further left than it does.

That a token was a key is known only at the colon after it.  A `KeyStart`
remembers where a key may have started, and `insertKey` puts the sign for it
there.  A key ends in the line in which it starts, and its colon stands at most
1024 columns after its start.

A `Layout` is what has to be known between two tokens.  Its operations add the
tokens of one sign each; none means that the sign must not stand there.  The
columns of the open blocks grow from the outermost to the innermost, and brackets
leave them as they are.
-/
import Rendition.Yaml.Token

namespace Rendition.Yaml

set_option autoImplicit false

/-- Where a key may have started: after how many tokens, in which line and column, and whether a
colon has to follow. -/
structure KeyStart where
  position : Nat
  line : Nat
  column : Nat
  required : Bool

/-- What is known between two tokens: the tokens so far, the last one first; the columns of the open
blocks, the innermost first; where the current key may have started, and likewise outside of every
open bracket, the innermost first; and whether a key may start. -/
structure Layout where
  tokens : List Token
  indents : List Nat
  keyStart : Option KeyStart
  outer : List (Option KeyStart)
  keyAllowed : Bool

namespace Layout

def start : Layout := ⟨[], [], none, [], true⟩

def inBrackets (layout : Layout) : Bool := ! layout.outer.isEmpty

/-- The least column at which a scalar inside the innermost block can go on. -/
def floor (layout : Layout) : Nat := (layout.indents.head?.map (· + 1)).getD 0

def emit (layout : Layout) (token : Token) : Layout :=
  { layout with tokens := token :: layout.tokens }

/-! ## Blocks -/

/-- Whether a block can be opened at a column: outside of brackets, and further right than the
innermost block. -/
def opensAt (layout : Layout) (column : Nat) : Bool :=
  ! layout.inBrackets && layout.indents.head?.all (· < column)

/-- The layout with a block opened at a column, if one can be. -/
def openBlock (layout : Layout) (token : Token) (column : Nat) : Layout :=
  if layout.opensAt column then
    { layout with tokens := token :: layout.tokens, indents := column :: layout.indents }
  else layout

/-- The layout with the innermost blocks closed, as long as their columns satisfy a condition.
Brackets keep every block open. -/
def closeWhile (layout : Layout) (closes : Nat → Bool) : Layout :=
  if layout.inBrackets then layout
  else
    { layout with
      tokens := (layout.indents.takeWhile closes).map (fun _ => .blockEnd) ++ layout.tokens
      indents := layout.indents.dropWhile closes }

/-- The layout with the blocks closed that a token at a column does not belong to. -/
def closeDeeper (layout : Layout) (column : Nat) : Layout := layout.closeWhile (column < ·)

def closeAll (layout : Layout) : Layout := layout.closeWhile fun _ => true

/-! ## Keys -/

/-- The layout without a start of a key; none if a colon had to follow it. -/
def dropKey? (layout : Layout) : Option Layout :=
  if layout.keyStart.any KeyStart.required then none else some { layout with keyStart := none }

/-- The layout with the start of a key in a line and column, if a key may start.  In the column of
the innermost block a colon has to follow. -/
def startKey? (layout : Layout) (line column : Nat) : Option Layout :=
  if layout.keyAllowed then do
    let required := ! layout.inBrackets && layout.indents.head? = some column
    return { ← layout.dropKey? with
      keyStart := some ⟨layout.tokens.length, line, column, required⟩ }
  else some layout

/-- The layout with the sign for a key put where the key started, and before it, if need be, the
start of a block mapping. -/
def insertKey (layout : Layout) (start : KeyStart) : Layout :=
  let later := layout.tokens.length - start.position
  let earlier := { layout with tokens := layout.tokens.drop later }
  let keyed := (earlier.openBlock .blockMapping start.column).emit .key
  { keyed with
    tokens := layout.tokens.take later ++ keyed.tokens, keyStart := none, keyAllowed := false }

/-! ## Signs -/

/-- The sign for the start or the end of a document. -/
def readMarker? (layout : Layout) (token : Token) : Option Layout := do
  return { ← layout.closeAll.dropKey? with keyAllowed := false }.emit token

def readOpening? (layout : Layout) (token : Token) (line column : Nat) : Option Layout := do
  let layout ← layout.startKey? line column
  return { layout with
    outer := layout.keyStart :: layout.outer, keyStart := none, keyAllowed := true }.emit token

def readClosing? (layout : Layout) (token : Token) : Option Layout := do
  let layout ← layout.dropKey?
  return { layout with
    outer := layout.outer.tail, keyStart := layout.outer.head?.getD none
    keyAllowed := false }.emit token

def readSeparator? (layout : Layout) : Option Layout := do
  return { ← layout.dropKey? with keyAllowed := true }.emit .separator

def readDash? (layout : Layout) (column : Nat) : Option Layout :=
  if layout.inBrackets ∨ layout.keyAllowed then do
    let layout ← (layout.openBlock .blockSequence column).dropKey?
    return { layout with keyAllowed := true }.emit .entry
  else none

def readQuestion? (layout : Layout) (column : Nat) : Option Layout :=
  if layout.inBrackets ∨ layout.keyAllowed then do
    let layout ← (layout.openBlock .blockMapping column).dropKey?
    return { layout with keyAllowed := ! layout.inBrackets }.emit .key
  else none

/-- The colon after a key, or in front of a value whose key is written elsewhere or not at all. -/
def readColon? (layout : Layout) (line column : Nat) : Option Layout :=
  match layout.keyStart.filter fun start =>
      start.line = line && column ≤ start.column + 1024 with
  | some start => some ((layout.insertKey start).emit .value)
  | none =>
      if layout.inBrackets ∨ layout.keyAllowed then do
        let layout ← (layout.openBlock .blockMapping column).dropKey?
        return { layout with keyAllowed := ! layout.inBrackets }.emit .value
      else none

def finish? (layout : Layout) : Option (List Token) := do
  return (← layout.closeAll.dropKey?).tokens.reverse

end Layout

end Rendition.Yaml
