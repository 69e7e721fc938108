/-
# Rendition.Yaml.Tokenize -- from places to tokens

Between two tokens stand spaces, comments and line breaks; tabs too, but not
where a key may start, since there they would be indentation.  Outside of
brackets a key may start after a line break.  A byte-order mark at the start of
a line is nothing but a column.

A dash, a question mark or a colon is a sign of its own only before a blank;
inside brackets the last two always are.  Anchors, tags, directives and block
scalars are not read, so their signs start no token.

Every token consumes a place, so the number of places bounds the recursion.
-/
import Rendition.Yaml.Layout
import Rendition.Yaml.Lexeme

namespace Rendition.Yaml

set_option autoImplicit false

/-- What follows the blanks and comments in front of a token, and whether a key may start there. -/
def skipFiller (inBrackets : Bool) : (inComment keyAllowed : Bool) → List Place →
    Bool × List Place
  | _, keyAllowed, [] => (keyAllowed, [])
  | inComment, keyAllowed, here :: rest =>
      if isBreak here.char then skipFiller inBrackets false (keyAllowed || ! inBrackets) rest
      else if inComment ∨ here.char = ' ' ∨ (here.char = '\t' ∧ (inBrackets ∨ ! keyAllowed)) ∨
          (here.char = '\ufeff' ∧ here.column = 0) then
        skipFiller inBrackets inComment keyAllowed rest
      else if here.char = '#' then skipFiller inBrackets true keyAllowed rest
      else (keyAllowed, here :: rest)

namespace Layout

def readQuoted? (layout : Layout) (here : Place) (rest : List Place) :
    Option (Layout × List Place) := do
  let layout ← layout.startKey? here.line here.column
  let (text, rest) ← quoted? here.char rest
  return ({ layout with keyAllowed := false }.emit (.quoted (String.ofList text)), rest)

def readPlain? (layout : Layout) (here : Place) (rest : List Place) :
    Option (Layout × List Place) := do
  let layout ← layout.startKey? here.line here.column
  let scalar ← plain? layout.inBrackets layout.floor (here :: rest)
  return ({ layout with keyAllowed := scalar.isBroken }.emit (.plain (String.ofList scalar.text)),
    scalar.rest)

/-- The layout after the token that starts with a character, and what follows it. -/
def readToken? (layout : Layout) (here : Place) (rest : List Place) :
    Option (Layout × List Place) :=
  let isSign := layout.inBrackets || isEdge rest
  let sign (next : Option Layout) : Option (Layout × List Place) := next.map (·, rest)
  if isMarker '-' (here :: rest) then
    (layout.readMarker? .documentStart).map (·, rest.drop 2)
  else if isMarker '.' (here :: rest) then
    (layout.readMarker? .documentEnd).map (·, rest.drop 2)
  else if here.char = '[' then sign (layout.readOpening? .openBracket here.line here.column)
  else if here.char = '\x7b' then sign (layout.readOpening? .openBrace here.line here.column)
  else if here.char = ']' then sign (layout.readClosing? .closeBracket)
  else if here.char = '\x7d' then sign (layout.readClosing? .closeBrace)
  else if here.char = ',' then sign layout.readSeparator?
  else if here.char = '-' ∧ isEdge rest then sign (layout.readDash? here.column)
  else if here.char = '?' ∧ isSign then sign (layout.readQuestion? here.column)
  else if here.char = ':' ∧ isSign then sign (layout.readColon? here.line here.column)
  else if here.char = '\x27' ∨ here.char = '\x22' then layout.readQuoted? here rest
  else if startsPlain here.char then layout.readPlain? here rest
  else none

/-- The tokens of a text that goes on with these places. -/
def readTokens? : (fuel : Nat) → Layout → List Place → Option (List Token)
  | 0, _, _ => none
  | fuel + 1, layout, places =>
      let (keyAllowed, places) := skipFiller layout.inBrackets false layout.keyAllowed places
      let layout := { layout with keyAllowed }
      match places with
      | [] => layout.finish?
      | here :: rest => do
          let (layout, rest) ← (layout.closeDeeper here.column).readToken? here rest
          layout.readTokens? fuel rest

end Layout

/-- The tokens of a text; none if a sign or a character stands where it must not. -/
def tokens? (places : List Place) : Option (List Token) :=
  Layout.start.readTokens? (places.length + 1) places

end Rendition.Yaml
