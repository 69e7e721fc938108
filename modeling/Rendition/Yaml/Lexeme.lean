/-
# Rendition.Yaml.Lexeme -- the texts of scalars

A scalar is a run of words with gaps between them.  A gap inside a line is kept
as it is written; of a gap with line breaks only the breaks count, and a single
newline is a space (`folded`).

A plain scalar ends at a colon before a blank, at a number sign after one, at a
document marker, inside brackets at a comma or bracket, and outside of them at a
column below its `floor`.  A quoted scalar ends at its closing quote and nowhere
else.  Every word and every character consumes a place, so the number of places
bounds the recursion.
-/
import Rendition.Yaml.Place
import Rendition.Yaml.Scalar

namespace Rendition.Yaml

set_option autoImplicit false

/-- The text that a gap between two words stands for. -/
def folded (gap : List Char) : List Char :=
  match gap.filter isBreak with
  | [] => gap
  | ['\n'] => [' ']
  | '\n' :: breaks => breaks
  | breaks => breaks

/-! ## Plain scalars -/

/-- A plain scalar: its text, whether a line break was read after it, and what follows. -/
structure Lexeme where
  text : List Char
  isBroken : Bool
  rest : List Place

/-- The characters that stand for themselves in brackets only. -/
def isBracketChar (c : Char) : Bool := ",[]\x7b\x7d".toList.contains c

/-- Whether a plain scalar can start with a character that is no indicator where it stands. -/
def startsPlain (c : Char) : Bool :=
  ! isBlank c && ! ",[]\x7b\x7d#&*!|>\x27\"%@\x60".toList.contains c

/-- The characters of a word of a plain scalar, and what follows; none for a colon that must not
stand in brackets. -/
def readWord? (inBrackets : Bool) : List Place → Option (List Char × List Place)
  | [] => some ([], [])
  | here :: rest =>
      if isBlank here.char ∨ (here.char = ':' ∧ isEdge rest) ∨
          (inBrackets ∧ isBracketChar here.char) then
        some ([], here :: rest)
      else if here.char = ':' ∧ inBrackets ∧
          rest.head?.any (fun next => isBracketChar next.char || next.char = '?') then
        none
      else (readWord? inBrackets rest).map fun (word, rest) => (here.char :: word, rest)

/-- Whether a tab stands in the indentation of a later line, at a column below `floor`. -/
def hasTabBelow (floor : Nat) (gap : List Place) : Bool :=
  (gap.dropWhile fun place => ! isBreak place.char).any fun place =>
    place.char = '\t' && place.column < floor

/-- Whether a plain scalar ends after a gap, before what follows. -/
def endsPlain (inBrackets : Bool) (floor : Nat) (rest : List Place) : Bool :=
  isDocumentMarker rest || rest.head?.all fun next =>
    next.char = '#' || (! inBrackets && next.column < floor)

/-- The words of a plain scalar with the gaps between them; none if a tab or a colon stands where it
must not. -/
def readPlain? (inBrackets : Bool) (floor : Nat) : (fuel : Nat) → List Place → Option Lexeme
  | 0, _ => none
  | fuel + 1, places => do
      let (word, afterWord) ← readWord? inBrackets places
      let (gap, rest) := splitGap afterWord
      let last : Lexeme := ⟨word, (chars gap).any isBreak, rest⟩
      if hasTabBelow floor gap then none
      else if gap.isEmpty ∨ endsPlain inBrackets floor rest then return last
      else
        let more ← readPlain? inBrackets floor fuel rest
        if more.text.isEmpty then return last
        else return { more with text := word ++ folded (chars gap) ++ more.text }

def plain? (inBrackets : Bool) (floor : Nat) (places : List Place) : Option Lexeme :=
  readPlain? inBrackets floor (places.length + 1) places

/-! ## Quoted scalars -/

/-- The characters that letters stand for after a backslash. -/
def escapes : List (Char × Char) := [
  ('0', '\x00'), ('a', '\x07'), ('b', '\x08'), ('t', '\t'), ('\t', '\t'), ('n', '\n'),
  ('v', '\x0b'), ('f', '\x0c'), ('r', '\r'), ('e', '\x1b'), (' ', ' '), ('\x22', '\x22'),
  ('/', '/'), ('\\', '\\'), ('N', '\u0085'), ('_', '\u00a0'), ('L', '\u2028'), ('P', '\u2029')]

/-- The number of hexadecimal digits after a backslash and a letter. -/
def escapeWidths : List (Char × Nat) := [('x', 2), ('u', 4), ('U', 8)]

/-- The character of hexadecimal digits. -/
def codePoint? (digits : List Char) : Option Char := do
  let code ← digits? 16 digits
  if code < 0x110000 then Json.plainChar? code else none

/-- The text that stands after a backslash, and what follows.  A line break there leaves only the
breaks after it. -/
def readEscape? : List Place → Option (List Char × List Place)
  | [] => none
  | here :: rest =>
      if isBreak here.char then
        let (gap, rest) := splitGap rest
        some ((chars gap).filter isBreak, rest)
      else match escapeWidths.lookup here.char with
        | some width => do return ([← codePoint? (chars (rest.take width))], rest.drop width)
        | none => do return ([← escapes.lookup here.char], rest)

/-- The text up to the closing quote, and what follows it; none at a document marker.  Two
apostrophes stand for one between apostrophes; a backslash escapes between quotation marks. -/
def readQuoted? (quote : Char) : (fuel : Nat) → List Place → Option (List Char × List Place)
  | 0, _ => none
  | _ + 1, [] => none
  | fuel + 1, here :: rest =>
      let continued (text : List Char) (rest : List Place) : Option (List Char × List Place) :=
        (readQuoted? quote fuel rest).map fun (more, rest) => (text ++ more, rest)
      if isDocumentMarker (here :: rest) then none
      else if isBlank here.char then
        let (gap, rest) := splitGap (here :: rest)
        continued (folded (chars gap)) rest
      else if here.char = quote then
        if quote = '\x27' ∧ rest.head?.any (·.char = '\x27') then continued ['\x27'] (rest.drop 1)
        else some ([], rest)
      else if here.char = '\\' ∧ quote = '\x22' then do
        let (text, rest) ← readEscape? rest
        continued text rest
      else continued [here.char] rest

/-- The quoted scalar after its opening quote, and what follows it. -/
def quoted? (quote : Char) (places : List Place) : Option (List Char × List Place) :=
  readQuoted? quote (places.length + 1) places

end Rendition.Yaml
