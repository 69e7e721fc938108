/-
# Rendition.Yaml.Place -- characters with their lines and columns

What a character means depends on where it stands: a marker stands at the start
of a line, columns open and close blocks, and a key ends in the line in which it
starts.  `places` gives every character its line and its column, and everything
after it reads a list of such places.

A carriage return and the next-line control break a line as a newline does, and
are read as one.  The separators U+2028 and U+2029 break a line too, but stay
what they are.  No other character is changed, and none is left out.
-/
namespace Rendition.Yaml

set_option autoImplicit false

/-- A character with the line and the column in which it stands. -/
structure Place where
  char : Char
  line : Nat
  column : Nat

/-! ## Characters -/

/-- Whether a character may stand in a document. -/
def isPrintable (c : Char) : Bool :=
  let code := c.toNat
  code == 0x09 || code == 0x0A || code == 0x0D || (0x20 ≤ code && code ≤ 0x7E) || code == 0x85 ||
    (0xA0 ≤ code && code != 0xFFFE && code != 0xFFFF)

def isBreak (c : Char) : Bool := c = '\n' || c = '\u2028' || c = '\u2029'

/-- Whether a character stands between words: a space, a tab or a line break. -/
def isBlank (c : Char) : Bool := c = ' ' || c = '\t' || isBreak c

/-! ## Lines and columns -/

/-- The text with a newline for every break that is written in another way. -/
def unifyBreaks : List Char → List Char
  | [] => []
  | '\r' :: '\n' :: cs => '\n' :: unifyBreaks cs
  | c :: cs => (if c = '\r' || c = '\u0085' then '\n' else c) :: unifyBreaks cs

/-- The places of a text that starts in a line and column. -/
def placesFrom (line column : Nat) : List Char → List Place
  | [] => []
  | c :: cs =>
      ⟨c, line, column⟩ ::
        if isBreak c then placesFrom (line + 1) 0 cs else placesFrom line (column + 1) cs

def places (cs : List Char) : List Place := placesFrom 0 0 (unifyBreaks cs)

def chars (places : List Place) : List Char := places.map Place.char

/-! ## What stands in front -/

/-- Whether the text ends or goes on with a blank. -/
def isEdge (places : List Place) : Bool := places.head?.all fun place => isBlank place.char

/-- Whether a line starts with three of a character and then ends or goes on with a blank. -/
def isMarker (c : Char) (places : List Place) : Bool :=
  places.head?.any (·.column = 0) && chars (places.take 3) = [c, c, c] && isEdge (places.drop 3)

/-- Whether a document starts or ends here. -/
def isDocumentMarker (places : List Place) : Bool := isMarker '-' places || isMarker '.' places

/-- The blanks in front, and the text from the first character that is none. -/
def splitGap (places : List Place) : List Place × List Place :=
  places.span fun place => isBlank place.char

end Rendition.Yaml
