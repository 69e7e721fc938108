/-
# Rendition.Escape -- literal text in the output formats

Each escape replaces characters one by one, so that the escape of a
concatenation is the concatenation of the escapes.
-/
import Rendition.Text.Substitution

namespace Rendition.Escape

set_option autoImplicit false

open Rendition.Text

/-- A character as HTML text: the four reserved characters are entities, the apostrophe stays. -/
def htmlEntity (c : Char) : String :=
  if c = '&' then "&amp;"
  else if c = '<' then "&lt;"
  else if c = '>' then "&gt;"
  else if c = '\x22' then "&quot;"
  else String.singleton c

/-- A character of an HTML attribute value: as in text, and the apostrophe as a number. -/
def attributeEntity (c : Char) : String :=
  if c = '\x27' then "&#39;" else htmlEntity c

/-- A character in XML: all five reserved characters are entities. -/
def xmlEntity (c : Char) : String :=
  if c = '\x27' then "&apos;" else htmlEntity c

/-- A character as LaTeX text: the ten special characters as commands. -/
def latexCommand (c : Char) : String :=
  if c = '\\' then "\\textbackslash\x7b\x7d"
  else if c = '~' then "\\textasciitilde\x7b\x7d"
  else if c = '^' then "\\textasciicircum\x7b\x7d"
  else if "\x7b\x7d$&#_%".toList.contains c then String.ofList ['\\', c]
  else String.singleton c

/-- A character of a LaTeX address: only the comment and parameter characters are escaped. -/
def addressCommand (c : Char) : String :=
  if c = '%' ∨ c = '#' then String.ofList ['\\', c] else String.singleton c

/-- A character of an index entry: its separators are quoted. -/
def indexQuote (c : Char) : String :=
  if "!@|\"".toList.contains c then String.ofList ['\x22', c] else String.singleton c

def html (text : String) : String := substitute htmlEntity text

/-- An attribute value in HTML. -/
def attributeValue (text : String) : String := substitute attributeEntity text

/-- Text or an attribute value in XML. -/
def xml (text : String) : String := substitute xmlEntity text

def latex (text : String) : String := substitute latexCommand text

/-- An address in an argument of a LaTeX command. -/
def latexAddress (text : String) : String := substitute addressCommand text

/-- LaTeX text as one level of an index entry. -/
def indexLevel (text : String) : String := substitute indexQuote (latex text)

end Rendition.Escape
