/-
# Rendition.Markup.Backend -- the output formats

A backend is known by its name and by one more spelling, in any letter case.
The Kelvin sign counts as the letter `k`, whose capital form it is.
-/
import Rendition.Markup.DocBook
import Rendition.Markup.Html
import Rendition.Markup.Latex

namespace Rendition

set_option autoImplicit false

inductive Backend where
  | html
  | docBook
  | latex
  deriving DecidableEq, Inhabited

namespace Backend

def name : Backend → String
  | .html => "html"
  | .docBook => "docbook"
  | .latex => "latex"

/-- The small form of a letter that may stand in a backend name. -/
def lower (c : Char) : Char := if c = '\u212a' then 'k' else c.toLower

def ofName? (name : String) : Option Backend :=
  let name := name.map lower
  if name = "html" ∨ name = "html5" then some .html
  else if name = "docbook" ∨ name = "docbook5" then some .docBook
  else if name = "latex" ∨ name = "tex" then some .latex
  else none

/-- What is reported of a name that is no backend. -/
def unknownMessage (name : String) : String := "Unknown backend: " ++ name

/-- The template for blocks of a kind. -/
def templateName (backend : Backend) (kind : String) : String := backend.name ++ "/" ++ kind

/-- The dialect of a backend.  Only HTML asks the resolver. -/
def dialect (backend : Backend) (resolve : Resolver) : Dialect :=
  match backend with
  | .html => Html.dialect resolve
  | .docBook => DocBook.dialect
  | .latex => Latex.dialect

def escape (backend : Backend) (text : String) : String :=
  (backend.dialect .none).escape text

end Backend

end Rendition
