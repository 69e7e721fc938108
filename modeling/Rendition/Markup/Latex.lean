/-
# Rendition.Markup.Latex -- inline content in LaTeX

Cross-references are left for LaTeX to resolve.  Addresses in arguments are
escaped more lightly than text.
-/
import Rendition.Escape
import Rendition.Markup.Command
import Rendition.Markup.Dialect
import Rendition.Math.MathML

namespace Rendition.Latex

set_option autoImplicit false

def braced (content : String) : String := "\x7b" ++ content ++ "\x7d"

def call (name : String) (arguments : List String) : String :=
  "\\" ++ name ++ String.join (arguments.map braced)

/-- An optional argument in square brackets. -/
def bracketed (content : String) : String := "[" ++ content ++ "]"

def styleCommand : Style → String
  | .strong => "textbf"
  | .emphasis => "emph"
  | .monospace => "texttt"
  | .mark => "hl"
  | .superscript => "textsuperscript"
  | .subscript => "textsubscript"

/-- A cross-reference: its content as a link, or the number of its target. -/
def crossReference (target : Target) (content : String) : String :=
  let label := Escape.latexAddress target.label
  if content.isEmpty then call "ref" [label]
  else "\\hyperref" ++ bracketed label ++ braced content

/-- Math as written, set off as a block or inside a line. -/
def math (formula : Formula) (display : Bool) : String :=
  let source := Math.latexSource formula.form formula.body
  if display then "\\[" ++ source ++ "\\]" else "\\(" ++ source ++ "\\)"

def command (command : Command) : String :=
  let target := command.target.getD ""
  if command.name = "image" then call "includegraphics" [Escape.latexAddress target]
  else if command.name = "icon" then call "faIcon" [Escape.latex target]
  else if command.name = "kbd" then
    call "keys" [" + ".intercalate (command.keys.map Escape.latex)]
  else if command.name = "btn" then call "fbox" [Escape.latex command.body]
  else if command.name = "menu" then
    call "menu" [" > ".intercalate (command.menuPath.map Escape.latex)]
  else
    call "unknownmacro" [Escape.latex command.name, Escape.latex target, Escape.latex command.body]

/-- A footnote where it is defined. -/
def footnoteDefinition (id : Option UInt32) (content : String) : String :=
  match id with
  | some id =>
      "\\footnote" ++ bracketed id.toNat.repr ++
        braced (call "label" ["fn-" ++ id.toNat.repr] ++ content)
  | none => call "footnote" [content]

/-- The mark of an index term: its levels with exclamation marks between. -/
def indexTerm (terms : List String) : String :=
  if terms.isEmpty then ""
  else call "index" ["!".intercalate (terms.map fun term => Escape.indexLevel (Text.trimmed term))]

def dialect : Dialect where
  escape := Escape.latex
  styled style content := call (styleCommand style) [content]
  link target content := call "href" [Escape.latexAddress target, content]
  crossReference target _ content := crossReference target content
  math := math
  command := command
  footnoteReference id := "\\footnotemark" ++ bracketed id.toNat.repr
  footnoteDefinition := footnoteDefinition
  indexTerm := indexTerm

end Rendition.Latex
