/-
# Rendition.Tree.Inline -- the inline content of a document

Text, formatting, links and references, math, macros, footnotes and index
terms.  The six formatting kinds share one constructor and differ in their
`Style`.
-/
import Rendition.Tree.Span

namespace Rendition

set_option autoImplicit false

inductive Style where
  | strong
  | emphasis
  | monospace
  | mark
  | superscript
  | subscript
  deriving DecidableEq

def Style.all : List Style := [.strong, .emphasis, .monospace, .mark, .superscript, .subscript]

/-- What a cross-reference points at: the target as written, and the parts it was resolved to. -/
structure Target where
  moduleName : Option String
  family : Option String
  resource : Option String
  fragment : Option String
  raw : String
  deriving DecidableEq

/-- A target of which only the written form is known. -/
def Target.ofRaw (raw : String) : Target := ⟨none, none, none, none, raw⟩

inductive MathForm where
  | latex
  | asciiMath
  deriving DecidableEq

/-- The name under which a form is announced to templates. -/
def MathForm.name : MathForm → String
  | .latex => "latexmath"
  | .asciiMath => "asciimath"

structure Formula where
  form : MathForm
  body : String
  deriving DecidableEq

/-- A named macro with an optional target, such as `image:target[body]`. -/
structure Command where
  name : String
  target : Option String
  body : String
  deriving DecidableEq

/-- A node of inline content.  A footnote has its number in `id` once it is resolved. -/
inductive Inline where
  | text (text : String) (span : Span)
  | styled (style : Style) (content : List Inline) (span : Span)
  | link (target : String) (content : List Inline) (span : Span)
  | crossReference (target : Target) (content : List Inline) (span : Span)
  | math (formula : Formula) (display : Bool) (span : Span)
  | passthrough (text : String) (span : Span)
  | command (command : Command) (span : Span)
  | footnote (content : List Inline) (key : Option String) (id : Option UInt32) (span : Span)
  | indexTerm (terms : List String) (visible : Bool) (span : Span)

namespace Inline

def span : Inline → Span
  | .text _ span | .styled _ _ span | .link _ _ span | .crossReference _ _ span
  | .math _ _ span | .passthrough _ span | .command _ span | .footnote _ _ _ span
  | .indexTerm _ _ span => span

/-- A text without a place in the source. -/
def ofText (text : String) : Inline := .text text .unknown

/-- Formatted content without a place in the source. -/
def ofStyled (style : Style) (content : List Inline) : Inline := .styled style content .unknown

end Inline

end Rendition
