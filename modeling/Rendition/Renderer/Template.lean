/-
# Rendition.Renderer.Template -- contexts handed to a template engine

An engine takes the name of a template and a context and gives the output text
or says why there is none.  Its errors reach the caller as they are.
-/
import Rendition.Renderer.Root

namespace Rendition

set_option autoImplicit false

/-- Why a template gave no output. -/
inductive TemplateError where
  | notFound (name : String)
  | malformed (name message : String)
  | evaluation (message : String)
  deriving DecidableEq

def TemplateError.message : TemplateError → String
  | .notFound name => "Template error: Template not found: " ++ name
  | .malformed name message =>
      "Template error: Template syntax error in " ++ name ++ ": " ++ message
  | .evaluation message => "Template error: Evaluation error: " ++ message

abbrev TemplateEngine := (name : String) → (context : Value) → Except TemplateError String

def Renderer.render (renderer : Renderer) (engine : TemplateEngine) (template : String)
    (document : Document) : Except TemplateError String :=
  engine template (renderer.context document)

end Rendition
