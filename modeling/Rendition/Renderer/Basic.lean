/-
# Rendition.Renderer.Basic -- how documents are shown

A renderer is a choice of output format, of a resolver for cross-references, of
a reader for table cells and of a navigation payload.  It holds no state.
-/
import Rendition.Cell.Parse
import Rendition.Markup.Backend
import Rendition.Markup.Plain
import Rendition.Tree.Document
import Rendition.Value.Json

namespace Rendition

set_option autoImplicit false

/-- A way to show documents. -/
structure Renderer where
  backend : Backend
  resolve : Resolver
  cells : String → List Inline
  navigation : Value

namespace Renderer

/-- The renderer of a backend with nothing else chosen. -/
def ofBackend (backend : Backend) : Renderer := ⟨backend, .none, Cell.parse, .null⟩

def withResolver (renderer : Renderer) (resolve : Resolver) : Renderer := { renderer with resolve }

def withCells (renderer : Renderer) (cells : String → List Inline) : Renderer :=
  { renderer with cells }

def withNavigation (renderer : Renderer) (navigation : Value) : Renderer :=
  { renderer with navigation }

def dialect (renderer : Renderer) : Dialect := renderer.backend.dialect renderer.resolve

/-- Inline content as markup, at a place if there is one. -/
def markup (renderer : Renderer) (place : Option Span) (content : List Inline) : Value :=
  .string (Inline.markupAll renderer.dialect place content)

/-- Literal text as markup. -/
def escaped (renderer : Renderer) (text : Option String) : Value :=
  .ofText? (text.map renderer.dialect.escape)

end Renderer

/-- Inline content as plain text. -/
def Value.plain (content : List Inline) : Value := .string (Inline.plainAll content)

/-- Attributes as a map of texts. -/
def Value.ofAttributes (attributes : Attributes) : Value :=
  .map (attributes.entries.map fun entry => (entry.1, .string entry.2))

end Rendition
