/-
# Rendition.Renderer.Root -- the context of a document

Footnotes are numbered first, the index is collected from the numbered document,
and the blocks are walked last.  Nothing is kept from one document to the next.
-/
import Rendition.Footnote.Resolve
import Rendition.Index.Collect
import Rendition.Renderer.Blocks

namespace Rendition.Renderer

set_option autoImplicit false

def footnoteValue (renderer : Renderer) (definition : Footnote.Definition) : Value :=
  .map [("id", .int definition.id.toNat), ("content", renderer.markup none definition.content),
    ("text", .plain definition.content)]

def secondaryValue (secondary : Index.Secondary) : Value :=
  .map [("name", .string secondary.name), ("tertiaries", .ofTexts secondary.tertiaries)]

def entryValue (entry : Index.Entry) : Value :=
  .map [("primary", .string entry.primary),
    ("secondaries", .list (entry.secondaries.map secondaryValue))]

def catalogValue (catalog : Index.Catalog) : Value := .list (catalog.entries.map entryValue)

def context (renderer : Renderer) (document : Document) : Value :=
  let resolved := Footnote.resolveDocument document
  let document := resolved.document
  .map [("backend", .string renderer.backend.name),
    ("attributes", .ofAttributes document.attributes), ("title", .plain document.title),
    ("title_markup", renderer.markup none document.title),
    ("blocks", .list (renderer.blocks none 0 document.blocks).1),
    ("footnotes", .list (resolved.definitions.map renderer.footnoteValue)),
    ("index", catalogValue (Index.collect document)), ("navigation", renderer.navigation)]

end Rendition.Renderer
