/-
# Rendition.Tree.Document -- documents

A document is a header, attributes and blocks.
-/
import Rendition.Tree.Block

namespace Rendition

set_option autoImplicit false

structure Header where
  title : List Inline
  span : Span

structure Document where
  attributes : Attributes
  header : Option Header
  blocks : List Block

namespace Document

def empty : Document := ⟨.empty, none, []⟩

def withTitle (document : Document) (title : List Inline) : Document :=
  { document with header := some ⟨title, .unknown⟩ }

def withAttribute (document : Document) (key value : String) : Document :=
  { document with attributes := document.attributes.insert key value }

def withBlock (document : Document) (block : Block) : Document :=
  { document with blocks := document.blocks ++ [block] }

/-- The header title; empty without a header. -/
def title (document : Document) : List Inline :=
  match document.header with
  | some header => header.title
  | none => []

end Document

end Rendition
