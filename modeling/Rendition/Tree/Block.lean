/-
# Rendition.Tree.Block -- the blocks of a document

Sixteen kinds of blocks; sidebars, examples and open blocks share one
constructor.  List items and description items are structures over the type of
their child blocks.
-/
import Rendition.Tree.Meta

namespace Rendition

set_option autoImplicit false

inductive ListKind where
  | unordered
  | ordered
  | callout
  deriving DecidableEq

/-- The kinds of blocks that hold nothing but other blocks. -/
inductive Enclosure where
  | sidebar
  | example
  | openBlock
  deriving DecidableEq

inductive Admonition where
  | note
  | tip
  | important
  | caution
  | warning
  deriving DecidableEq

def ListKind.name : ListKind → String
  | .unordered => "unordered"
  | .ordered => "ordered"
  | .callout => "callout"

def Enclosure.name : Enclosure → String
  | .sidebar => "sidebar"
  | .example => "example"
  | .openBlock => "open"

def Admonition.name : Admonition → String
  | .note => "note"
  | .tip => "tip"
  | .important => "important"
  | .caution => "caution"
  | .warning => "warning"

/-- The label that readers see on an admonition. -/
def Admonition.label : Admonition → String
  | .note => "Note"
  | .tip => "Tip"
  | .important => "Important"
  | .caution => "Caution"
  | .warning => "Warning"

/-- An item of a list, over blocks of type `β`. -/
structure ListItem (β : Type) where
  marker : String
  content : List Inline
  blocks : List β

/-- An item of a description list, over blocks of type `β`. -/
structure DescriptionItem (β : Type) where
  terms : List (List Inline)
  description : List Inline
  blocks : List β

/-- A table cell: raw text that is parsed when the table is rendered. -/
structure TableCell where
  text : String
  style : Option String
  deriving DecidableEq

structure TableRow where
  header : Bool
  cells : List TableCell
  deriving DecidableEq

inductive Block where
  | paragraph (info : Meta) (content : List Inline)
  | heading (info : Meta) (level : UInt8) (title : List Inline)
  | section (info : Meta) (level : UInt8) (title : List Inline) (blocks : List Block)
  | listing (info : Meta) (language : Option String) (text : String)
  | literal (info : Meta) (text : String)
  | math (info : Meta) (formula : Formula)
  | command (info : Meta) (name target : String)
  | list (info : Meta) (kind : ListKind) (items : List (ListItem Block))
  | descriptions (info : Meta) (items : List (DescriptionItem Block))
  | table (info : Meta) (rows : List TableRow)
  | enclosure (kind : Enclosure) (info : Meta) (blocks : List Block)
  | quote (info : Meta) (attribution citation : Option String) (blocks : List Block)
  | admonition (info : Meta) (kind : Admonition) (blocks : List Block)
  | verse (info : Meta) (content : List Inline) (attribution : Option String)

namespace Block

/-- The kind of a block, as templates and indexes name it. -/
def kind : Block → String
  | .paragraph .. => "paragraph"
  | .heading .. => "discrete_heading"
  | .section .. => "section"
  | .listing .. => "listing"
  | .literal .. => "literal"
  | .math .. => "math"
  | .command .. => "block_macro"
  | .list .. => "list"
  | .descriptions .. => "dlist"
  | .table .. => "table"
  | .enclosure kind .. => kind.name
  | .quote .. => "quote"
  | .admonition .. => "admonition"
  | .verse .. => "verse"

def info : Block → Meta
  | .paragraph info _ | .heading info _ _ | .section info _ _ _ | .listing info _ _
  | .literal info _ | .math info _ | .command info _ _ | .list info _ _ | .descriptions info _
  | .table info _ | .enclosure _ info _ | .quote info _ _ _ | .admonition info _ _
  | .verse info _ _ => info

def withInfo (info : Meta) : Block → Block
  | .paragraph _ content => .paragraph info content
  | .heading _ level title => .heading info level title
  | .section _ level title blocks => .section info level title blocks
  | .listing _ language text => .listing info language text
  | .literal _ text => .literal info text
  | .math _ formula => .math info formula
  | .command _ name target => .command info name target
  | .list _ kind items => .list info kind items
  | .descriptions _ items => .descriptions info items
  | .table _ rows => .table info rows
  | .enclosure kind _ blocks => .enclosure kind info blocks
  | .quote _ attribution citation blocks => .quote info attribution citation blocks
  | .admonition _ kind blocks => .admonition info kind blocks
  | .verse _ content attribution => .verse info content attribution

@[simp] theorem info_withInfo (info : Meta) (block : Block) :
    (block.withInfo info).info = info := by
  cases block <;> rfl

@[simp] theorem kind_withInfo (info : Meta) (block : Block) :
    (block.withInfo info).kind = block.kind := by
  cases block <;> rfl

end Block

end Rendition
