/-
# Rendition.Renderer.Blocks -- the contexts of blocks

Every block becomes one map, in its place: its kind, template, id, metadata and
title, and what its kind adds.  Containers hold the maps of their children.

A listing and a callout list directly after it share a bundle if some item of
the list has a number (`pairing?`).  Bundles are numbered in reading order; the
last serial number is threaded through the walk, and a list that opens no bundle
takes none.
-/
import Rendition.Callout.Annotate
import Rendition.Renderer.Basic

namespace Rendition.Renderer

set_option autoImplicit false

open Rendition.Callout

abbrev Entries := List (String × Value)

variable (renderer : Renderer)

def infoValue (info : Meta) : Value :=
  .map [("attributes", .ofAttributes info.attributes), ("options", .ofTexts info.options),
    ("roles", .ofTexts info.roles), ("role", .string info.roleText), ("id", .string info.idText)]

/-- What every block has, under a title. -/
def base (block : Block) (title : List Inline) : Entries :=
  [("kind", .string block.kind),
    ("template", .string (renderer.backend.templateName block.kind)),
    ("id", .string block.info.idText), ("meta", infoValue block.info),
    ("title", renderer.markup block.info.span.known? title), ("title_text", .plain title)]

/-- What a block has whose title is a heading: its block title is kept beside it. -/
def headingBase (block : Block) (heading : List Inline) : Entries :=
  renderer.base block heading ++
    [("block_title", renderer.markup block.info.span.known? block.info.title),
      ("block_title_text", .plain block.info.title)]

/-! ## Tables and listings -/

def cellValue (info : Meta) (cell : TableCell) : Value :=
  let content := renderer.cells cell.text
  .map [("content", renderer.markup info.span.known? content), ("text", .plain content),
    ("style", .ofText? cell.style)]

def rowValue (info : Meta) (row : TableRow) : Value :=
  .map [("header", .bool row.header), ("cells", .list (row.cells.map (renderer.cellValue info)))]

/-- What a listing has besides its base.  LaTeX shows callouts in the text itself. -/
def listingEntries (language : Option String) (text : String) (bundle : Option Bundle) : Entries :=
  let plain := [("language", Value.ofText? language), ("text", .string text),
    ("markup", .string (verbatim renderer.backend text))]
  match bundle with
  | none => plain
  | some bundle =>
      match annotate? renderer.backend bundle text with
      | none => plain
      | some annotated =>
          match renderer.backend with
          | .html | .docBook =>
              plain ++
                [("callout_base", .string bundle.base), ("callout_markup", .string annotated)]
          | .latex =>
              [("language", .ofText? language), ("callout_base", .string bundle.base),
                ("text", .string annotated), ("markup", .string annotated)]

def calloutValue (bundle : Option Bundle) (position : Nat) : Value :=
  match bundle with
  | none => .null
  | some bundle =>
      match bundle.itemOrdinal? position with
      | none => .null
      | some ordinal => .map [("ordinal", .int ordinal), ("id", .string (bundle.id ordinal))]

/-- The base of a bundle, as the last entry of a list. -/
def bundleEntries : Option Bundle → Entries
  | none => []
  | some bundle => [("callout_base", .string bundle.base)]

/-! ## Blocks -/

/-- The bundle that a block opens with the block after it, given the last serial number. -/
def pairing? (serial : UInt32) : Block → List Block → Option Bundle
  | .listing .., .list _ .callout items :: _ =>
      Bundle.ofMarkers? (items.map (·.marker)) (serial + 1)
  | _, _ => none

mutual

/-- The context of a block that may belong to a bundle, and the last serial number after it. -/
def block (bundle : Option Bundle) (serial : UInt32) : Block → Value × UInt32
  | .paragraph info content =>
      (.map (renderer.base (.paragraph info content) info.title ++
        [("content", renderer.markup info.span.known? content), ("text", .plain content)]), serial)
  | .heading info level title =>
      (.map (renderer.headingBase (.heading info level title) title ++
        [("level", .int level.toNat)]), serial)
  | .section info level title children =>
      let (values, serial) := blocks none serial children
      (.map (renderer.headingBase (.section info level title children) title ++
        [("level", .int level.toNat), ("blocks", .list values)]), serial)
  | .listing info language body =>
      (.map (renderer.base (.listing info language body) info.title ++
        renderer.listingEntries language body bundle), serial)
  | .literal info body =>
      (.map (renderer.base (.literal info body) info.title ++
        [("text", .string body), ("markup", .string (verbatim renderer.backend body))]), serial)
  | .math info formula =>
      (.map (renderer.base (.math info formula) info.title ++
        [("notation", .string formula.form.name), ("body", .string formula.body),
          ("markup", renderer.markup info.span.known? [.math formula true .unknown])]), serial)
  | .command info name target =>
      (.map (renderer.base (.command info name target) info.title ++
        [("name", .string name), ("target", .string target)]), serial)
  | .list info kind entries =>
      let (values, serial) := items info bundle 0 serial entries
      (.map (renderer.base (.list info kind entries) info.title ++
        [("list_kind", .string kind.name), ("items", .list values)] ++ bundleEntries bundle),
        serial)
  | .descriptions info entries =>
      let (values, serial) := descriptions info serial entries
      (.map (renderer.base (.descriptions info entries) info.title ++
        [("items", .list values)]), serial)
  | .table info rows =>
      (.map (renderer.base (.table info rows) info.title ++
        [("rows", .list (rows.map (renderer.rowValue info)))]), serial)
  | .enclosure kind info children =>
      let (values, serial) := blocks none serial children
      (.map (renderer.base (.enclosure kind info children) info.title ++
        [("blocks", .list values)]), serial)
  | .quote info attribution citation children =>
      let (values, serial) := blocks none serial children
      (.map (renderer.base (.quote info attribution citation children) info.title ++
        [("blocks", .list values), ("attribution", renderer.escaped attribution),
          ("citetitle", renderer.escaped citation)]), serial)
  | .admonition info kind children =>
      let (values, serial) := blocks none serial children
      (.map (renderer.base (.admonition info kind children) info.title ++
        [("blocks", .list values), ("name", .string kind.name), ("label", .string kind.label)]),
        serial)
  | .verse info content attribution =>
      (.map (renderer.base (.verse info content attribution) info.title ++
        [("content", renderer.markup info.span.known? content), ("text", .plain content),
          ("attribution", renderer.escaped attribution)]), serial)

/-- The contexts of a sequence of blocks; the first belongs to `bundle` if the block before it
opened one. -/
def blocks (bundle : Option Bundle) (serial : UInt32) : List Block → List Value × UInt32
  | [] => ([], serial)
  | first :: rest =>
      let opened := pairing? serial first rest
      let serial := if opened.isSome then serial + 1 else serial
      let (value, serial) := block (opened.or bundle) serial first
      let (values, serial) := blocks opened serial rest
      (value :: values, serial)

/-- The contexts of list items, from a position on. -/
def items (info : Meta) (bundle : Option Bundle) (position : Nat) (serial : UInt32) :
    List (ListItem Block) → List Value × UInt32
  | [] => ([], serial)
  | ⟨marker, content, children⟩ :: rest =>
      let (values, serial) := blocks none serial children
      let value := .map [("marker", .string marker),
        ("content", renderer.markup info.span.known? content), ("text", .plain content),
        ("blocks", .list values), ("callout", calloutValue bundle position)]
      let (others, serial) := items info bundle (position + 1) serial rest
      (value :: others, serial)

def descriptions (info : Meta) (serial : UInt32) :
    List (DescriptionItem Block) → List Value × UInt32
  | [] => ([], serial)
  | ⟨terms, description, children⟩ :: rest =>
      let (values, serial) := blocks none serial children
      let value := .map [("terms", .list (terms.map (renderer.markup info.span.known?))),
        ("terms_text", .list (terms.map Value.plain)),
        ("description", renderer.markup info.span.known? description),
        ("description_text", .plain description), ("blocks", .list values)]
      let (others, serial) := descriptions info serial rest
      (value :: others, serial)

end

end Rendition.Renderer
