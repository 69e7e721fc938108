/-
# Rendition.Codec.Block -- blocks and documents in JSON

A block is an object with one member, like a node of inline content.  Metadata
may leave out any of its parts; what is left out is empty.  Attributes keep the
order of their members.
-/
import Rendition.Codec.Inline
import Rendition.Tree.Document

namespace Rendition

set_option autoImplicit false

/-! ## Attributes and metadata -/

namespace Attributes

def toJson (attributes : Attributes) : Json :=
  .object (attributes.entries.map fun entry => (entry.1, .string entry.2))

def ofJson? (json : Json) : Option Attributes := do
  let entries ← (← json.members?).mapM fun member => do return (member.1, ← member.2.string?)
  return ofList entries

end Attributes

namespace Meta

def toJson (info : Meta) : Json :=
  .object [("id", .ofOption .string info.id), ("roles", .ofStrings info.roles),
    ("options", .ofStrings info.options), ("attributes", info.attributes.toJson),
    ("title", Inline.listToJson info.title), ("span", info.span.toJson)]

def ofJson? (json : Json) : Option Meta := do
  let _ ← json.members?
  return ⟨← json.optional? Json.string? "id", ← json.defaulted? Json.strings? "roles" [],
    ← json.defaulted? Json.strings? "options" [],
    ← json.defaulted? Attributes.ofJson? "attributes" .empty,
    ← json.defaulted? Inline.listOfJson? "title" [], ← json.defaulted? Span.ofJson? "span" .unknown⟩

end Meta

/-! ## Kinds and tables -/

namespace ListKind

def all : List ListKind := [.unordered, .ordered, .callout]

def ofName? (name : String) : Option ListKind := all.find? fun kind => kind.name == name

end ListKind

namespace Admonition

def all : List Admonition := [.note, .tip, .important, .caution, .warning]

def ofName? (name : String) : Option Admonition := all.find? fun kind => kind.name == name

end Admonition

namespace Enclosure

def all : List Enclosure := [.sidebar, .example, .openBlock]

def tag : Enclosure → String
  | .sidebar => "Sidebar"
  | .example => "Example"
  | .openBlock => "Open"

def ofTag? (tag : String) : Option Enclosure := all.find? fun kind => kind.tag == tag

end Enclosure

namespace TableCell

def toJson (cell : TableCell) : Json :=
  .object [("text", .string cell.text), ("style", .ofOption .string cell.style)]

def ofJson? (json : Json) : Option TableCell := do
  return ⟨← (← json.field? "text").string?, ← json.optional? Json.string? "style"⟩

end TableCell

namespace TableRow

def toJson (row : TableRow) : Json :=
  .object [("header", .bool row.header), ("cells", .array (row.cells.map TableCell.toJson))]

def ofJson? (json : Json) : Option TableRow := do
  return ⟨← (← json.field? "header").bool?, ← (← json.field? "cells").listOf? TableCell.ofJson?⟩

end TableRow

/-! ## Blocks -/

namespace Block

mutual

def toJson : Block → Json
  | .paragraph info content =>
      .object [("Paragraph", .object [("meta", info.toJson),
        ("content", Inline.listToJson content)])]
  | .heading info level title =>
      .object [("DiscreteHeading", .object [("meta", info.toJson), ("level", .ofNat level.toNat),
        ("title", Inline.listToJson title)])]
  | .section info level title blocks =>
      .object [("Section", .object [("meta", info.toJson), ("level", .ofNat level.toNat),
        ("title", Inline.listToJson title), ("blocks", .array (toJsonAll blocks))])]
  | .listing info language body =>
      .object [("Listing", .object [("meta", info.toJson),
        ("language", .ofOption .string language), ("text", .string body)])]
  | .literal info body =>
      .object [("Literal", .object [("meta", info.toJson), ("text", .string body)])]
  | .math info formula =>
      .object [("MathBlock", .object [("meta", info.toJson),
        ("notation", .string formula.form.tag), ("body", .string formula.body)])]
  | .command info name target =>
      .object [("BlockMacro", .object [("meta", info.toJson), ("name", .string name),
        ("target", .string target)])]
  | .list info kind items =>
      .object [("List", .object [("meta", info.toJson), ("kind", .string kind.name),
        ("items", .array (toJsonItems items))])]
  | .descriptions info items =>
      .object [("DescriptionList", .object [("meta", info.toJson),
        ("items", .array (toJsonDescriptions items))])]
  | .table info rows =>
      .object [("Table", .object [("meta", info.toJson),
        ("rows", .array (rows.map TableRow.toJson))])]
  | .enclosure kind info blocks =>
      .object [(kind.tag, .object [("meta", info.toJson), ("blocks", .array (toJsonAll blocks))])]
  | .quote info attribution citation blocks =>
      .object [("Quote", .object [("meta", info.toJson),
        ("attribution", .ofOption .string attribution), ("citetitle", .ofOption .string citation),
        ("blocks", .array (toJsonAll blocks))])]
  | .admonition info kind blocks =>
      .object [("Admonition", .object [("meta", info.toJson), ("kind", .string kind.name),
        ("blocks", .array (toJsonAll blocks))])]
  | .verse info content attribution =>
      .object [("Verse", .object [("meta", info.toJson), ("content", Inline.listToJson content),
        ("attribution", .ofOption .string attribution)])]

def toJsonAll : List Block → List Json
  | [] => []
  | block :: rest => block.toJson :: toJsonAll rest

def toJsonItems : List (ListItem Block) → List Json
  | [] => []
  | ⟨marker, content, blocks⟩ :: rest =>
      .object [("marker", .string marker), ("content", Inline.listToJson content),
        ("blocks", .array (toJsonAll blocks))] :: toJsonItems rest

def toJsonDescriptions : List (DescriptionItem Block) → List Json
  | [] => []
  | ⟨terms, description, blocks⟩ :: rest =>
      .object [("terms", .array (terms.map Inline.listToJson)),
        ("description", Inline.listToJson description), ("blocks", .array (toJsonAll blocks))] ::
      toJsonDescriptions rest

end

def ofJson? (json : Json) : Option Block :=
  match json with
  | .object [(tag, body)] => do
      let info ← Meta.ofJson? (← body.field? "meta")
      let blocks? := body.nested? "blocks" fun element _ => ofJson? element
      match Enclosure.ofTag? tag with
      | some kind => return .enclosure kind info (← blocks?)
      | none =>
      match tag with
      | "Paragraph" => return .paragraph info (← Inline.listOfJson? (← body.field? "content"))
      | "DiscreteHeading" =>
          return .heading info (← (← body.field? "level").uint8?)
            (← Inline.listOfJson? (← body.field? "title"))
      | "Section" =>
          return .section info (← (← body.field? "level").uint8?)
            (← Inline.listOfJson? (← body.field? "title")) (← blocks?)
      | "Listing" =>
          return .listing info (← body.optional? Json.string? "language")
            (← (← body.field? "text").string?)
      | "Literal" => return .literal info (← (← body.field? "text").string?)
      | "MathBlock" =>
          let form ← MathForm.ofTag? (← (← body.field? "notation").string?)
          return .math info ⟨form, ← (← body.field? "body").string?⟩
      | "BlockMacro" =>
          return .command info (← (← body.field? "name").string?)
            (← (← body.field? "target").string?)
      | "List" =>
          let kind ← ListKind.ofName? (← (← body.field? "kind").string?)
          let items ← body.nested? "items" fun item _smaller => do
            return ListItem.mk (← (← item.field? "marker").string?)
              (← Inline.listOfJson? (← item.field? "content"))
              (← item.nested? "blocks" fun element _ => ofJson? element)
          return .list info kind items
      | "DescriptionList" =>
          let items ← body.nested? "items" fun item _smaller => do
            return DescriptionItem.mk (← (← item.field? "terms").listOf? Inline.listOfJson?)
              (← Inline.listOfJson? (← item.field? "description"))
              (← item.nested? "blocks" fun element _ => ofJson? element)
          return .descriptions info items
      | "Table" => return .table info (← (← body.field? "rows").listOf? TableRow.ofJson?)
      | "Quote" =>
          return .quote info (← body.optional? Json.string? "attribution")
            (← body.optional? Json.string? "citetitle") (← blocks?)
      | "Admonition" =>
          let kind ← Admonition.ofName? (← (← body.field? "kind").string?)
          return .admonition info kind (← blocks?)
      | "Verse" =>
          return .verse info (← Inline.listOfJson? (← body.field? "content"))
            (← body.optional? Json.string? "attribution")
      | _ => none
  | _ => none
termination_by sizeOf json
decreasing_by
  all_goals
    simp only [Json.object.sizeOf_spec, List.cons.sizeOf_spec, Prod.mk.sizeOf_spec]
    omega

end Block

/-! ## Documents -/

namespace Header

def toJson (header : Header) : Json :=
  .object [("title", Inline.listToJson header.title), ("span", header.span.toJson)]

def ofJson? (json : Json) : Option Header := do
  return ⟨← Inline.listOfJson? (← json.field? "title"), ← Span.ofJson? (← json.field? "span")⟩

end Header

namespace Document

def toJson (document : Document) : Json :=
  .object [("attributes", document.attributes.toJson),
    ("header", .ofOption Header.toJson document.header),
    ("blocks", .array (Block.toJsonAll document.blocks))]

def ofJson? (json : Json) : Option Document := do
  return ⟨← Attributes.ofJson? (← json.field? "attributes"),
    ← json.optional? Header.ofJson? "header", ← (← json.field? "blocks").listOf? Block.ofJson?⟩

end Document

end Rendition
