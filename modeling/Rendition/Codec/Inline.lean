/-
# Rendition.Codec.Inline -- inline content in JSON

A node is an object with one member: its kind, and under it an object of its
parts.  Every part is written, an absent one as null.  Reading accepts an absent
optional part, ignores members it does not know, and converts nothing.
-/
import Rendition.Json.Nested
import Rendition.Tree.Inline

namespace Rendition

set_option autoImplicit false

/-! ## Spans and leaves -/

def Json.uint64? (json : Json) : Option UInt64 := (json.natural? UInt64.size).map UInt64.ofNat

def Json.uint32? (json : Json) : Option UInt32 := (json.natural? UInt32.size).map UInt32.ofNat

def Json.uint8? (json : Json) : Option UInt8 := (json.natural? UInt8.size).map UInt8.ofNat

namespace Location

def toJson (location : Location) : Json :=
  .object [("offset", .ofNat location.offset.toNat), ("row", .ofNat location.row.toNat),
    ("column", .ofNat location.column.toNat)]

def ofJson? (json : Json) : Option Location := do
  return ⟨← (← json.field? "offset").uint64?, ← (← json.field? "row").uint64?,
    ← (← json.field? "column").uint64?⟩

end Location

namespace Span

def toJson (span : Span) : Json :=
  .object [("start", span.start.toJson), ("end", span.stop.toJson)]

def ofJson? (json : Json) : Option Span := do
  return ⟨← Location.ofJson? (← json.field? "start"), ← Location.ofJson? (← json.field? "end")⟩

end Span

namespace Target

def toJson (target : Target) : Json :=
  .object [("module", .ofOption .string target.moduleName),
    ("family", .ofOption .string target.family), ("resource", .ofOption .string target.resource),
    ("fragment", .ofOption .string target.fragment), ("raw", .string target.raw)]

def ofJson? (json : Json) : Option Target := do
  return ⟨← json.optional? Json.string? "module", ← json.optional? Json.string? "family",
    ← json.optional? Json.string? "resource", ← json.optional? Json.string? "fragment",
    ← (← json.field? "raw").string?⟩

end Target

namespace MathForm

def tag : MathForm → String
  | .latex => "latex"
  | .asciiMath => "asciimath"

def ofTag? (tag : String) : Option MathForm :=
  if tag = "latex" then some .latex else if tag = "asciimath" then some .asciiMath else none

end MathForm

namespace Style

/-- The kind under which formatted content is written. -/
def tag : Style → String
  | .strong => "Strong"
  | .emphasis => "Emphasis"
  | .monospace => "Monospace"
  | .mark => "Mark"
  | .superscript => "Superscript"
  | .subscript => "Subscript"

def ofTag? (tag : String) : Option Style := all.find? fun style => style.tag == tag

end Style

/-! ## Nodes -/

namespace Inline

mutual

def toJson : Inline → Json
  | .text body span => .object [("Text", .object [("text", .string body), ("span", span.toJson)])]
  | .styled style content span =>
      .object [(style.tag,
        .object [("content", .array (toJsonAll content)), ("span", span.toJson)])]
  | .link target content span =>
      .object [("Link", .object [("target", .string target),
        ("content", .array (toJsonAll content)), ("span", span.toJson)])]
  | .crossReference target content span =>
      .object [("CrossReference", .object [("target", target.toJson),
        ("content", .array (toJsonAll content)), ("span", span.toJson)])]
  | .math formula display span =>
      .object [("Math", .object [("notation", .string formula.form.tag),
        ("body", .string formula.body), ("display", .bool display), ("span", span.toJson)])]
  | .passthrough body span =>
      .object [("Passthrough", .object [("text", .string body), ("span", span.toJson)])]
  | .command named span =>
      .object [("Macro", .object [("name", .string named.name),
        ("target", .ofOption .string named.target), ("body", .string named.body),
        ("span", span.toJson)])]
  | .footnote content key id span =>
      .object [("Footnote", .object [("content", .array (toJsonAll content)),
        ("key", .ofOption .string key), ("id", .ofOption (fun id => .ofNat id.toNat) id),
        ("span", span.toJson)])]
  | .indexTerm terms visible span =>
      .object [("IndexTerm", .object [("terms", .ofStrings terms), ("visible", .bool visible),
        ("span", span.toJson)])]

def toJsonAll : List Inline → List Json
  | [] => []
  | inline :: rest => inline.toJson :: toJsonAll rest

end

def ofJson? (json : Json) : Option Inline :=
  match json with
  | .object [(tag, body)] => do
      let span ← Span.ofJson? (← body.field? "span")
      let content? := body.nested? "content" fun element _ => ofJson? element
      match Style.ofTag? tag with
      | some style => return .styled style (← content?) span
      | none =>
      match tag with
      | "Text" => return .text (← (← body.field? "text").string?) span
      | "Link" => return .link (← (← body.field? "target").string?) (← content?) span
      | "CrossReference" =>
          return .crossReference (← Target.ofJson? (← body.field? "target")) (← content?) span
      | "Math" =>
          let form ← MathForm.ofTag? (← (← body.field? "notation").string?)
          return .math ⟨form, ← (← body.field? "body").string?⟩
            (← (← body.field? "display").bool?) span
      | "Passthrough" => return .passthrough (← (← body.field? "text").string?) span
      | "Macro" =>
          return .command ⟨← (← body.field? "name").string?, ← body.optional? Json.string? "target",
            ← (← body.field? "body").string?⟩ span
      | "Footnote" =>
          return .footnote (← content?) (← body.optional? Json.string? "key")
            (← body.optional? Json.uint32? "id") span
      | "IndexTerm" =>
          return .indexTerm (← (← body.field? "terms").strings?)
            (← (← body.field? "visible").bool?) span
      | _ => none
  | _ => none
termination_by sizeOf json
decreasing_by
  simp only [Json.object.sizeOf_spec, List.cons.sizeOf_spec, Prod.mk.sizeOf_spec]
  omega

def listOfJson? (json : Json) : Option (List Inline) := json.listOf? ofJson?

def listToJson (content : List Inline) : Json := .array (toJsonAll content)

end Inline

end Rendition
