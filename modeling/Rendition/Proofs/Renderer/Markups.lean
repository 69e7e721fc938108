/-
# Rendition.Proofs.Renderer.Markups -- the markup in a context

A template puts some texts of a context into its output as they are: the
*markup* of the context.  These are the texts in the markup fields of the
contexts of blocks, items, rows, cells and footnotes, in the order in which they
stand; `Value.markups` collects them.  Identifiers, plain texts, attributes, the
index and the navigation payload are no markup, and neither is the title of the
context of a document, which has its markup in a field beside it.
-/
import Rendition.Renderer.Root

namespace Rendition

set_option autoImplicit false

namespace Value

/-- The fields that hold markup, as a text or a list of texts. -/
def markupFields : List String :=
  ["title", "block_title", "title_markup", "content", "terms", "description", "markup",
    "callout_markup", "attribution", "citetitle"]

/-- The fields that hold the contexts of parts. -/
def partFields : List String := ["blocks", "items", "rows", "cells", "footnotes"]

/-- The texts of a value that is a text or a list of texts. -/
def texts : Value → List String
  | .string text => [text]
  | .list items => items.filterMap string?
  | _ => []

mutual

/-- The markup in the context of a part, or in a list of them. -/
def markups : Value → List String
  | .map entries => markupsOfEntries entries
  | .list items => markupsOfItems items
  | _ => []

def markupsOfItems : List Value → List String
  | [] => []
  | value :: rest => value.markups ++ markupsOfItems rest

def markupsOfEntries : List (String × Value) → List String
  | [] => []
  | (key, value) :: rest =>
      (if markupFields.contains key then value.texts
        else if partFields.contains key then value.markups else []) ++ markupsOfEntries rest

end

/-- The markup in the context of a document. -/
def documentMarkups : Value → List String
  | .map entries => markupsOfEntries (entries.filter (·.1 != "title"))
  | _ => []

theorem markupsOfEntries_append (first second : List (String × Value)) :
    markupsOfEntries (first ++ second) = markupsOfEntries first ++ markupsOfEntries second := by
  induction first with
  | nil => rfl
  | cons entry rest ih =>
      obtain ⟨key, value⟩ := entry
      rw [List.cons_append, markupsOfEntries, markupsOfEntries, ih, List.append_assoc]

/-- The markup in a list is that in its items. -/
theorem mem_markupsOfItems_iff {values : List Value} {text : String} :
    text ∈ markupsOfItems values ↔ ∃ value ∈ values, text ∈ value.markups := by
  induction values with
  | nil => simp [markupsOfItems]
  | cons value rest ih => simp [markupsOfItems, ih]

end Value

namespace Renderer

variable (renderer : Renderer)

/-- Of what every block has only its title is markup. -/
theorem markups_base (block : Block) (title : List Inline) :
    Value.markupsOfEntries (renderer.base block title) =
      [Inline.markupAll renderer.dialect block.info.span.known? title] := rfl

end Renderer

end Rendition
