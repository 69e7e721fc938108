/-
# Rendition.Proofs.Renderer.Mirror -- contexts mirror the blocks

The contexts of a sequence of blocks are one for each block, in the order of the
blocks, at every depth of a document; each says which kind of block it is for,
which template shows it and under which id.  The contexts of tables hold one
context for each row and for each cell.  So a path into a document, by positions,
is a path into its context (`context_mirrors`).

Callouts do not disturb this: a listing and its callout list are rendered
together, but each into a context of its own.
-/
import Mathlib.Data.List.Forall2
import Rendition.Proofs.Renderer.Throughout

namespace Rendition

set_option autoImplicit false

def Block.rows? : Block → Option (List TableRow)
  | .table _ rows => some rows
  | _ => none

namespace Renderer

/-- A context of a row with one context for each cell. -/
def RowShown (row : TableRow) (value : Value) : Prop :=
  ∃ cells, value.parts? "cells" = some cells ∧ cells.length = row.cells.length

/-- A context that stands for a block: it names the kind, the template and the id of the block,
and has one context for each row if the block is a table. -/
structure Shown (backend : Backend) (block : Block) (value : Value) : Prop where
  kind : value.get? "kind" = some (.string block.kind)
  template : value.get? "template" = some (.string (backend.name ++ "/" ++ block.kind))
  id : value.get? "id" = some (.string (block.info.id.getD ""))
  rows : ∀ rows, block.rows? = some rows →
    ∃ values, value.parts? "rows" = some values ∧ List.Forall₂ RowShown rows values

variable (renderer : Renderer)

theorem rowShown_rowValue (info : Meta) (row : TableRow) :
    RowShown row (renderer.rowValue info row) :=
  ⟨_, rfl, List.length_map _⟩

theorem forall₂_rowShown (info : Meta) (rows : List TableRow) :
    List.Forall₂ RowShown rows (rows.map (renderer.rowValue info)) := by
  rw [List.forall₂_map_right_iff]
  exact List.forall₂_same.mpr fun row _ => rowShown_rowValue renderer info row

/-- Each constructor writes the kind, the template and the id of its block. -/
theorem shown_block (bundle : Option Callout.Bundle) (serial : UInt32) (b : Block) :
    Shown renderer.backend b (renderer.block bundle serial b).1 := by
  cases b with
  | table info rows =>
      refine ⟨rfl, rfl, rfl, fun others same => ?_⟩
      rw [← Option.some.inj same]
      exact ⟨_, rfl, forall₂_rowShown renderer info rows⟩
  | _ => exact ⟨rfl, rfl, rfl, fun _ other => nomatch other⟩

/-- A sequence has one context for each block, in order. -/
theorem shown_blocks (bundle : Option Callout.Bundle) (serial : UInt32) (bs : List Block) :
    List.Forall₂ (Shown renderer.backend) bs (renderer.blocks bundle serial bs).1 := by
  induction bs generalizing bundle serial with
  | nil => exact .nil
  | cons b rest ih => exact .cons (shown_block renderer _ _ b) (ih _ _)

end Renderer

/-! ## Revisions -/

namespace Revision

variable {σ : Type} {revise : Revision σ} {backend : Backend}

/-- A context that stands for a revised block stands for the block. -/
theorem shown_of_block (b : Block) {state : σ} {value : Value}
    (shown : Renderer.Shown backend (revise.block b state).1 value) :
    Renderer.Shown backend b value := by
  obtain ⟨kind, template, id, rows⟩ := shown
  cases b <;> exact ⟨kind, template, id, rows⟩

theorem shown_of_blocks (bs : List Block) (state : σ) (values : List Value)
    (shown : List.Forall₂ (Renderer.Shown backend) (revise.blocks bs state).1 values) :
    List.Forall₂ (Renderer.Shown backend) bs values := by
  induction bs generalizing state values with
  | nil => exact shown
  | cons b rest ih =>
      obtain ⟨value, others, first, under, rfl⟩ := List.forall₂_cons_left_iff.mp shown
      exact .cons (shown_of_block b first) (ih _ others under)

end Revision

/-- **The context of a document mirrors its blocks.**  In the context of the document, and of
every block and item in it, there is one context for each block, in the same order. -/
theorem Renderer.context_mirrors (renderer : Renderer) (document : Document) :
    ∃ values, (renderer.context document).parts? "blocks" = some values ∧
      Throughout (List.Forall₂ (Shown renderer.backend)) document.blocks values :=
  throughout_context (shown_blocks renderer none) Revision.shown_of_blocks document

end Rendition
