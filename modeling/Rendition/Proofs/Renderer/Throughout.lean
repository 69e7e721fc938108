/-
# Rendition.Proofs.Renderer.Throughout -- relations between blocks and their contexts

The walk over a document makes a sequence of contexts from every sequence of
blocks: that of the document itself, and those under its sections, quotations,
items and so on.  A relation between blocks and contexts holds `Throughout` if it
holds of all these pairs of sequences, each context being found under the field
where templates look for it.

The walk renders each sequence with a serial number of its own, and it renders a
document whose footnotes have been numbered.  A relation that holds of what the
walk makes of one sequence, whatever the serial number, and that does not notice
the numbering, holds throughout every document (`throughout_context`).
-/
import Rendition.Renderer.Root

namespace Rendition

set_option autoImplicit false

/-- The contexts of parts under a field of a context. -/
def Value.parts? (value : Value) (key : String) : Option (List Value) :=
  (value.get? key).bind list?

mutual

/-- Whether a relation holds of all sequences of blocks under a block, beside its context. -/
def Block.Beside (holds : List Block → List Value → Prop) : Block → Value → Prop
  | .section _ _ _ children, value | .enclosure _ _ children, value
  | .quote _ _ _ children, value | .admonition _ _ children, value =>
      ∃ values, value.parts? "blocks" = some values ∧
        holds children values ∧ Block.BesideAll holds children values
  | .list _ _ entries, value =>
      ∃ values, value.parts? "items" = some values ∧ Block.BesideItems holds entries values
  | .descriptions _ entries, value =>
      ∃ values, value.parts? "items" = some values ∧
        Block.BesideDescriptions holds entries values
  | .paragraph _ _, _ | .heading _ _ _, _ | .listing _ _ _, _ | .literal _ _, _ | .math _ _, _
  | .command _ _ _, _ | .table _ _, _ | .verse _ _ _, _ => True

def Block.BesideAll (holds : List Block → List Value → Prop) : List Block → List Value → Prop
  | [], [] => True
  | block :: rest, value :: others => block.Beside holds value ∧ Block.BesideAll holds rest others
  | _, _ => False

def Block.BesideItems (holds : List Block → List Value → Prop) :
    List (ListItem Block) → List Value → Prop
  | [], [] => True
  | ⟨_, _, children⟩ :: rest, value :: others =>
      (∃ values, value.parts? "blocks" = some values ∧
        holds children values ∧ Block.BesideAll holds children values) ∧
      Block.BesideItems holds rest others
  | _, _ => False

def Block.BesideDescriptions (holds : List Block → List Value → Prop) :
    List (DescriptionItem Block) → List Value → Prop
  | [], [] => True
  | ⟨_, _, children⟩ :: rest, value :: others =>
      (∃ values, value.parts? "blocks" = some values ∧
        holds children values ∧ Block.BesideAll holds children values) ∧
      Block.BesideDescriptions holds rest others
  | _, _ => False

end

/-- Whether a relation holds of a sequence of blocks and of all sequences under it, beside their
contexts. -/
def Throughout (holds : List Block → List Value → Prop) (blocks : List Block)
    (values : List Value) : Prop :=
  holds blocks values ∧ Block.BesideAll holds blocks values

variable {holds : List Block → List Value → Prop}

/-! ## The walk -/

namespace Renderer

variable {renderer : Renderer}

mutual

/-- A relation that holds of every sequence holds of those under a block. -/
theorem beside_block (each : ∀ serial bs, holds bs (renderer.blocks none serial bs).1)
    (bundle : Option Callout.Bundle) (serial : UInt32) (b : Block) :
    b.Beside holds (renderer.block bundle serial b).1 := by
  cases b with
  | «section» _ _ _ children | enclosure _ _ children | quote _ _ _ children
  | admonition _ _ children =>
      exact ⟨_, rfl, each serial children, beside_blocks each none serial children⟩
  | list info _ entries => exact ⟨_, rfl, beside_items each info bundle 0 serial entries⟩
  | descriptions info entries => exact ⟨_, rfl, beside_descriptions each info serial entries⟩
  | _ => trivial

theorem beside_blocks (each : ∀ serial bs, holds bs (renderer.blocks none serial bs).1)
    (bundle : Option Callout.Bundle) (serial : UInt32) (bs : List Block) :
    Block.BesideAll holds bs (renderer.blocks bundle serial bs).1 := by
  cases bs with
  | nil => trivial
  | cons b rest => exact ⟨beside_block each _ _ b, beside_blocks each _ _ rest⟩

theorem beside_items (each : ∀ serial bs, holds bs (renderer.blocks none serial bs).1)
    (info : Meta) (bundle : Option Callout.Bundle) (position : Nat) (serial : UInt32)
    (entries : List (ListItem Block)) :
    Block.BesideItems holds entries (renderer.items info bundle position serial entries).1 := by
  match entries with
  | [] => trivial
  | ⟨_, _, children⟩ :: rest =>
      exact ⟨⟨_, rfl, each serial children, beside_blocks each none serial children⟩,
        beside_items each info bundle _ _ rest⟩

theorem beside_descriptions (each : ∀ serial bs, holds bs (renderer.blocks none serial bs).1)
    (info : Meta) (serial : UInt32) (entries : List (DescriptionItem Block)) :
    Block.BesideDescriptions holds entries (renderer.descriptions info serial entries).1 := by
  match entries with
  | [] => trivial
  | ⟨_, _, children⟩ :: rest =>
      exact ⟨⟨_, rfl, each serial children, beside_blocks each none serial children⟩,
        beside_descriptions each info _ rest⟩

end

end Renderer

/-! ## Revisions -/

namespace Revision

variable {σ : Type} {revise : Revision σ}

mutual

/-- What holds beside a revised block holds beside the block. -/
theorem beside_of_block
    (reflects : ∀ bs state values, holds (revise.blocks bs state).1 values → holds bs values)
    (b : Block) {state : σ} {value : Value} (beside : (revise.block b state).1.Beside holds value) :
    b.Beside holds value := by
  cases b with
  | «section» _ _ _ children | enclosure _ _ children | quote _ _ _ children
  | admonition _ _ children =>
      obtain ⟨values, found, held, under⟩ := beside
      exact ⟨values, found, reflects children _ values held,
        beside_of_blocks reflects children under⟩
  | list _ _ entries =>
      obtain ⟨values, found, under⟩ := beside
      exact ⟨values, found, beside_of_items reflects entries under⟩
  | descriptions _ entries =>
      obtain ⟨values, found, under⟩ := beside
      exact ⟨values, found, beside_of_descriptions reflects entries under⟩
  | _ => trivial

theorem beside_of_blocks
    (reflects : ∀ bs state values, holds (revise.blocks bs state).1 values → holds bs values)
    (bs : List Block) {state : σ} {values : List Value}
    (beside : Block.BesideAll holds (revise.blocks bs state).1 values) :
    Block.BesideAll holds bs values := by
  match bs, values with
  | [], [] => trivial
  | [], _ :: _ => exact beside
  | _ :: _, [] => exact beside
  | b :: rest, value :: others =>
      exact ⟨beside_of_block reflects b beside.1, beside_of_blocks reflects rest beside.2⟩

theorem beside_of_items
    (reflects : ∀ bs state values, holds (revise.blocks bs state).1 values → holds bs values)
    (entries : List (ListItem Block)) {state : σ} {values : List Value}
    (beside : Block.BesideItems holds (revise.items entries state).1 values) :
    Block.BesideItems holds entries values := by
  match entries, values with
  | [], [] => trivial
  | [], _ :: _ => exact beside
  | ⟨_, _, _⟩ :: _, [] => exact beside
  | ⟨_, _, children⟩ :: rest, value :: others =>
      obtain ⟨⟨values, found, held, under⟩, others⟩ := beside
      exact ⟨⟨values, found, reflects children _ values held,
        beside_of_blocks reflects children under⟩, beside_of_items reflects rest others⟩

theorem beside_of_descriptions
    (reflects : ∀ bs state values, holds (revise.blocks bs state).1 values → holds bs values)
    (entries : List (DescriptionItem Block)) {state : σ} {values : List Value}
    (beside : Block.BesideDescriptions holds (revise.descriptions entries state).1 values) :
    Block.BesideDescriptions holds entries values := by
  match entries, values with
  | [], [] => trivial
  | [], _ :: _ => exact beside
  | ⟨_, _, _⟩ :: _, [] => exact beside
  | ⟨_, _, children⟩ :: rest, value :: others =>
      obtain ⟨⟨values, found, held, under⟩, others⟩ := beside
      exact ⟨⟨values, found, reflects children _ values held,
        beside_of_blocks reflects children under⟩, beside_of_descriptions reflects rest others⟩

end

/-- A revised sequence has the revised blocks in their places. -/
theorem getElem?_blocks (revise : Revision σ) (bs : List Block) (state : σ) (position : Nat) :
    ∃ before, (revise.blocks bs state).1[position]? =
      bs[position]?.map fun b => (revise.block b before).1 := by
  induction bs generalizing state position with
  | nil => exact ⟨state, rfl⟩
  | cons b rest ih =>
      cases position with
      | zero => exact ⟨state, rfl⟩
      | succ position => exact ih (revise.block b state).2 position

end Revision

/-! ## Documents -/

/-- A relation that holds of what the walk makes of any sequence, and that does not notice the
numbering of footnotes, holds throughout a document and its context. -/
theorem Renderer.throughout_context {renderer : Renderer}
    (each : ∀ serial bs, holds bs (renderer.blocks none serial bs).1)
    (reflects : ∀ bs ledger values,
      holds (Revision.blocks Footnote.resolveAll bs ledger).1 values → holds bs values)
    (document : Document) :
    ∃ values, (renderer.context document).parts? "blocks" = some values ∧
      Throughout holds document.blocks values := by
  refine ⟨_, rfl, reflects document.blocks _ _ (each 0 _), ?_⟩
  exact Revision.beside_of_blocks reflects document.blocks (beside_blocks each none 0 _)

end Rendition
