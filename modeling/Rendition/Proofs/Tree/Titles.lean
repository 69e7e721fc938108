/-
# Rendition.Proofs.Tree.Titles -- the titles of tables

Of all inline sequences of a document only the block titles of tables are no
passages.  `tableTitles` lists them, so that a condition holds everywhere if it
holds of the passages and of the titles of tables (`everywhere_iff`).  A revision
gives every table back as it is (`tableTitles_document`).
-/
import Rendition.Proofs.Tree.Everywhere

namespace Rendition

set_option autoImplicit false

mutual

def Block.tableTitles : Block → List (List Inline)
  | .table info _ => [info.title]
  | .section _ _ _ blocks | .enclosure _ _ blocks | .quote _ _ _ blocks | .admonition _ _ blocks =>
      Block.tableTitlesAll blocks
  | .list _ _ items => Block.tableTitlesOfItems items
  | .descriptions _ items => Block.tableTitlesOfDescriptions items
  | .paragraph _ _ | .heading _ _ _ | .listing _ _ _ | .literal _ _ | .math _ _ | .command _ _ _
  | .verse _ _ _ => []

def Block.tableTitlesAll : List Block → List (List Inline)
  | [] => []
  | block :: rest => block.tableTitles ++ Block.tableTitlesAll rest

def Block.tableTitlesOfItems : List (ListItem Block) → List (List Inline)
  | [] => []
  | ⟨_, _, blocks⟩ :: rest => Block.tableTitlesAll blocks ++ Block.tableTitlesOfItems rest

def Block.tableTitlesOfDescriptions : List (DescriptionItem Block) → List (List Inline)
  | [] => []
  | ⟨_, _, blocks⟩ :: rest => Block.tableTitlesAll blocks ++ Block.tableTitlesOfDescriptions rest

end

def Document.tableTitles (document : Document) : List (List Inline) :=
  Block.tableTitlesAll document.blocks

/-! ## Everywhere -/

section Everywhere

variable (holds : List Inline → Bool)

mutual

/-- The sequences of a block are its passages and the titles of its tables. -/
theorem Block.everywhere_eq (block : Block) :
    block.everywhere holds = (block.passages.all holds && block.tableTitles.all holds) := by
  cases block with
  | paragraph | heading | listing | literal | math | command | verse | table =>
      simp [everywhere, passages, tableTitles]
  | «section» _ _ _ children | enclosure _ _ children | quote _ _ _ children
  | admonition _ _ children =>
      have inner := everywhereAll_eq children
      simp [everywhere, passages, tableTitles, inner, Bool.and_assoc]
  | list _ _ items =>
      have inner := everywhereItems_eq items
      simp [everywhere, passages, tableTitles, inner, Bool.and_assoc]
  | descriptions _ items =>
      have inner := everywhereDescriptions_eq items
      simp [everywhere, passages, tableTitles, inner, Bool.and_assoc]

theorem Block.everywhereAll_eq (blocks : List Block) :
    everywhereAll holds blocks =
      ((passagesAll blocks).all holds && (tableTitlesAll blocks).all holds) := by
  match blocks with
  | [] => rfl
  | block :: rest =>
      have first := everywhere_eq block
      have others := everywhereAll_eq rest
      simp only [everywhereAll, passagesAll, tableTitlesAll, first, others, List.all_append]
      ac_rfl

theorem Block.everywhereItems_eq (items : List (ListItem Block)) :
    everywhereItems holds items =
      ((passagesOfItems items).all holds && (tableTitlesOfItems items).all holds) := by
  match items with
  | [] => rfl
  | ⟨_, content, children⟩ :: rest =>
      have inner := everywhereAll_eq children
      have others := everywhereItems_eq rest
      simp only [everywhereItems, passagesOfItems, tableTitlesOfItems, inner, others,
        List.all_append, List.all_cons]
      ac_rfl

theorem Block.everywhereDescriptions_eq (items : List (DescriptionItem Block)) :
    everywhereDescriptions holds items =
      ((passagesOfDescriptions items).all holds &&
        (tableTitlesOfDescriptions items).all holds) := by
  match items with
  | [] => rfl
  | ⟨terms, description, children⟩ :: rest =>
      have inner := everywhereAll_eq children
      have others := everywhereDescriptions_eq rest
      simp only [everywhereDescriptions, passagesOfDescriptions, tableTitlesOfDescriptions, inner,
        others, List.all_append, List.all_cons]
      ac_rfl

end

variable {holds}

/-- A condition holds everywhere if it holds of all passages and all titles of tables. -/
theorem Document.everywhere_iff {document : Document} :
    document.everywhere holds ↔
      (∀ passage ∈ document.passages, holds passage) ∧
        ∀ title ∈ document.tableTitles, holds title := by
  have blocks := Block.everywhereAll_eq holds document.blocks
  rw [← List.all_eq_true, ← List.all_eq_true, ← Bool.and_eq_true]
  unfold everywhere passages tableTitles
  cases document.header with
  | none => simp only [Option.all_none, blocks, Bool.true_and]
  | some header => simp only [Option.all_some, blocks, List.all_cons, Bool.and_assoc]

end Everywhere

/-! ## Revisions -/

namespace Revision

variable {σ : Type} (revise : Revision σ)

mutual

/-- No revision changes the title of a table. -/
theorem tableTitles_block (b : Block) (state : σ) :
    (revise.block b state).1.tableTitles = b.tableTitles := by
  cases b with
  | «section» _ _ _ children | enclosure _ _ children | quote _ _ _ children
  | admonition _ _ children =>
      exact tableTitles_blocks children _
  | list _ _ items => exact tableTitles_items items _
  | descriptions _ items => exact tableTitles_descriptions items _
  | paragraph | heading | listing | literal | math | command | verse | table => rfl

theorem tableTitles_blocks (bs : List Block) (state : σ) :
    Block.tableTitlesAll (revise.blocks bs state).1 = Block.tableTitlesAll bs := by
  match bs with
  | [] => rfl
  | b :: rest =>
      have first := tableTitles_block b state
      have others := tableTitles_blocks rest (revise.block b state).2
      simp only [blocks, Block.tableTitlesAll, first, others]

theorem tableTitles_items (entries : List (ListItem Block)) (state : σ) :
    Block.tableTitlesOfItems (revise.items entries state).1 = Block.tableTitlesOfItems entries := by
  match entries with
  | [] => rfl
  | ⟨_, content, children⟩ :: rest =>
      have inner := tableTitles_blocks children (revise content state).2
      have others := tableTitles_items rest
      simp only [items, Block.tableTitlesOfItems, inner, others]

theorem tableTitles_descriptions (entries : List (DescriptionItem Block)) (state : σ) :
    Block.tableTitlesOfDescriptions (revise.descriptions entries state).1 =
      Block.tableTitlesOfDescriptions entries := by
  match entries with
  | [] => rfl
  | ⟨terms, description, children⟩ :: rest =>
      have inner := tableTitles_blocks children
      have others := tableTitles_descriptions rest
      simp only [descriptions, Block.tableTitlesOfDescriptions, inner, others]

end

/-- A revision leaves the titles of tables as they are. -/
theorem tableTitles_document (d : Document) (state : σ) :
    (revise.document d state).1.tableTitles = d.tableTitles :=
  tableTitles_blocks revise d.blocks _

end Revision

end Rendition
