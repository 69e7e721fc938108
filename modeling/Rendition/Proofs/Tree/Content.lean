/-
# Rendition.Proofs.Tree.Content -- documents with their inline content changed

`Document.mapContent` applies one function to every inline sequence of a document,
the block titles of tables included, and leaves all else as it is: attributes,
spans, kinds, levels, markers, texts and rows.  What it makes of a document shows
how far two documents agree.

A revision works through the passages only, with a state.  If a function does not
see what the revision does to a passage, whatever the state, then it does not see
what the revision does to the document (`mapContent_document`).
-/
import Rendition.Tree.Passages

namespace Rendition

set_option autoImplicit false

def Meta.mapContent (change : List Inline → List Inline) (info : Meta) : Meta :=
  { info with title := change info.title }

mutual

/-- A block with all its inline sequences changed. -/
def Block.mapContent (change : List Inline → List Inline) : Block → Block
  | .paragraph info content => .paragraph (info.mapContent change) (change content)
  | .heading info level title => .heading (info.mapContent change) level (change title)
  | .section info level title blocks =>
      .section (info.mapContent change) level (change title) (Block.mapContentAll change blocks)
  | .listing info language text => .listing (info.mapContent change) language text
  | .literal info text => .literal (info.mapContent change) text
  | .math info formula => .math (info.mapContent change) formula
  | .command info name target => .command (info.mapContent change) name target
  | .list info kind items =>
      .list (info.mapContent change) kind (Block.mapContentOfItems change items)
  | .descriptions info items =>
      .descriptions (info.mapContent change) (Block.mapContentOfDescriptions change items)
  | .table info rows => .table (info.mapContent change) rows
  | .enclosure kind info blocks =>
      .enclosure kind (info.mapContent change) (Block.mapContentAll change blocks)
  | .quote info attribution citation blocks =>
      .quote (info.mapContent change) attribution citation (Block.mapContentAll change blocks)
  | .admonition info kind blocks =>
      .admonition (info.mapContent change) kind (Block.mapContentAll change blocks)
  | .verse info content attribution =>
      .verse (info.mapContent change) (change content) attribution

def Block.mapContentAll (change : List Inline → List Inline) : List Block → List Block
  | [] => []
  | block :: rest => block.mapContent change :: Block.mapContentAll change rest

def Block.mapContentOfItems (change : List Inline → List Inline) :
    List (ListItem Block) → List (ListItem Block)
  | [] => []
  | ⟨marker, content, blocks⟩ :: rest =>
      ⟨marker, change content, Block.mapContentAll change blocks⟩ ::
        Block.mapContentOfItems change rest

def Block.mapContentOfDescriptions (change : List Inline → List Inline) :
    List (DescriptionItem Block) → List (DescriptionItem Block)
  | [] => []
  | ⟨terms, description, blocks⟩ :: rest =>
      ⟨terms.map change, change description, Block.mapContentAll change blocks⟩ ::
        Block.mapContentOfDescriptions change rest

end

def Document.mapContent (change : List Inline → List Inline) (document : Document) : Document where
  attributes := document.attributes
  header := document.header.map fun header => { header with title := change header.title }
  blocks := Block.mapContentAll change document.blocks

namespace Revision

variable {σ : Type} {revise : Revision σ} {change : List Inline → List Inline}

variable (revise change) in
/-- A function to which a passage looks the same before and after it is revised. -/
def Unseen : Prop := ∀ (passage : List Inline) (state : σ),
  change (revise passage state).1 = change passage

theorem Unseen.mapContent_info (unseen : Unseen revise change) (info : Meta) (state : σ) :
    (revise.info info state).1.mapContent change = info.mapContent change := by
  have title := unseen info.title state
  simp only [Revision.info, Meta.mapContent, title]

/-- A passage that is revised unseen looks the same among others. -/
theorem Unseen.map_all (unseen : Unseen revise change) (passages : List (List Inline))
    (state : σ) : (revise.all passages state).1.map change = passages.map change := by
  induction passages generalizing state with
  | nil => rfl
  | cons passage rest ih =>
      have first := unseen passage state
      have others := ih (revise passage state).2
      simp only [all, List.map_cons, first, others]

mutual

/-- A block whose passages are revised unseen looks the same. -/
theorem Unseen.mapContent_block (unseen : Unseen revise change) (b : Block) (state : σ) :
    (revise.block b state).1.mapContent change = b.mapContent change := by
  cases b with
  | paragraph info content | verse info content attribution =>
      have meta_ := unseen.mapContent_info info state
      have content := unseen content (revise.info info state).2
      simp only [block, Block.mapContent, meta_, content]
  | heading info level title =>
      have meta_ := unseen.mapContent_info info state
      have title := unseen title (revise.info info state).2
      simp only [block, Block.mapContent, meta_, title]
  | «section» info level title children =>
      have meta_ := unseen.mapContent_info info state
      have heading := unseen title (revise.info info state).2
      have children := unseen.mapContent_blocks children
        (revise title (revise.info info state).2).2
      simp only [block, Block.mapContent, meta_, heading, children]
  | listing info | literal info | math info | command info =>
      have meta_ := unseen.mapContent_info info state
      simp only [block, Block.mapContent, meta_]
  | list info kind entries =>
      have meta_ := unseen.mapContent_info info state
      have entries := unseen.mapContent_items entries (revise.info info state).2
      simp only [block, Block.mapContent, meta_, entries]
  | descriptions info entries =>
      have meta_ := unseen.mapContent_info info state
      have entries := unseen.mapContent_descriptions entries (revise.info info state).2
      simp only [block, Block.mapContent, meta_, entries]
  | table info rows => rfl
  | enclosure kind info children | quote info attribution citation children
  | admonition info kind children =>
      have meta_ := unseen.mapContent_info info state
      have children := unseen.mapContent_blocks children (revise.info info state).2
      simp only [block, Block.mapContent, meta_, children]

theorem Unseen.mapContent_blocks (unseen : Unseen revise change) (bs : List Block) (state : σ) :
    Block.mapContentAll change (revise.blocks bs state).1 = Block.mapContentAll change bs := by
  match bs with
  | [] => rfl
  | b :: rest =>
      have first := unseen.mapContent_block b state
      have others := unseen.mapContent_blocks rest (revise.block b state).2
      simp only [blocks, Block.mapContentAll, first, others]

theorem Unseen.mapContent_items (unseen : Unseen revise change)
    (entries : List (ListItem Block)) (state : σ) :
    Block.mapContentOfItems change (revise.items entries state).1 =
      Block.mapContentOfItems change entries := by
  match entries with
  | [] => rfl
  | ⟨marker, content, children⟩ :: rest =>
      have first := unseen content state
      have children := unseen.mapContent_blocks children (revise content state).2
      have others := unseen.mapContent_items rest
      simp only [items, Block.mapContentOfItems, first, children, others]

theorem Unseen.mapContent_descriptions (unseen : Unseen revise change)
    (entries : List (DescriptionItem Block)) (state : σ) :
    Block.mapContentOfDescriptions change (revise.descriptions entries state).1 =
      Block.mapContentOfDescriptions change entries := by
  match entries with
  | [] => rfl
  | ⟨terms, description, children⟩ :: rest =>
      have named := unseen.map_all terms state
      have described := unseen description (revise.all terms state).2
      have children := unseen.mapContent_blocks children
      have others := unseen.mapContent_descriptions rest
      simp only [descriptions, Block.mapContentOfDescriptions, named, described, children, others]

end

/-- A document looks the same before and after it is revised if its passages do. -/
theorem Unseen.mapContent_document (unseen : Unseen revise change) (d : Document) (state : σ) :
    (revise.document d state).1.mapContent change = d.mapContent change := by
  unfold Revision.document Document.mapContent
  cases header : d.header with
  | none =>
      have children := unseen.mapContent_blocks d.blocks state
      simp only [children]
  | some h =>
      have title := unseen h.title state
      have children := unseen.mapContent_blocks d.blocks (revise h.title state).2
      simp only [Option.map_some, title, children]

end Revision

end Rendition
