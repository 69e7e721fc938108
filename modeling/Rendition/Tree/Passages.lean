/-
# Rendition.Tree.Passages -- the inline sequences of a document

The *passages* of a document are the inline sequences a reader meets, in reading
order: the header title, then for each block the block title before the block's
own content and children.  Tables are skipped whole: their cells hold raw text
until they are rendered.

`passages` lists them, and a `Revision` changes each with a state threaded
through.  `Revision.document_passages` says that the two agree on what the
passages are and on their order.
-/
import Rendition.Tree.Document

namespace Rendition

set_option autoImplicit false

/-! ## Passages -/

mutual

/-- The passages of a block in reading order. -/
def Block.passages : Block → List (List Inline)
  | .paragraph info content => [info.title, content]
  | .heading info _ title => [info.title, title]
  | .section info _ title blocks => info.title :: title :: Block.passagesAll blocks
  | .listing info _ _ | .literal info _ | .math info _ | .command info _ _ => [info.title]
  | .list info _ items => info.title :: Block.passagesOfItems items
  | .descriptions info items => info.title :: Block.passagesOfDescriptions items
  | .table _ _ => []
  | .enclosure _ info blocks | .quote info _ _ blocks | .admonition info _ blocks =>
      info.title :: Block.passagesAll blocks
  | .verse info content _ => [info.title, content]

def Block.passagesAll : List Block → List (List Inline)
  | [] => []
  | block :: rest => block.passages ++ Block.passagesAll rest

/-- The passages of list items: of each item its content, then its blocks. -/
def Block.passagesOfItems : List (ListItem Block) → List (List Inline)
  | [] => []
  | ⟨_, content, blocks⟩ :: rest =>
      content :: (Block.passagesAll blocks ++ Block.passagesOfItems rest)

/-- The passages of description items: of each its terms, its description, its blocks. -/
def Block.passagesOfDescriptions : List (DescriptionItem Block) → List (List Inline)
  | [] => []
  | ⟨terms, description, blocks⟩ :: rest =>
      terms ++ description :: (Block.passagesAll blocks ++ Block.passagesOfDescriptions rest)

end

def Document.passages (document : Document) : List (List Inline) :=
  match document.header with
  | some header => header.title :: Block.passagesAll document.blocks
  | none => Block.passagesAll document.blocks

/-! ## Revision

A revision is a function on passages with a state, such as a counter.
-/

/-- A change of passages that carries a state of type `σ`. -/
abbrev Revision (σ : Type) := List Inline → σ → List Inline × σ

namespace Revision

variable {σ : Type} (revise : Revision σ)

def all : List (List Inline) → σ → List (List Inline) × σ
  | [], state => ([], state)
  | passage :: rest, state =>
      let (passage, state) := revise passage state
      let (rest, state) := all rest state
      (passage :: rest, state)

def info (info : Meta) (state : σ) : Meta × σ :=
  let (title, state) := revise info.title state
  ({ info with title }, state)

mutual

/-- A block with its passages revised in reading order. -/
def block : Block → σ → Block × σ
  | .paragraph info content, state =>
      let (info, state) := revise.info info state
      let (content, state) := revise content state
      (.paragraph info content, state)
  | .heading info level title, state =>
      let (info, state) := revise.info info state
      let (title, state) := revise title state
      (.heading info level title, state)
  | .section info level title children, state =>
      let (info, state) := revise.info info state
      let (title, state) := revise title state
      let (children, state) := blocks children state
      (.section info level title children, state)
  | .listing info language text, state =>
      let (info, state) := revise.info info state
      (.listing info language text, state)
  | .literal info text, state =>
      let (info, state) := revise.info info state
      (.literal info text, state)
  | .math info formula, state =>
      let (info, state) := revise.info info state
      (.math info formula, state)
  | .command info name target, state =>
      let (info, state) := revise.info info state
      (.command info name target, state)
  | .list info kind entries, state =>
      let (info, state) := revise.info info state
      let (entries, state) := items entries state
      (.list info kind entries, state)
  | .descriptions info entries, state =>
      let (info, state) := revise.info info state
      let (entries, state) := descriptions entries state
      (.descriptions info entries, state)
  | .table info rows, state => (.table info rows, state)
  | .enclosure kind info children, state =>
      let (info, state) := revise.info info state
      let (children, state) := blocks children state
      (.enclosure kind info children, state)
  | .quote info attribution citation children, state =>
      let (info, state) := revise.info info state
      let (children, state) := blocks children state
      (.quote info attribution citation children, state)
  | .admonition info kind children, state =>
      let (info, state) := revise.info info state
      let (children, state) := blocks children state
      (.admonition info kind children, state)
  | .verse info content attribution, state =>
      let (info, state) := revise.info info state
      let (content, state) := revise content state
      (.verse info content attribution, state)

def blocks : List Block → σ → List Block × σ
  | [], state => ([], state)
  | first :: rest, state =>
      let (first, state) := block first state
      let (rest, state) := blocks rest state
      (first :: rest, state)

def items : List (ListItem Block) → σ → List (ListItem Block) × σ
  | [], state => ([], state)
  | ⟨marker, content, children⟩ :: rest, state =>
      let (content, state) := revise content state
      let (children, state) := blocks children state
      let (rest, state) := items rest state
      (⟨marker, content, children⟩ :: rest, state)

def descriptions : List (DescriptionItem Block) → σ → List (DescriptionItem Block) × σ
  | [], state => ([], state)
  | ⟨terms, description, children⟩ :: rest, state =>
      let (terms, state) := revise.all terms state
      let (description, state) := revise description state
      let (children, state) := blocks children state
      let (rest, state) := descriptions rest state
      (⟨terms, description, children⟩ :: rest, state)

end

def document (document : Document) (state : σ) : Document × σ :=
  let (header, state) := match document.header with
    | some header =>
        let (title, state) := revise header.title state
        (some { header with title }, state)
    | none => (none, state)
  let (children, state) := revise.blocks document.blocks state
  ({ document with header, blocks := children }, state)

/-! ### Passages of what is revised -/

/-- The second passages are revised from the state that the first leave. -/
theorem all_append (first second : List (List Inline)) (state : σ) :
    revise.all (first ++ second) state =
      ((revise.all first state).1 ++ (revise.all second (revise.all first state).2).1,
        (revise.all second (revise.all first state).2).2) := by
  induction first generalizing state with
  | nil => rfl
  | cons passage rest ih => simp [all, ih]

mutual

/-- Revising a block is revising its passages in reading order. -/
theorem block_passages (b : Block) (state : σ) :
    revise.all b.passages state =
      ((revise.block b state).1.passages, (revise.block b state).2) := by
  cases b with
  | «section» | enclosure | quote | admonition =>
      simp [block, Block.passages, all, info, blocks_passages]
  | list => simp [block, Block.passages, all, info, items_passages]
  | descriptions => simp [block, Block.passages, all, info, descriptions_passages]
  | _ => simp [block, Block.passages, all, info]

theorem blocks_passages (bs : List Block) (state : σ) :
    revise.all (Block.passagesAll bs) state =
      (Block.passagesAll (revise.blocks bs state).1, (revise.blocks bs state).2) := by
  cases bs with
  | nil => rfl
  | cons b rest =>
      simp [blocks, Block.passagesAll, all_append, block_passages b, blocks_passages rest]

theorem items_passages (entries : List (ListItem Block)) (state : σ) :
    revise.all (Block.passagesOfItems entries) state =
      (Block.passagesOfItems (revise.items entries state).1, (revise.items entries state).2) := by
  match entries with
  | [] => rfl
  | ⟨marker, content, children⟩ :: rest =>
      simp [items, Block.passagesOfItems, all, all_append, blocks_passages children,
        items_passages rest]

theorem descriptions_passages (entries : List (DescriptionItem Block)) (state : σ) :
    revise.all (Block.passagesOfDescriptions entries) state =
      (Block.passagesOfDescriptions (revise.descriptions entries state).1,
        (revise.descriptions entries state).2) := by
  match entries with
  | [] => rfl
  | ⟨terms, description, children⟩ :: rest =>
      simp [descriptions, Block.passagesOfDescriptions, all, all_append, blocks_passages children,
        descriptions_passages rest]

end

/-- The passages of a revised document are the revised passages, with the same last state. -/
theorem document_passages (d : Document) (state : σ) :
    revise.all d.passages state =
      ((revise.document d state).1.passages, (revise.document d state).2) := by
  unfold Document.passages document
  cases d.header <;> simp [all, blocks_passages]

end Revision

end Rendition
