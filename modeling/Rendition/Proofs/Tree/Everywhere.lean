/-
# Rendition.Proofs.Tree.Everywhere -- conditions on all inline content

A condition holds `everywhere` in a document if it holds of every inline
sequence in it.  These are more than the passages: the block title of a table is
no passage, since no revision changes it, but it is shown like any other.

A revision that keeps a condition from passage to passage, given a condition on
its state, keeps it everywhere (`Keeps.document`).
-/
import Rendition.Tree.Passages

namespace Rendition

set_option autoImplicit false

/-! ## Everywhere -/

mutual

/-- Whether a condition holds of all inline sequences of a block. -/
def Block.everywhere (holds : List Inline → Bool) : Block → Bool
  | .paragraph info content | .heading info _ content | .verse info content _ =>
      holds info.title && holds content
  | .section info _ title blocks =>
      holds info.title && (holds title && Block.everywhereAll holds blocks)
  | .listing info _ _ | .literal info _ | .math info _ | .command info _ _ | .table info _ =>
      holds info.title
  | .list info _ items => holds info.title && Block.everywhereItems holds items
  | .descriptions info items => holds info.title && Block.everywhereDescriptions holds items
  | .enclosure _ info blocks | .quote info _ _ blocks | .admonition info _ blocks =>
      holds info.title && Block.everywhereAll holds blocks

def Block.everywhereAll (holds : List Inline → Bool) : List Block → Bool
  | [] => true
  | block :: rest => block.everywhere holds && Block.everywhereAll holds rest

def Block.everywhereItems (holds : List Inline → Bool) : List (ListItem Block) → Bool
  | [] => true
  | ⟨_, content, blocks⟩ :: rest =>
      holds content && (Block.everywhereAll holds blocks && Block.everywhereItems holds rest)

def Block.everywhereDescriptions (holds : List Inline → Bool) :
    List (DescriptionItem Block) → Bool
  | [] => true
  | ⟨terms, description, blocks⟩ :: rest =>
      terms.all holds && (holds description &&
        (Block.everywhereAll holds blocks && Block.everywhereDescriptions holds rest))

end

def Document.everywhere (holds : List Inline → Bool) (document : Document) : Bool :=
  document.header.all (fun header => holds header.title) &&
    Block.everywhereAll holds document.blocks

namespace Revision

variable {σ : Type} (revise : Revision σ) (holds : List Inline → Bool) (sound : σ → Prop)

/-- A revision that keeps a condition on passages, given a condition on its state. -/
def Keeps : Prop := ∀ {passage : List Inline} {state : σ}, sound state → holds passage →
  holds (revise passage state).1 ∧ sound (revise passage state).2

variable {revise holds sound}

/-- The condition goes from passage to passage with the state. -/
theorem Keeps.all (keeps : Keeps revise holds sound) {passages : List (List Inline)} {state : σ}
    (start : sound state) (held : passages.all holds) :
    (revise.all passages state).1.all holds ∧ sound (revise.all passages state).2 := by
  induction passages generalizing state with
  | nil => exact ⟨rfl, start⟩
  | cons passage rest ih =>
      rw [List.all_cons, Bool.and_eq_true] at held
      obtain ⟨first, start⟩ := keeps start held.1
      obtain ⟨others, stop⟩ := ih start held.2
      exact ⟨(Bool.and_eq_true ..).mpr ⟨first, others⟩, stop⟩

mutual

/-- A revision that keeps a condition on passages keeps it everywhere in a block. -/
theorem Keeps.block (keeps : Keeps revise holds sound) (b : Block) {state : σ}
    (start : sound state) (held : b.everywhere holds) :
    (revise.block b state).1.everywhere holds ∧ sound (revise.block b state).2 := by
  cases b with
  | paragraph | heading | verse =>
      rw [Block.everywhere, Bool.and_eq_true] at held
      obtain ⟨title, start⟩ := keeps start held.1
      obtain ⟨content, stop⟩ := keeps start held.2
      exact ⟨(Bool.and_eq_true ..).mpr ⟨title, content⟩, stop⟩
  | «section» info level heading children =>
      rw [Block.everywhere, Bool.and_eq_true, Bool.and_eq_true] at held
      obtain ⟨title, start⟩ := keeps start held.1
      obtain ⟨heading, start⟩ := keeps start held.2.1
      obtain ⟨children, stop⟩ := keeps.blocks children start held.2.2
      refine ⟨?_, stop⟩
      exact (Bool.and_eq_true ..).mpr ⟨title, (Bool.and_eq_true ..).mpr ⟨heading, children⟩⟩
  | listing | literal | math | command => exact keeps start held
  | list info kind entries =>
      rw [Block.everywhere, Bool.and_eq_true] at held
      obtain ⟨title, start⟩ := keeps start held.1
      obtain ⟨entries, stop⟩ := keeps.items entries start held.2
      exact ⟨(Bool.and_eq_true ..).mpr ⟨title, entries⟩, stop⟩
  | descriptions info entries =>
      rw [Block.everywhere, Bool.and_eq_true] at held
      obtain ⟨title, start⟩ := keeps start held.1
      obtain ⟨entries, stop⟩ := keeps.descriptions entries start held.2
      exact ⟨(Bool.and_eq_true ..).mpr ⟨title, entries⟩, stop⟩
  | table => exact ⟨held, start⟩
  | enclosure _ _ children | quote _ _ _ children | admonition _ _ children =>
      rw [Block.everywhere, Bool.and_eq_true] at held
      obtain ⟨title, start⟩ := keeps start held.1
      obtain ⟨children, stop⟩ := keeps.blocks children start held.2
      exact ⟨(Bool.and_eq_true ..).mpr ⟨title, children⟩, stop⟩

theorem Keeps.blocks (keeps : Keeps revise holds sound) (bs : List Block) {state : σ}
    (start : sound state) (held : Block.everywhereAll holds bs) :
    Block.everywhereAll holds (revise.blocks bs state).1 ∧ sound (revise.blocks bs state).2 := by
  match bs with
  | [] => exact ⟨rfl, start⟩
  | b :: rest =>
      rw [Block.everywhereAll, Bool.and_eq_true] at held
      obtain ⟨first, start⟩ := keeps.block b start held.1
      obtain ⟨others, stop⟩ := keeps.blocks rest start held.2
      exact ⟨(Bool.and_eq_true ..).mpr ⟨first, others⟩, stop⟩

theorem Keeps.items (keeps : Keeps revise holds sound) (entries : List (ListItem Block))
    {state : σ} (start : sound state) (held : Block.everywhereItems holds entries) :
    Block.everywhereItems holds (revise.items entries state).1 ∧
      sound (revise.items entries state).2 := by
  match entries with
  | [] => exact ⟨rfl, start⟩
  | ⟨marker, content, children⟩ :: rest =>
      rw [Block.everywhereItems, Bool.and_eq_true, Bool.and_eq_true] at held
      obtain ⟨content, start⟩ := keeps start held.1
      obtain ⟨children, start⟩ := keeps.blocks children start held.2.1
      obtain ⟨others, stop⟩ := keeps.items rest start held.2.2
      refine ⟨?_, stop⟩
      exact (Bool.and_eq_true ..).mpr ⟨content, (Bool.and_eq_true ..).mpr ⟨children, others⟩⟩

theorem Keeps.descriptions (keeps : Keeps revise holds sound)
    (entries : List (DescriptionItem Block)) {state : σ} (start : sound state)
    (held : Block.everywhereDescriptions holds entries) :
    Block.everywhereDescriptions holds (revise.descriptions entries state).1 ∧
      sound (revise.descriptions entries state).2 := by
  match entries with
  | [] => exact ⟨rfl, start⟩
  | ⟨terms, description, children⟩ :: rest =>
      rw [Block.everywhereDescriptions, Bool.and_eq_true, Bool.and_eq_true,
        Bool.and_eq_true] at held
      obtain ⟨terms, start⟩ := keeps.all start held.1
      obtain ⟨description, start⟩ := keeps start held.2.1
      obtain ⟨children, start⟩ := keeps.blocks children start held.2.2.1
      obtain ⟨others, stop⟩ := keeps.descriptions rest start held.2.2.2
      refine ⟨(Bool.and_eq_true ..).mpr ⟨terms, ?_⟩, stop⟩
      exact (Bool.and_eq_true ..).mpr ⟨description, (Bool.and_eq_true ..).mpr ⟨children, others⟩⟩

end

/-- A revision that keeps a condition keeps it everywhere. -/
theorem Keeps.document (keeps : Keeps revise holds sound) (d : Document) {state : σ}
    (start : sound state) (held : d.everywhere holds) :
    (revise.document d state).1.everywhere holds ∧ sound (revise.document d state).2 := by
  unfold Revision.document
  rw [Document.everywhere, Bool.and_eq_true] at held
  cases header : d.header with
  | none =>
      obtain ⟨children, stop⟩ := keeps.blocks d.blocks start held.2
      exact ⟨(Bool.and_eq_true ..).mpr ⟨rfl, children⟩, stop⟩
  | some h =>
      rw [header] at held
      obtain ⟨title, start⟩ := keeps start held.1
      obtain ⟨children, stop⟩ := keeps.blocks d.blocks start held.2
      exact ⟨(Bool.and_eq_true ..).mpr ⟨title, children⟩, stop⟩

end Revision

end Rendition
