/-
# Rendition.Proofs.Tree.Revision -- a revision is known by what it does to the passages

`Revision.document` rebuilds a document around its revised passages.  Two
revisions, even with different states, that make the same of the passages of a
document make the same of the document (`document_congr`).
-/
import Rendition.Tree.Passages

namespace Rendition.Revision

set_option autoImplicit false

variable {σ τ : Type} (revise : Revision σ) (other : Revision τ)

@[simp] theorem length_all (passages : List (List Inline)) (state : σ) :
    (revise.all passages state).1.length = passages.length := by
  induction passages generalizing state with
  | nil => rfl
  | cons passage rest ih => simp [all, ih]

/-- Agreement on two lists of passages one after the other is agreement on each. -/
theorem all_append_congr {first second : List (List Inline)} {state : σ} {state' : τ}
    (same : (revise.all (first ++ second) state).1 = (other.all (first ++ second) state').1) :
    (revise.all first state).1 = (other.all first state').1 ∧
      (revise.all second (revise.all first state).2).1 =
        (other.all second (other.all first state').2).1 := by
  rw [all_append, all_append] at same
  exact List.append_inj same (by rw [length_all, length_all])

/-- Two revisions that agree on a list of passages agree on the first and on the rest. -/
theorem all_cons_congr {passage : List Inline} {rest : List (List Inline)} {state : σ} {state' : τ}
    (same : (revise.all (passage :: rest) state).1 = (other.all (passage :: rest) state').1) :
    (revise passage state).1 = (other passage state').1 ∧
      (revise.all rest (revise passage state).2).1 =
        (other.all rest (other passage state').2).1 :=
  List.cons.inj same

mutual

/-- Two revisions that agree on the passages of a block agree on the block. -/
theorem block_congr (b : Block) {state : σ} {state' : τ}
    (same : (revise.all b.passages state).1 = (other.all b.passages state').1) :
    (revise.block b state).1 = (other.block b state').1 := by
  cases b with
  | paragraph | heading | verse =>
      obtain ⟨title, same⟩ := all_cons_congr revise other same
      obtain ⟨content, -⟩ := all_cons_congr revise other same
      simp only [block, info, title, content]
  | «section» info level title children =>
      obtain ⟨blockTitle, same⟩ := all_cons_congr revise other same
      obtain ⟨heading, same⟩ := all_cons_congr revise other same
      have children := blocks_congr children same
      simp only [block, Revision.info, blockTitle, heading, children]
  | listing | literal | math | command =>
      obtain ⟨title, -⟩ := all_cons_congr revise other same
      simp only [block, info, title]
  | list info kind entries =>
      obtain ⟨title, same⟩ := all_cons_congr revise other same
      have entries := items_congr entries same
      simp only [block, Revision.info, title, entries]
  | descriptions info entries =>
      obtain ⟨title, same⟩ := all_cons_congr revise other same
      have entries := descriptions_congr entries same
      simp only [block, Revision.info, title, entries]
  | table => rfl
  | enclosure _ _ children | quote _ _ _ children | admonition _ _ children =>
      obtain ⟨title, same⟩ := all_cons_congr revise other same
      have children := blocks_congr children same
      simp only [block, Revision.info, title, children]

theorem blocks_congr (bs : List Block) {state : σ} {state' : τ}
    (same : (revise.all (Block.passagesAll bs) state).1 =
      (other.all (Block.passagesAll bs) state').1) :
    (revise.blocks bs state).1 = (other.blocks bs state').1 := by
  match bs with
  | [] => rfl
  | b :: rest =>
      obtain ⟨first, second⟩ := all_append_congr revise other same
      rw [block_passages, block_passages] at second
      simp only [blocks, block_congr b first, blocks_congr rest second]

theorem items_congr (entries : List (ListItem Block)) {state : σ} {state' : τ}
    (same : (revise.all (Block.passagesOfItems entries) state).1 =
      (other.all (Block.passagesOfItems entries) state').1) :
    (revise.items entries state).1 = (other.items entries state').1 := by
  match entries with
  | [] => rfl
  | ⟨marker, content, children⟩ :: rest =>
      obtain ⟨content, same⟩ := all_cons_congr revise other same
      obtain ⟨first, second⟩ := all_append_congr revise other same
      rw [blocks_passages, blocks_passages] at second
      simp only [items, content, blocks_congr children first, items_congr rest second]

theorem descriptions_congr (entries : List (DescriptionItem Block)) {state : σ} {state' : τ}
    (same : (revise.all (Block.passagesOfDescriptions entries) state).1 =
      (other.all (Block.passagesOfDescriptions entries) state').1) :
    (revise.descriptions entries state).1 = (other.descriptions entries state').1 := by
  match entries with
  | [] => rfl
  | ⟨terms, description, children⟩ :: rest =>
      obtain ⟨terms, same⟩ := all_append_congr revise other same
      obtain ⟨description, same⟩ := all_cons_congr revise other same
      obtain ⟨first, second⟩ := all_append_congr revise other same
      rw [blocks_passages, blocks_passages] at second
      simp only [descriptions, terms, description, blocks_congr children first,
        descriptions_congr rest second]

end

/-- **Two revisions that agree on the passages of a document agree on the document.** -/
theorem document_congr (d : Document) {state : σ} {state' : τ}
    (same : (revise.all d.passages state).1 = (other.all d.passages state').1) :
    (revise.document d state).1 = (other.document d state').1 := by
  unfold Document.passages at same
  unfold document
  cases header : d.header with
  | none =>
      simp only [header] at same
      simp only [blocks_congr revise other d.blocks same]
  | some h =>
      simp only [header] at same
      obtain ⟨title, same⟩ := all_cons_congr revise other same
      simp only [title, blocks_congr revise other d.blocks same]

end Rendition.Revision
