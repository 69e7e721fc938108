/-
# Rendition.Proofs.Footnote.Dense -- the counter, the index and the definitions agree

A ledger is *dense* if its counter is one more than the number of its definitions,
its index finds number `place + 1` at `place`, the definition there carries that
number, and the number of every key has a definition.  The empty ledger is dense
and entering a footnote keeps it so (`Dense.enter`); hence so is the ledger after
any part of a document, and the definitions of a document carry the numbers from
one without gaps (`id_definitions`).

In a dense ledger the definition of a number is found and changed by its place
(`Dense.definition?_succ`, `Dense.contents_define`), which is all that what follows
uses of the counter and the index.
-/
import Rendition.Footnote.Resolve

namespace Rendition.Footnote

set_option autoImplicit false

namespace Ledger

variable (ledger : Ledger) (content : List Inline)

def contents : List (List Inline) := ledger.definitions.map (·.content)

@[simp] theorem length_contents : ledger.contents.length = ledger.definitions.length := by
  rw [contents, List.length_map]

/-! ## Operations -/

@[simp] theorem contents_allocate :
    (ledger.allocate content).2.contents = ledger.contents ++ [content] := by
  rw [contents, allocate, List.map_append]
  rfl

@[simp] theorem number?_allocate (key : String) :
    (ledger.allocate content).2.number? key = ledger.number? key := rfl

theorem place?_allocate_self :
    (ledger.allocate content).2.place? ledger.next = some ledger.definitions.length :=
  List.lookup_cons_self

theorem place?_allocate_of_ne {number : Nat} (differs : number ≠ ledger.next) :
    (ledger.allocate content).2.place? number = ledger.place? number := by
  have skipped : (number == ledger.next) = false := by simpa using differs
  show List.lookup number ((ledger.next, _) :: ledger.places) = _
  rw [List.lookup_cons, skipped]
  rfl

@[simp] theorem contents_allocateKey (key : String) :
    (ledger.allocateKey key content).2.contents = ledger.contents ++ [content] :=
  contents_allocate ledger content

@[simp] theorem number?_allocateKey_self (key : String) :
    (ledger.allocateKey key content).2.number? key = some ledger.next :=
  List.lookup_cons_self

theorem number?_allocateKey_of_ne {key other : String} (differs : other ≠ key) :
    (ledger.allocateKey key content).2.number? other = ledger.number? other := by
  have skipped : (other == key) = false := by simpa using differs
  show List.lookup other ((key, _) :: ledger.numbers) = _
  rw [List.lookup_cons, skipped]
  rfl

/-- A definition is changed at its place, and nothing else. -/
theorem define_of_place? {number place : Nat} (found : ledger.place? number = some place) :
    ledger.define number content =
      { ledger with definitions := ledger.definitions.modify place ({ · with content }) } := by
  rw [define, found]

/-- A number without a place has no definition to change. -/
theorem define_of_place?_eq_none {number : Nat} (missing : ledger.place? number = none) :
    ledger.define number content = ledger := by
  rw [define, missing]

@[simp] theorem number?_define (number : Nat) (key : String) :
    (ledger.define number content).number? key = ledger.number? key := by
  unfold define
  split <;> rfl

@[simp] theorem length_definitions_define (number : Nat) :
    (ledger.define number content).definitions.length = ledger.definitions.length := by
  unfold define
  split
  · exact List.length_modify ..
  · rfl

theorem mem_contents_define {number : Nat} {other : List Inline}
    (inside : other ∈ (ledger.define number content).contents) :
    other ∈ ledger.contents ∨ other = content := by
  cases found : ledger.place? number with
  | none =>
      rw [define_of_place?_eq_none ledger content found] at inside
      exact .inl inside
  | some place =>
      rw [define_of_place? ledger content found] at inside
      obtain ⟨definition, stored, rfl⟩ := List.mem_map.mp inside
      obtain ⟨index, at_⟩ := List.getElem?_of_mem stored
      rw [List.getElem?_modify] at at_
      obtain ⟨old, known, rfl⟩ := Option.map_eq_some_iff.mp at_
      by_cases same : place = index
      · exact .inr (by rw [if_pos same])
      · rw [if_neg same]
        exact .inl (List.mem_map_of_mem (List.mem_of_getElem? known))

/-! ## Dense ledgers -/

/-- The counter, the index and the definitions agree. -/
structure Dense (ledger : Ledger) : Prop where
  next : ledger.next = ledger.definitions.length + 1
  place : ∀ place < ledger.definitions.length, ledger.place? (place + 1) = some place
  id : ∀ place definition, ledger.definitions[place]? = some definition →
    definition.id = UInt32.ofNat (place + 1)
  known : ∀ key number, ledger.number? key = some number →
    ∃ place < ledger.definitions.length, number = place + 1

namespace Dense

theorem empty : Ledger.empty.Dense where
  next := rfl
  place place inside := absurd inside (Nat.not_lt_zero place)
  id _ _ found := by cases found
  known _ _ found := by cases found

variable {ledger}

/-- In a dense ledger the number of a definition is its place, counted from one. -/
theorem definition?_succ (dense : ledger.Dense) {place : Nat}
    (inside : place < ledger.definitions.length) :
    ledger.definition? (place + 1) = some ledger.definitions[place] := by
  rw [definition?, dense.place place inside]
  exact List.getElem?_eq_getElem inside

/-- Changing the definition of a number changes the content at its place and nothing else. -/
theorem contents_define (dense : ledger.Dense) {place : Nat}
    (inside : place < ledger.definitions.length) :
    (ledger.define (place + 1) content).contents = ledger.contents.set place content := by
  rw [define_of_place? ledger content (dense.place place inside)]
  apply List.ext_getElem?
  intro other
  simp only [contents, List.getElem?_map, List.getElem?_modify, List.getElem?_set,
    List.length_map]
  by_cases same : place = other
  · subst same
    simp [inside]
  · simp [same]

/-! ### One step -/

theorem allocate (dense : ledger.Dense) : (ledger.allocate content).2.Dense where
  next := by
    rw [Ledger.allocate, List.length_append, List.length_singleton, dense.next]
  place place inside := by
    rw [Ledger.allocate, List.length_append, List.length_singleton,
      Nat.lt_succ_iff_lt_or_eq] at inside
    rcases inside with old | rfl
    · rw [place?_allocate_of_ne ledger content (by rw [dense.next]; omega), dense.place place old]
    · rw [← dense.next, place?_allocate_self]
  id place definition found := by
    rw [Ledger.allocate, List.getElem?_append] at found
    split at found
    · exact dense.id place definition found
    · rename_i outside
      obtain ⟨inside, same⟩ := List.getElem?_eq_some_iff.mp found
      rw [List.length_singleton] at inside
      obtain rfl : place = ledger.definitions.length := by omega
      rw [← dense.next, ← same, List.getElem_singleton]
  known key number found := by
    obtain ⟨place, inside, same⟩ := dense.known key number found
    rw [Ledger.allocate, List.length_append]
    exact ⟨place, Nat.lt_add_right _ inside, same⟩

theorem allocateKey (dense : ledger.Dense) (key : String) :
    (ledger.allocateKey key content).2.Dense where
  next := (dense.allocate content).next
  place := (dense.allocate content).place
  id := (dense.allocate content).id
  known other number found := by
    by_cases same : other = key
    · subst same
      rw [number?_allocateKey_self, Option.some.injEq] at found
      refine ⟨ledger.definitions.length, ?_, found.symm.trans dense.next⟩
      rw [Ledger.allocateKey, Ledger.allocate, List.length_append]
      exact Nat.lt_succ_self _
    · rw [number?_allocateKey_of_ne ledger content same] at found
      exact (dense.allocate content).known other number found

theorem define (dense : ledger.Dense) (number : Nat) : (ledger.define number content).Dense where
  next := by
    rw [length_definitions_define, ← dense.next, Ledger.define]
    split <;> rfl
  place place inside := by
    rw [length_definitions_define] at inside
    rw [← dense.place place inside, Ledger.define]
    split <;> rfl
  id other definition found := by
    cases at_ : ledger.place? number with
    | none =>
        rw [define_of_place?_eq_none ledger content at_] at found
        exact dense.id other definition found
    | some place =>
        rw [define_of_place? ledger content at_, List.getElem?_modify] at found
        obtain ⟨old, stored, rfl⟩ := Option.map_eq_some_iff.mp found
        rw [← dense.id other old stored]
        split <;> rfl
  known key number found := by
    rw [number?_define] at found
    rw [length_definitions_define]
    exact dense.known key number found

/-- Whatever a footnote does to a dense ledger leaves it dense. -/
theorem enter (dense : ledger.Dense) (key : Option String) :
    (ledger.enter key content).2.2.Dense := by
  unfold Ledger.enter
  cases key with
  | none => exact dense.allocate content
  | some key =>
      dsimp only
      split
      · exact dense.allocateKey content key
      · split
        · exact dense.define content _
        · exact dense

end Dense

end Ledger

/-! ## Runs -/

mutual

/-- A node is numbered after the footnotes in its content, each of which leaves a dense ledger. -/
theorem dense_resolve (inline : Inline) {ledger : Ledger} (dense : ledger.Dense) :
    (resolve inline ledger).2.Dense := by
  match inline with
  | .styled _ content _ | .link _ content _ | .crossReference _ content _ =>
      exact dense_resolveAll content dense
  | .footnote content key _ _ => exact (dense_resolveAll content dense).enter _ key
  | .text _ _ | .math _ _ _ | .passthrough _ _ | .command _ _ | .indexTerm _ _ _ => exact dense

theorem dense_resolveAll (content : List Inline) {ledger : Ledger} (dense : ledger.Dense) :
    (resolveAll content ledger).2.Dense := by
  match content with
  | [] => exact dense
  | inline :: rest => exact dense_resolveAll rest (dense_resolve inline dense)

end

theorem dense_all (passages : List (List Inline)) {ledger : Ledger} (dense : ledger.Dense) :
    (Revision.all resolveAll passages ledger).2.Dense := by
  induction passages generalizing ledger with
  | nil => exact dense
  | cons passage rest ih => exact ih (dense_resolveAll passage dense)

/-- A whole run is dense: it begins with the empty ledger. -/
theorem dense_document (document : Document) :
    (Revision.document resolveAll document .empty).2.Dense := by
  have dense := dense_all document.passages .empty
  rwa [Revision.document_passages] at dense

/-- **Definitions are numbered from one without gaps.** -/
theorem id_definitions (document : Document) {place : Nat}
    (inside : place < (resolveDocument document).definitions.length) :
    (resolveDocument document).definitions[place].id = UInt32.ofNat (place + 1) :=
  (dense_document document).id place _ (List.getElem?_eq_getElem inside)

end Rendition.Footnote
