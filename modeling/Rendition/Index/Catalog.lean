/-
# Rendition.Index.Catalog -- the index of a document

An index has up to three levels.  Terms are trimmed; a blank term ends an entry,
so that what follows it is ignored.  Names of the first and the second level are
kept in ascending order of their code points, none twice: `upsert` puts in one name
(`mem_names_upsert`) and keeps the order (`upsert_pairwise`).

Names of the third level are kept in the order in which they were added.  They are
put in order when the index is read: `Catalog.entries` is the index with
`ascending` names at every level (`mem_ascending`, `ascending_pairwise`).
-/
import Rendition.Text.Blank

namespace Rendition.Index

set_option autoImplicit false

/-- A second-level term and the third-level terms under it. -/
structure Secondary where
  name : String
  tertiaries : List String
  deriving DecidableEq

/-- A first-level term and the second-level terms under it. -/
structure Entry where
  primary : String
  secondaries : List Secondary
  deriving DecidableEq

/-- An index, with third-level terms in the order in which they were added. -/
structure Catalog where
  stored : List Entry
  deriving DecidableEq

/-! ## Ascending names -/

/-- Names in ascending order, each once. -/
def ascending (names : List String) : List String := (names.mergeSort (· ≤ ·)).eraseReps

theorem eraseReps_loop (names kept : List String) (last : String) :
    List.eraseRepsBy.loop (· == ·) last names kept =
      kept.reverse ++ List.eraseRepsBy.loop (· == ·) last names [] := by
  induction names generalizing kept last with
  | nil => simp [List.eraseRepsBy.loop]
  | cons name rest ih =>
      simp only [List.eraseRepsBy.loop]
      split
      · exact ih kept last
      · rw [ih (last :: kept), ih [last], List.reverse_cons, List.append_assoc]
        rfl

theorem eraseReps_cons_cons (first second : String) (rest : List String) :
    (first :: second :: rest).eraseReps =
      if first = second then (second :: rest).eraseReps
      else first :: (second :: rest).eraseReps := by
  show List.eraseRepsBy.loop _ first (second :: rest) [] = _
  by_cases same : first = second
  · subst same
    rw [if_pos rfl, List.eraseRepsBy.loop, beq_self_eq_true]
    rfl
  · rw [if_neg same, List.eraseRepsBy.loop, beq_eq_false_iff_ne.mpr same]
    exact eraseReps_loop rest [first] second

/-- Dropping repetitions drops no name. -/
theorem mem_eraseReps {names : List String} {name : String} :
    name ∈ names.eraseReps ↔ name ∈ names := by
  match names with
  | [] | [_] => exact Iff.rfl
  | first :: second :: rest =>
      rw [eraseReps_cons_cons]
      split
      · rename_i same
        rw [mem_eraseReps, same, List.mem_cons, List.mem_cons, List.mem_cons, ← or_assoc, or_self]
      · rw [List.mem_cons, mem_eraseReps, ← List.mem_cons]

/-- Erasing repetitions makes an order strict. -/
theorem eraseReps_pairwise {names : List String} (sorted : names.Pairwise (· ≤ ·)) :
    names.eraseReps.Pairwise (· < ·) := by
  match names with
  | [] => exact List.Pairwise.nil
  | [_] => exact List.pairwise_singleton ..
  | first :: second :: rest =>
      obtain ⟨least, others⟩ := List.pairwise_cons.mp sorted
      rw [eraseReps_cons_cons]
      split
      · exact eraseReps_pairwise others
      · rename_i differs
        refine List.pairwise_cons.mpr ⟨fun name inside => ?_, eraseReps_pairwise others⟩
        have before : first < second :=
          Std.lt_of_le_of_ne (least second List.mem_cons_self) differs
        rcases List.mem_cons.mp (mem_eraseReps.mp inside) with rfl | later
        · exact before
        · exact Std.lt_of_lt_of_le before ((List.pairwise_cons.mp others).1 name later)

theorem mem_ascending {names : List String} {name : String} :
    name ∈ ascending names ↔ name ∈ names := by
  rw [ascending, mem_eraseReps, List.mem_mergeSort]

/-- Sorted and without repetitions, names stand in strictly ascending order. -/
theorem ascending_pairwise (names : List String) : (ascending names).Pairwise (· < ·) := by
  have transitive (first second third : String) (before : decide (first ≤ second) = true)
      (after : decide (second ≤ third) = true) : decide (first ≤ third) = true :=
    decide_eq_true (Std.le_trans (of_decide_eq_true before) (of_decide_eq_true after))
  have total (first second : String) :
      (decide (first ≤ second) || decide (second ≤ first)) = true := by
    simpa using Std.le_total
  have sorted := List.pairwise_mergeSort transitive total names
  exact eraseReps_pairwise (sorted.imp of_decide_eq_true)

/-! ## Items by name -/

/-- Change the item of a name in a list sorted by name, after putting a new item there if there is
none. -/
def upsert {α : Type} (nameOf : α → String) (fresh : α) (change : α → α) (name : String) :
    List α → List α
  | [] => [change fresh]
  | item :: rest =>
      if name < nameOf item then change fresh :: item :: rest
      else if name = nameOf item then change item :: rest
      else item :: upsert nameOf fresh change name rest

/-- An upsert adds no name but its own and drops none. -/
theorem mem_names_upsert {α : Type} {nameOf : α → String} {fresh : α} {change : α → α}
    {name : String} (freshName : nameOf (change fresh) = name)
    (keepsName : ∀ item, nameOf (change item) = nameOf item) (items : List α) (other : String) :
    other ∈ (upsert nameOf fresh change name items).map nameOf ↔
      other = name ∨ other ∈ items.map nameOf := by
  induction items with
  | nil => simp [upsert, freshName]
  | cons item rest ih =>
      simp only [upsert]
      split
      · simp [freshName]
      · split
        · rename_i same
          simp [keepsName, same]
        · rw [List.map_cons, List.mem_cons, ih, List.map_cons, List.mem_cons]
          exact or_left_comm

/-- An upsert keeps names in strictly ascending order. -/
theorem upsert_pairwise {α : Type} {nameOf : α → String} {fresh : α} {change : α → α}
    {name : String} (freshName : nameOf (change fresh) = name)
    (keepsName : ∀ item, nameOf (change item) = nameOf item) {items : List α}
    (ascending : (items.map nameOf).Pairwise (· < ·)) :
    ((upsert nameOf fresh change name items).map nameOf).Pairwise (· < ·) := by
  induction items with
  | nil => simp [upsert]
  | cons item rest ih =>
      rw [List.map_cons, List.pairwise_cons] at ascending
      simp only [upsert]
      split
      · rename_i before
        simp only [List.map_cons, List.pairwise_cons, freshName, List.mem_cons]
        refine ⟨?_, ascending⟩
        rintro other (rfl | later)
        · exact before
        · exact String.lt_trans before (ascending.1 other later)
      · split
        · simpa [keepsName] using ascending
        · rename_i notBefore differs
          rw [List.map_cons, List.pairwise_cons]
          refine ⟨fun other inside => ?_, ih ascending.2⟩
          rcases (mem_names_upsert freshName keepsName rest other).mp inside with rfl | later
          · exact Std.lt_of_le_of_ne (Std.not_lt.mp notBefore) (Ne.symm differs)
          · exact ascending.1 other later

/-! ## Terms -/

/-- The term at a level, trimmed; none if it is missing or blank. -/
def level? (terms : List String) (level : Nat) : Option String := do
  let term := Text.trimmed (← terms[level]?)
  if term.isEmpty then none else some term

namespace Secondary

/-- The secondary with a third-level term at the end, unless it is there already. -/
def add (secondary : Secondary) (tertiary : Option String) : Secondary :=
  match tertiary with
  | some name =>
      if secondary.tertiaries.contains name then secondary
      else { secondary with tertiaries := secondary.tertiaries ++ [name] }
  | none => secondary

/-- The secondary as it is read, with its third-level terms in order. -/
def sorted (secondary : Secondary) : Secondary :=
  { secondary with tertiaries := ascending secondary.tertiaries }

end Secondary

namespace Entry

/-- The entry with the lower levels of a term. -/
def add (entry : Entry) (secondary tertiary : Option String) : Entry :=
  match secondary with
  | some name =>
      { entry with
        secondaries := upsert Secondary.name ⟨name, []⟩ (·.add tertiary) name entry.secondaries }
  | none => entry

/-- The entry as it is read. -/
def sorted (entry : Entry) : Entry :=
  { entry with secondaries := entry.secondaries.map Secondary.sorted }

end Entry

namespace Catalog

def empty : Catalog := ⟨[]⟩

def isEmpty (catalog : Catalog) : Bool := catalog.stored.isEmpty

/-- What is read of an index: ascending names at every level. -/
def entries (catalog : Catalog) : List Entry := catalog.stored.map Entry.sorted

def add (catalog : Catalog) (terms : List String) : Catalog :=
  match level? terms 0 with
  | some name =>
      ⟨upsert Entry.primary ⟨name, []⟩ (·.add (level? terms 1) (level? terms 2)) name
        catalog.stored⟩
  | none => catalog

def ofTerms (terms : List (List String)) : Catalog := terms.foldl add empty

end Catalog

end Rendition.Index
