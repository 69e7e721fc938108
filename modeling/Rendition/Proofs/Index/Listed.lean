/-
# Rendition.Proofs.Index.Listed -- what an index lists

A *path* is what a reader looks up: a name of the first level, one of the second
level under it, one of the third.  A term names a path if its first levels trim
to the names of the path and none of these is blank (`Names`).

An index lists exactly the paths that its terms name (`lists_ofTerms`), and at
each level the names are read in strictly ascending order (`ascending_ofTerms`).
What is read of such an index is determined by the paths that it lists
(`Catalog.entries_eq_of_lists`), so its terms count as a set: neither their order
nor their number shows.

Putting names in order when the index is read changes no path
(`Catalog.lists_cons_iff`), so that what an added term does is said of the stored
index.
-/
import Mathlib.Data.List.Sort
import Rendition.Index.Catalog

namespace Rendition.Index

set_option autoImplicit false

/-! ## Items by name -/

section Upsert

variable {α : Type} {nameOf : α → String} {fresh : α} {change : α → α} {name : String}

/-- An upsert adds to the item of its name what the change adds to every item, and changes no
other: here `holds` is something known of an item, such as what stands under it. -/
theorem exists_mem_upsert (holds : α → Prop) {added : Prop} (freshName : nameOf fresh = name)
    (keepsName : ∀ item, nameOf (change item) = nameOf item)
    (changed : ∀ item, holds (change item) ↔ holds item ∨ added) (bare : holds fresh → added)
    (items : List α) (other : String) :
    (∃ item ∈ upsert nameOf fresh change name items, nameOf item = other ∧ holds item) ↔
      (∃ item ∈ items, nameOf item = other ∧ holds item) ∨ (name = other ∧ added) := by
  have made : nameOf (change fresh) = other ∧ holds (change fresh) ↔ name = other ∧ added := by
    rw [keepsName, freshName, changed]
    exact and_congr_right fun _ => or_iff_right_of_imp bare
  induction items with
  | nil => simp [upsert, made]
  | cons item rest ih =>
      simp only [upsert]
      split
      · simp only [List.exists_mem_cons_iff, made]
        exact or_comm
      · split
        · rename_i same
          simp only [List.exists_mem_cons_iff, keepsName, changed, ← same, and_or_left]
          exact or_right_comm
        · simp only [List.exists_mem_cons_iff, ih]
          exact or_assoc.symm

/-- What holds of a changed fresh item and survives a change holds after an upsert. -/
theorem forall_mem_upsert {good : α → Prop} (made : good (change fresh))
    (kept : ∀ item, good item → good (change item)) {items : List α}
    (all : ∀ item ∈ items, good item) :
    ∀ item ∈ upsert nameOf fresh change name items, good item := by
  induction items with
  | nil => simpa [upsert] using made
  | cons item rest ih =>
      obtain ⟨first, others⟩ := List.forall_mem_cons.mp all
      simp only [upsert]
      split
      · exact List.forall_mem_cons.mpr ⟨made, all⟩
      · split
        · exact List.forall_mem_cons.mpr ⟨kept item first, others⟩
        · exact List.forall_mem_cons.mpr ⟨first, ih others⟩

end Upsert

section Ascending

variable {α : Type} {nameOf : α → String} {items others : List α}

/-- In a list sorted by name, what holds of some item of a name holds of the item of that name. -/
theorem exists_named_iff (ascending : (items.map nameOf).Pairwise (· < ·)) {item : α}
    (inside : item ∈ items) {holds : α → Prop} :
    (∃ other ∈ items, nameOf other = nameOf item ∧ holds other) ↔ holds item := by
  have distinct : (items.map nameOf).Nodup := by
    refine List.Pairwise.imp ?_ ascending
    intro first second less same
    exact String.lt_irrefl second (same ▸ less)
  constructor
  · rintro ⟨other, listed, same, held⟩
    rwa [← List.inj_on_of_nodup_map distinct listed inside same]
  · intro held
    exact ⟨item, inside, rfl, held⟩

/-- Lists sorted by name are equal if they have the same names and a name stands for the same item
in both. -/
theorem eq_of_names (ascending : (items.map nameOf).Pairwise (· < ·))
    (ascending' : (others.map nameOf).Pairwise (· < ·))
    (names : ∀ name, name ∈ items.map nameOf ↔ name ∈ others.map nameOf)
    (determined : ∀ item ∈ items, ∀ other ∈ others, nameOf item = nameOf other → item = other) :
    items = others := by
  have same : items.map nameOf = others.map nameOf :=
    ascending.eq_of_mem_iff ascending' fun name => names name
  have length : items.length = others.length := by
    simpa using congrArg List.length same
  apply List.ext_getElem length
  intro index inside inside'
  apply determined _ (List.getElem_mem inside) _ (List.getElem_mem inside')
  have named := List.getElem_of_eq same (by simpa using inside)
  simpa using named

/-- Names in strictly ascending order are read as they are stored. -/
theorem ascending_of_pairwise {names : List String} (ordered : names.Pairwise (· < ·)) :
    ascending names = names :=
  (ascending_pairwise names).eq_of_mem_iff ordered fun _ => mem_ascending

end Ascending

/-! ## Paths -/

/-- Whether the first levels of a term trim to the names of a path, none of which is blank. -/
def Names (term path : List String) : Prop := path <+: term.map Text.trimmed ∧ "" ∉ path

theorem names_nil (term : List String) : Names term [] := ⟨List.nil_prefix, List.not_mem_nil⟩

theorem level?_eq_some_iff {term : List String} {position : Nat} {name : String} :
    level? term position = some name ↔
      (term.map Text.trimmed)[position]? = some name ∧ name ≠ "" := by
  rw [level?, List.getElem?_map]
  cases term[position]? with
  | none => simp
  | some level =>
      simp only [Option.bind_eq_bind, Option.bind_some, Option.map_some, String.isEmpty_iff,
        Option.ite_none_left_eq_some, Option.some.injEq]
      constructor
      · rintro ⟨solid, rfl⟩
        exact ⟨rfl, solid⟩
      · rintro ⟨rfl, solid⟩
        exact ⟨solid, rfl⟩

theorem level?_tail (term : List String) (position : Nat) :
    level? term.tail position = level? term (position + 1) := by
  rw [level?, level?, List.getElem?_tail]

/-- The names of a path, level by level. -/
theorem names_cons_iff {term path : List String} {name : String} :
    Names term (name :: path) ↔ level? term 0 = some name ∧ Names term.tail path := by
  rw [level?_eq_some_iff, Names, Names]
  cases term with
  | nil => simp
  | cons level levels =>
      simp only [List.map_cons, List.cons_prefix_cons, List.mem_cons, not_or, List.tail_cons,
        List.getElem?_cons_zero, Option.some.injEq]
      constructor
      · rintro ⟨⟨rfl, within⟩, solid, others⟩
        exact ⟨⟨rfl, Ne.symm solid⟩, within, others⟩
      · rintro ⟨⟨rfl, solid⟩, within, others⟩
        exact ⟨⟨rfl, within⟩, Ne.symm solid, others⟩

/-! ## What is listed -/

def Secondary.Lists (secondary : Secondary) : List String → Prop
  | [] => True
  | [tertiary] => tertiary ∈ secondary.tertiaries
  | _ => False

def Entry.Lists (entry : Entry) : List String → Prop
  | [] => True
  | name :: path => ∃ secondary ∈ entry.secondaries, secondary.name = name ∧ secondary.Lists path

/-- Whether a path leads to something in an index. -/
def Catalog.Lists (catalog : Catalog) : List String → Prop
  | [] => True
  | name :: path => ∃ entry ∈ catalog.entries, entry.primary = name ∧ entry.Lists path

theorem Secondary.name_add (secondary : Secondary) (tertiary : Option String) :
    (secondary.add tertiary).name = secondary.name := by
  unfold add
  split
  · split <;> rfl
  · rfl

theorem Entry.primary_add (entry : Entry) (secondary tertiary : Option String) :
    (entry.add secondary tertiary).primary = entry.primary := by
  cases secondary <;> rfl

/-! ### Reading -/

theorem Secondary.lists_sorted (secondary : Secondary) (path : List String) :
    secondary.sorted.Lists path ↔ secondary.Lists path := by
  match path with
  | [] => exact Iff.rfl
  | [_] => exact mem_ascending
  | _ :: _ :: _ => exact Iff.rfl

theorem Entry.lists_sorted (entry : Entry) (path : List String) :
    entry.sorted.Lists path ↔ entry.Lists path := by
  cases path with
  | nil => exact Iff.rfl
  | cons name path =>
      simp only [Lists, sorted, List.mem_map, exists_exists_and_eq_and, Secondary.lists_sorted]
      rfl

/-- A path leads to the same in an index as it is read and as it is stored. -/
theorem Catalog.lists_cons_iff (catalog : Catalog) (name : String) (path : List String) :
    catalog.Lists (name :: path) ↔
      ∃ entry ∈ catalog.stored, entry.primary = name ∧ entry.Lists path := by
  simp only [Lists, entries, List.mem_map, exists_exists_and_eq_and, Entry.lists_sorted]
  rfl

/-! ### One more term -/

/-- A third level adds the paths it names and no others. -/
theorem Secondary.lists_add (secondary : Secondary) (term path : List String) :
    (secondary.add (level? term 0)).Lists path ↔
      secondary.Lists path ∨ path.length ≤ 1 ∧ Names term path := by
  match path with
  | [] => exact iff_of_true trivial (.inl trivial)
  | [name] =>
      simp only [List.length_singleton, le_refl, true_and, names_cons_iff, names_nil, and_true]
      cases first : level? term 0 with
      | none => simp [add]
      | some tertiary =>
          rw [Option.some.injEq, @eq_comm _ tertiary, add]
          split
          · rename_i known
            rw [List.contains_iff_mem] at known
            exact (or_iff_left_of_imp fun same => same ▸ known).symm
          · rw [Lists, List.mem_append, List.mem_singleton]
            rfl
  | _ :: _ :: rest => simp [Lists]

theorem Secondary.lists_fresh {name : String} {path : List String}
    (listed : (⟨name, []⟩ : Secondary).Lists path) : path = [] := by
  match path, listed with
  | [], _ => rfl
  | [_], listed => exact absurd listed List.not_mem_nil

theorem Entry.lists_fresh {name : String} {path : List String}
    (listed : (⟨name, []⟩ : Entry).Lists path) : path = [] := by
  match path, listed with
  | [], _ => rfl
  | _ :: _, ⟨_, inside, _⟩ => exact absurd inside List.not_mem_nil

/-- The two lower levels add the paths they name and no others. -/
theorem Entry.lists_add (entry : Entry) (term path : List String) :
    (entry.add (level? term 0) (level? term 1)).Lists path ↔
      entry.Lists path ∨ path.length ≤ 2 ∧ Names term path := by
  cases path with
  | nil => exact iff_of_true trivial (.inl trivial)
  | cons name path =>
      rw [names_cons_iff, List.length_cons, Nat.add_le_add_iff_right]
      cases first : level? term 0 with
      | none => simp [add]
      | some secondary =>
          have changed : ∀ item : Secondary, (item.add (level? term 1)).Lists path ↔
              item.Lists path ∨ path.length ≤ 1 ∧ Names term.tail path := by
            intro item
            rw [← level?_tail]
            exact item.lists_add term.tail path
          have bare (listed : (⟨secondary, []⟩ : Secondary).Lists path) :
              path.length ≤ 1 ∧ Names term.tail path := by
            rw [Secondary.lists_fresh listed]
            exact ⟨Nat.zero_le 1, names_nil _⟩
          simp only [add, Lists, Option.some.injEq]
          rw [exists_mem_upsert (fun item : Secondary => item.Lists path) rfl
            (fun item => item.name_add _) changed bare, and_left_comm]

/-- **One more term adds the paths that it names**, and no other. -/
theorem Catalog.lists_add (catalog : Catalog) (term path : List String) :
    (catalog.add term).Lists path ↔ catalog.Lists path ∨ path.length ≤ 3 ∧ Names term path := by
  cases path with
  | nil => exact iff_of_true trivial (.inl trivial)
  | cons name path =>
      rw [names_cons_iff, List.length_cons, Nat.add_le_add_iff_right]
      cases first : level? term 0 with
      | none => simp [add, first]
      | some primary =>
          have changed : ∀ item : Entry, (item.add (level? term 1) (level? term 2)).Lists path ↔
              item.Lists path ∨ path.length ≤ 2 ∧ Names term.tail path := by
            intro item
            rw [← level?_tail term 0, ← level?_tail term 1]
            exact item.lists_add term.tail path
          have bare (listed : (⟨primary, []⟩ : Entry).Lists path) :
              path.length ≤ 2 ∧ Names term.tail path := by
            rw [Entry.lists_fresh listed]
            exact ⟨Nat.zero_le 2, names_nil _⟩
          rw [lists_cons_iff, lists_cons_iff]
          simp only [add, first, Option.some.injEq]
          rw [exists_mem_upsert (fun item : Entry => item.Lists path) rfl
            (fun item => item.primary_add _ _) changed bare, and_left_comm]

/-- Terms add the paths that they name, and nothing that was listed is lost. -/
theorem Catalog.lists_foldl_add (catalog : Catalog) (terms : List (List String))
    (path : List String) :
    (terms.foldl add catalog).Lists path ↔
      catalog.Lists path ∨ ∃ term ∈ terms, path.length ≤ 3 ∧ Names term path := by
  induction terms generalizing catalog with
  | nil => simp
  | cons term rest ih =>
      rw [List.foldl_cons, ih, lists_add, List.exists_mem_cons_iff]
      exact or_assoc

/-- An index lists the paths that its terms name. -/
theorem lists_ofTerms (terms : List (List String)) (name : String) (path : List String) :
    (Catalog.ofTerms terms).Lists (name :: path) ↔
      path.length ≤ 2 ∧ ∃ term ∈ terms, Names term (name :: path) := by
  have empty : ¬ Catalog.empty.Lists (name :: path) := by
    rw [Catalog.lists_cons_iff]
    rintro ⟨entry, inside, -⟩
    exact List.not_mem_nil inside
  rw [Catalog.ofTerms, Catalog.lists_foldl_add, or_iff_right empty]
  constructor
  · rintro ⟨term, inside, short, names⟩
    exact ⟨Nat.le_of_succ_le_succ short, term, inside, names⟩
  · rintro ⟨short, term, inside, names⟩
    exact ⟨term, inside, Nat.succ_le_succ short, names⟩

/-! ## Order -/

structure Entry.Ascending (entry : Entry) : Prop where
  secondaries : (entry.secondaries.map Secondary.name).Pairwise (· < ·)
  tertiaries : ∀ secondary ∈ entry.secondaries, secondary.tertiaries.Pairwise (· < ·)

/-- Names in strictly ascending order at every level. -/
structure Catalog.Ascending (catalog : Catalog) : Prop where
  primaries : (catalog.entries.map Entry.primary).Pairwise (· < ·)
  entries : ∀ entry ∈ catalog.entries, entry.Ascending

/-- First- and second-level names in strictly ascending order, as an index stores them. -/
structure Catalog.Ordered (catalog : Catalog) : Prop where
  primaries : (catalog.stored.map Entry.primary).Pairwise (· < ·)
  secondaries : ∀ entry ∈ catalog.stored, (entry.secondaries.map Secondary.name).Pairwise (· < ·)

theorem Catalog.Ordered.empty : Catalog.empty.Ordered where
  primaries := List.Pairwise.nil
  secondaries _ inside := absurd inside List.not_mem_nil

theorem Entry.ordered_add {entry : Entry}
    (ordered : (entry.secondaries.map Secondary.name).Pairwise (· < ·))
    (secondary tertiary : Option String) :
    ((entry.add secondary tertiary).secondaries.map Secondary.name).Pairwise (· < ·) := by
  cases secondary with
  | none => exact ordered
  | some name => exact upsert_pairwise (Secondary.name_add _ _) (·.name_add _) ordered

/-- A term is entered where its levels belong in the order. -/
theorem Catalog.Ordered.add {catalog : Catalog} (ordered : catalog.Ordered)
    (term : List String) : (catalog.add term).Ordered := by
  unfold Catalog.add
  split
  · rename_i name _
    have bare : ((⟨name, []⟩ : Entry).secondaries.map Secondary.name).Pairwise (· < ·) := .nil
    have fresh := Entry.ordered_add bare (level? term 1) (level? term 2)
    refine ⟨?_, ?_⟩
    · exact upsert_pairwise (Entry.primary_add _ _ _) (·.primary_add _ _) ordered.primaries
    · exact forall_mem_upsert fresh (fun _ kept => Entry.ordered_add kept _ _) ordered.secondaries
  · exact ordered

theorem ordered_ofTerms (terms : List (List String)) : (Catalog.ofTerms terms).Ordered := by
  have kept (catalog : Catalog) (ordered : catalog.Ordered) :
      (terms.foldl Catalog.add catalog).Ordered := by
    induction terms generalizing catalog with
    | nil => exact ordered
    | cons term rest ih => exact ih _ (ordered.add term)
  exact kept .empty .empty

/-- An index whose stored names are in order is read in order, at the third level as well. -/
theorem Catalog.Ordered.ascending {catalog : Catalog} (ordered : catalog.Ordered) :
    catalog.Ascending where
  primaries := by
    rw [entries, List.map_map]
    exact ordered.primaries
  entries := by
    intro entry inside
    obtain ⟨stored, listed, rfl⟩ := List.mem_map.mp inside
    refine ⟨?_, ?_⟩
    · rw [Entry.sorted, List.map_map]
      exact ordered.secondaries stored listed
    · intro secondary under
      obtain ⟨kept, -, rfl⟩ := List.mem_map.mp under
      exact ascending_pairwise kept.tertiaries

theorem ascending_ofTerms (terms : List (List String)) : (Catalog.ofTerms terms).Ascending :=
  (ordered_ofTerms terms).ascending

/-! ## An index is determined by what it lists -/

/-- An entry in strict order is determined by what it lists. -/
theorem Entry.eq_of_lists {entry other : Entry} (ascending : entry.Ascending)
    (ascending' : other.Ascending) (primary : entry.primary = other.primary)
    (same : ∀ path, entry.Lists path ↔ other.Lists path) : entry = other := by
  have names (name : String) :
      name ∈ entry.secondaries.map Secondary.name ↔
        name ∈ other.secondaries.map Secondary.name := by
    have listed := same [name]
    simpa [Lists, Secondary.Lists] using listed
  have secondaries : entry.secondaries = other.secondaries := by
    apply eq_of_names ascending.secondaries ascending'.secondaries names
    intro first inside second inside' named
    have tertiaries : first.tertiaries = second.tertiaries := by
      apply (ascending.tertiaries first inside).eq_of_mem_iff (ascending'.tertiaries second inside')
      intro tertiary
      have listed := same [first.name, tertiary]
      rw [Lists, exists_named_iff ascending.secondaries inside, named, Lists,
        exists_named_iff ascending'.secondaries inside'] at listed
      exact listed
    cases first
    cases second
    rw [Secondary.mk.injEq]
    exact ⟨named, tertiaries⟩
  cases entry
  cases other
  rw [Entry.mk.injEq]
  exact ⟨primary, secondaries⟩

/-- **What is read in ascending order is determined by the paths that are listed.** -/
theorem Catalog.entries_eq_of_lists {catalog other : Catalog} (ascending : catalog.Ascending)
    (ascending' : other.Ascending) (same : ∀ path, catalog.Lists path ↔ other.Lists path) :
    catalog.entries = other.entries := by
  have names (name : String) :
      name ∈ catalog.entries.map Entry.primary ↔ name ∈ other.entries.map Entry.primary := by
    have listed := same [name]
    simpa [Lists, Entry.Lists] using listed
  apply eq_of_names ascending.primaries ascending'.primaries names
  intro first inside second inside' named
  apply Entry.eq_of_lists (ascending.entries first inside) (ascending'.entries second inside')
    named
  intro path
  have listed := same (first.primary :: path)
  rw [Lists, exists_named_iff ascending.primaries inside, named, Lists,
    exists_named_iff ascending'.primaries inside'] at listed
  exact listed

/-! ## The index of a list of terms -/

theorem exists_names_iff {term : List String} :
    (∃ name, Names term [name]) ↔ ∃ first ∈ term.head?, Text.trimmed first ≠ "" := by
  simp only [names_cons_iff, names_nil, and_true, level?_eq_some_iff]
  cases term with
  | nil => simp
  | cons first rest => simp

/-- An index is empty if and only if the first level of every term is blank. -/
theorem isEmpty_ofTerms_iff (terms : List (List String)) :
    (Catalog.ofTerms terms).isEmpty ↔
      ∀ term ∈ terms, ∀ first ∈ term.head?, Text.trimmed first = "" := by
  have unlisted : (Catalog.ofTerms terms).isEmpty ↔
      ∀ name, ¬ (Catalog.ofTerms terms).Lists [name] := by
    rw [Catalog.isEmpty, List.isEmpty_iff, List.eq_nil_iff_forall_not_mem]
    constructor
    · intro empty name listed
      obtain ⟨entry, inside, -⟩ := (Catalog.lists_cons_iff _ name []).mp listed
      exact empty entry inside
    · intro unlisted entry inside
      exact unlisted entry.primary
        ((Catalog.lists_cons_iff _ _ []).mpr ⟨entry, inside, rfl, trivial⟩)
  rw [unlisted]
  constructor
  · intro nameless term inside first leads
    by_contra solid
    obtain ⟨name, names⟩ := exists_names_iff.mpr ⟨first, leads, solid⟩
    exact nameless name ((lists_ofTerms terms name []).mpr ⟨Nat.zero_le 2, term, inside, names⟩)
  · intro blank name listed
    obtain ⟨-, term, inside, names⟩ := (lists_ofTerms terms name []).mp listed
    obtain ⟨first, leads, solid⟩ := exists_names_iff.mp ⟨name, names⟩
    exact solid (blank term inside first leads)

/-- What is read of an index depends on the set of its terms only. -/
theorem entries_ofTerms_congr {terms others : List (List String)}
    (same : ∀ term, term ∈ others ↔ term ∈ terms) :
    (Catalog.ofTerms others).entries = (Catalog.ofTerms terms).entries := by
  apply Catalog.entries_eq_of_lists (ascending_ofTerms others) (ascending_ofTerms terms)
  intro path
  cases path with
  | nil => exact Iff.rfl
  | cons name path => simp only [lists_ofTerms, same]

/-- More terms list more paths. -/
theorem lists_of_subset {terms others : List (List String)} (subset : terms ⊆ others)
    {path : List String} (listed : (Catalog.ofTerms terms).Lists path) :
    (Catalog.ofTerms others).Lists path := by
  cases path with
  | nil => trivial
  | cons name path =>
      obtain ⟨short, term, inside, names⟩ := (lists_ofTerms terms name path).mp listed
      exact (lists_ofTerms others name path).mpr ⟨short, term, subset inside, names⟩

/-- **An index holds exactly what its terms name.**  At each level the names are those that some
term has there under the names above, trimmed and not blank, in strictly ascending order.  The
index is empty if no term begins with more than blanks, and terms that are added in another order
or more than once make the same index. -/
theorem ofTerms_exact (terms : List (List String)) :
    (∀ primary, (∃ entry ∈ (Catalog.ofTerms terms).entries, entry.primary = primary) ↔
        ∃ term ∈ terms, Names term [primary]) ∧
      (∀ entry ∈ (Catalog.ofTerms terms).entries, ∀ name,
        (∃ secondary ∈ entry.secondaries, secondary.name = name) ↔
          ∃ term ∈ terms, Names term [entry.primary, name]) ∧
      (∀ entry ∈ (Catalog.ofTerms terms).entries, ∀ secondary ∈ entry.secondaries, ∀ tertiary,
        tertiary ∈ secondary.tertiaries ↔
          ∃ term ∈ terms, Names term [entry.primary, secondary.name, tertiary]) ∧
      (Catalog.ofTerms terms).Ascending ∧
      ((Catalog.ofTerms terms).isEmpty ↔
        ∀ term ∈ terms, ∀ first ∈ term.head?, Text.trimmed first = "") ∧
      ∀ others, (∀ term, term ∈ others ↔ term ∈ terms) →
        (Catalog.ofTerms others).entries = (Catalog.ofTerms terms).entries := by
  have ascending := ascending_ofTerms terms
  refine ⟨?_, ?_, ?_, ascending, isEmpty_ofTerms_iff terms, ?_⟩
  · intro primary
    have listed := lists_ofTerms terms primary []
    simpa [Catalog.Lists, Entry.Lists] using listed
  · intro entry inside name
    have listed := lists_ofTerms terms entry.primary [name]
    rw [Catalog.Lists, exists_named_iff ascending.primaries inside] at listed
    simpa [Entry.Lists, Secondary.Lists] using listed
  · intro entry inside secondary under tertiary
    have listed := lists_ofTerms terms entry.primary [secondary.name, tertiary]
    rw [Catalog.Lists, exists_named_iff ascending.primaries inside, Entry.Lists,
      exists_named_iff (ascending.entries entry inside).secondaries under] at listed
    simpa [Secondary.Lists] using listed
  · intro others same
    exact entries_ofTerms_congr same

/-- Blanks around a name do not count, a blank name hides what follows it, and neither order nor
repetition shows. -/
theorem ofTerms_reordered :
    (∀ term, term ∈ [["b "], ["a", "x", "1"], [" ", "y"], ["b "], [" a", "x", "2"]] ↔
        term ∈ [["a", "x", "1"], [" a", "x", "2"], ["b "], [" ", "y"]]) ∧
      (Catalog.ofTerms [["b "], ["a", "x", "1"], [" ", "y"], ["b "], [" a", "x", "2"]]).entries =
        [⟨"a", [⟨"x", ["1", "2"]⟩]⟩, ⟨"b", []⟩] := by
  have same : ∀ term, term ∈ [["b "], ["a", "x", "1"], [" ", "y"], ["b "], [" a", "x", "2"]] ↔
      term ∈ [["a", "x", "1"], [" a", "x", "2"], ["b "], [" ", "y"]] := by
    intro term
    simp only [List.mem_cons, List.not_mem_nil, or_false]
    tauto
  obtain ⟨-, -, -, -, -, reordered⟩ :=
    ofTerms_exact [["a", "x", "1"], [" a", "x", "2"], ["b "], [" ", "y"]]
  have stored : (Catalog.ofTerms [["a", "x", "1"], [" a", "x", "2"], ["b "], [" ", "y"]]).stored =
      [⟨"a", [⟨"x", ["1", "2"]⟩]⟩, ⟨"b", []⟩] := by decide
  have order : ascending ["1", "2"] = ["1", "2"] := ascending_of_pairwise (by decide)
  refine ⟨same, (reordered _ same).trans ?_⟩
  rw [Catalog.entries, stored]
  simp only [List.map_cons, List.map_nil, Entry.sorted, Secondary.sorted, order]

end Rendition.Index
