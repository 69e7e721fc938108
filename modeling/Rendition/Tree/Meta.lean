/-
# Rendition.Tree.Meta -- attributes and the metadata of a block

Attributes keep the order in which they were set; setting one again moves it to
the end, so no key occurs twice (`Attributes.nodup`).  What was set is read back
and nothing else changes (`get?_insert_self`, `get?_insert_of_ne`).
-/
import Rendition.Tree.Inline

namespace Rendition

set_option autoImplicit false

/-- Named values in the order of their last setting. -/
structure Attributes where
  entries : List (String × String)
  nodup : (entries.map Prod.fst).Nodup

namespace Attributes

def empty : Attributes := ⟨[], by simp⟩

instance : Inhabited Attributes := ⟨empty⟩

def get? (attributes : Attributes) (key : String) : Option String := attributes.entries.lookup key

/-- Set an attribute and move it to the end. -/
def insert (attributes : Attributes) (key value : String) : Attributes where
  entries := attributes.entries.filter (·.1 != key) ++ [(key, value)]
  nodup := by
    simp only [List.map_append, List.map_cons, List.map_nil]
    rw [List.nodup_append]
    refine ⟨?_, by simp, ?_⟩
    · exact (List.filter_sublist.map Prod.fst).nodup attributes.nodup
    · intro a inside b last
      simp only [List.mem_singleton] at last
      simp only [List.mem_map, List.mem_filter] at inside
      obtain ⟨entry, ⟨_, differs⟩, rfl⟩ := inside
      simp only [bne_iff_ne, ne_eq] at differs
      exact fun same => differs (same.trans last)

/-- The attributes that result from setting the entries of a list in order. -/
def ofList (entries : List (String × String)) : Attributes :=
  entries.foldl (fun attributes entry => attributes.insert entry.1 entry.2) empty

@[simp] theorem entries_insert (attributes : Attributes) (key value : String) :
    (attributes.insert key value).entries =
      attributes.entries.filter (·.1 != key) ++ [(key, value)] := rfl

/-- An attribute has the value it was last set to. -/
theorem get?_insert_self (attributes : Attributes) (key value : String) :
    (attributes.insert key value).get? key = some value := by
  simp only [get?, entries_insert]
  induction attributes.entries with
  | nil => simp
  | cons entry rest ih =>
      by_cases same : entry.1 = key
      · simpa [same] using ih
      · have skipped : (key == entry.1) = false := by simpa using Ne.symm same
        rw [List.filter_cons_of_pos (by simpa using same), List.cons_append, List.lookup_cons,
          skipped]
        exact ih

/-- Setting an attribute leaves the others as they are. -/
theorem get?_insert_of_ne (attributes : Attributes) {key other : String} (value : String)
    (differs : other ≠ key) : (attributes.insert key value).get? other = attributes.get? other := by
  simp only [get?, entries_insert]
  induction attributes.entries with
  | nil => simp [differs]
  | cons entry rest ih =>
      by_cases same : entry.1 = key
      · have skipped : (other == entry.1) = false := by simpa [same] using differs
        rw [List.filter_cons_of_neg (by simp [same]), List.lookup_cons, skipped]
        exact ih
      · rw [List.filter_cons_of_pos (by simpa using same), List.cons_append, List.lookup_cons,
          List.lookup_cons]
        split
        · rfl
        · exact ih

end Attributes

/-- What precedes a block: its id, roles, options, attributes and title. -/
structure Meta where
  id : Option String
  roles : List String
  options : List String
  attributes : Attributes
  title : List Inline
  span : Span

namespace Meta

def empty : Meta := ⟨none, [], [], .empty, [], .unknown⟩

instance : Inhabited Meta := ⟨empty⟩

def withId (info : Meta) (id : String) : Meta := { info with id := some id }

/-- The metadata with one more role at the end. -/
def withRole (info : Meta) (role : String) : Meta := { info with roles := info.roles ++ [role] }

/-- The metadata with an option; options form a set. -/
def withOption (info : Meta) (option : String) : Meta :=
  if info.options.contains option then info else { info with options := info.options ++ [option] }

def withAttribute (info : Meta) (key value : String) : Meta :=
  { info with attributes := info.attributes.insert key value }

def withTitle (info : Meta) (title : List Inline) : Meta := { info with title }

/-- The roles with spaces between them. -/
def roleText (info : Meta) : String := " ".intercalate info.roles

def hasOption (info : Meta) (option : String) : Bool := info.options.contains option

/-- The id, or the empty text. -/
def idText (info : Meta) : String := info.id.getD ""

end Meta

end Rendition
