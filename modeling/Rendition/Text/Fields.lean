/-
# Rendition.Text.Fields -- texts cut at a separator

`fields sep` cuts a text at every occurrence of a separator and keeps empty
fields.  A text without the separator is one field (`fields_eq_singleton`), and a
separator cuts a text into the fields before it and the fields after it
(`fields_append_cons`).
-/
import Rendition.Text.Blank

namespace Rendition.Text

set_option autoImplicit false

/-- The stretches between the occurrences of `sep`: one more than there are occurrences. -/
def fields (sep : Char) : List Char → List (List Char)
  | [] => [[]]
  | c :: cs =>
      if c = sep then [] :: fields sep cs
      else match fields sep cs with
        | [] => [[c]]
        | field :: rest => (c :: field) :: rest

/-- The trimmed fields of a text, empty ones dropped. -/
def items (sep : Char) (cs : List Char) : List (List Char) :=
  ((fields sep cs).map trim).filter (! ·.isEmpty)

theorem fields_ne_nil (sep : Char) (cs : List Char) : fields sep cs ≠ [] := by
  cases cs with
  | nil => simp [fields]
  | cons c cs =>
      simp only [fields]
      split
      · simp
      · split <;> simp

/-- A text is split at each separator on its own. -/
theorem fields_append_cons {sep : Char} (front cs : List Char) :
    fields sep (front ++ sep :: cs) = fields sep front ++ fields sep cs := by
  induction front with
  | nil => simp [fields]
  | cons c front ih =>
      rw [List.cons_append, fields, fields, ih]
      split
      · rfl
      · cases found : fields sep front with
        | nil => exact absurd found (fields_ne_nil sep front)
        | cons field rest => rfl

theorem fields_eq_singleton {sep : Char} {field : List Char} (clean : sep ∉ field) :
    fields sep field = [field] := by
  induction field with
  | nil => rfl
  | cons c field ih =>
      simp only [List.mem_cons, not_or] at clean
      simp [fields, Ne.symm clean.1, ih clean.2]

end Rendition.Text
