/-
# Rendition.Proofs.Text.Items -- the items between separators

A separator parts the items in front of it from those behind it (`items_append_cons`).
All else is about texts without a separator, which have their trimmed text as the only
item, or none.  So white space at the ends of a text is not seen by its items
(`items_trim`).
-/
import Rendition.Proofs.Text.Blank
import Rendition.Text.Fields

namespace Rendition.Text

set_option autoImplicit false

variable {separator : Char}

/-- A separator parts the items in front of it from those behind it. -/
theorem items_append_cons (front cs : List Char) :
    items separator (front ++ separator :: cs) = items separator front ++ items separator cs := by
  rw [items, fields_append_cons, List.map_append, List.filter_append, items, items]

/-- A text without a separator is one item, or none if it is blank. -/
theorem items_of_clean {cs : List Char} (clean : separator ∉ cs) :
    items separator cs = [trim cs].filter (! ·.isEmpty) := by
  rw [items, fields_eq_singleton clean, List.map_singleton]

theorem items_skipBlanks (solid : isBlank separator = false) (cs : List Char) :
    items separator (skipBlanks cs) = items separator cs := by
  have unseen : ∀ front : List Char, separator ∉ front →
      items separator (skipBlanks front) = items separator front := by
    intro front clean
    have kept : separator ∉ skipBlanks front := fun inside =>
      clean ((List.dropWhile_sublist isBlank).subset inside)
    rw [items_of_clean kept, items_of_clean clean, trim_skipBlanks]
  -- the blanks that are skipped stand in front of the first separator
  by_cases inside : separator ∈ cs
  · obtain ⟨front, rest, rfl, clean⟩ := List.eq_append_cons_of_mem inside
    rw [skipBlanks_append_cons front rest solid, items_append_cons, items_append_cons,
      unseen front clean]
  · exact unseen cs inside

theorem items_append_of_blank (solid : isBlank separator = false) {back : List Char}
    (blank : skipBlanks back = []) (cs : List Char) :
    items separator (cs ++ back) = items separator cs := by
  -- by recursion on what stands behind the first separator, down to the last item
  by_cases inside : separator ∈ cs
  · obtain ⟨front, rest, split, -⟩ := List.eq_append_cons_of_mem inside
    rw [split, List.append_assoc, List.cons_append, items_append_cons, items_append_cons,
      items_append_of_blank solid blank rest]
  · have clean : separator ∉ cs ++ back := by
      rw [List.mem_append, not_or]
      exact ⟨inside, notMem_of_blank solid blank⟩
    rw [items_of_clean clean, items_of_clean inside, trim_append_of_blank blank]
termination_by cs.length
decreasing_by simp [split]; omega

/-- Blanks have no items. -/
theorem items_of_blank (solid : isBlank separator = false) {cs : List Char}
    (blank : skipBlanks cs = []) : items separator cs = [] :=
  items_append_of_blank solid blank []

/-- White space at the ends of a text is not seen by its items. -/
theorem items_trim (solid : isBlank separator = false) (cs : List Char) :
    items separator (trim cs) = items separator cs := by
  obtain ⟨back, split, blank⟩ := exists_dropTrailingBlanks_append (skipBlanks cs)
  calc items separator (trim cs) = items separator (trim cs ++ back) :=
        (items_append_of_blank solid blank _).symm
    _ = items separator (skipBlanks cs) := by rw [trim, ← split]
    _ = items separator cs := items_skipBlanks solid cs

end Rendition.Text
