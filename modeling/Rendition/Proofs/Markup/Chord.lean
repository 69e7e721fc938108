/-
# Rendition.Proofs.Markup.Chord -- key chords and the white space in them

A chord is written with plus signs between its keys and any white space around each of
them.  The plus key may come last, so that a plus sign separates in one place and is
a key in another.

The keys of a text are its items, whatever stands last in it (`keysOf_append_solid`,
`keysOf_plus_apart`), but for two endings: a plus sign with nothing in front of it
(`keysOf_plus_alone`) and one directly after another (`keysOf_plus_plus`) are the plus key.

So a chord is read back from any spacing but one: white space between the plus key and
the plus sign in front of it takes that key away (`keys_written_iff`).
-/
import Mathlib.Tactic.MkIffOfInductiveProp
import Mathlib.Tactic.SplitIfs
import Rendition.Markup.Command
import Rendition.Proofs.Text.Items

namespace Rendition

set_option autoImplicit false

open Rendition.Text

namespace Command

/-! ## What ends a text of keys -/

section Ending

variable {front back : List Char} {c : Char}

theorem not_isBlank_plus : isBlank '+' = false := by decide

/-- A text ends in two plus signs if its last character is one and what is in front of it ends in
one. -/
theorem plus_plus_isSuffix_iff :
    ['+', '+'] <:+ front ++ [c] ↔ c = '+' ∧ ['+'] <:+ front := by
  constructor
  · rintro ⟨rest, same⟩
    have split : (rest ++ ['+']) ++ ['+'] = front ++ [c] := by simpa using same
    obtain ⟨rfl, last⟩ := List.append_inj' split rfl
    exact ⟨(List.singleton_inj.mp last).symm, rest, rfl⟩
  · rintro ⟨rfl, rest, rfl⟩
    exact ⟨rest, by simp⟩

/-- A chord that is no lone plus sign and does not end in two is read item by item. -/
theorem keysOf_eq_items {cs : List Char} (single : trim cs ≠ ['+'])
    (double : ¬ ['+', '+'] <:+ trim cs) : keysOf cs = items '+' cs := by
  rw [keysOf]
  simp only [single, List.isSuffixOf_iff_suffix, double, ↓reduceIte]
  exact items_trim not_isBlank_plus cs

/-- A text whose last character is no plus sign is read item by item. -/
theorem keysOf_append_solid (solid : isBlank c = false) (other : c ≠ '+')
    (blank : skipBlanks back = []) :
    keysOf (front ++ c :: back) = items '+' (front ++ c :: back) := by
  have trimmed := trim_append_cons front solid blank
  refine keysOf_eq_items ?_ ?_
  · rw [trimmed]
    intro same
    have last := congrArg List.getLast? same
    rw [List.getLast?_concat] at last
    exact other (Option.some.inj last)
  · rw [trimmed, plus_plus_isSuffix_iff]
    exact fun ends => other ends.1

/-- A plus sign with nothing but white space in front of it is the plus key. -/
theorem keysOf_plus_alone (nothing : skipBlanks front = []) (blank : skipBlanks back = []) :
    keysOf (front ++ '+' :: back) = [['+']] := by
  rw [keysOf, trim_append_cons front not_isBlank_plus blank, nothing]
  rfl

/-- A plus sign directly after another one is the plus key. -/
theorem keysOf_plus_plus (blank : skipBlanks back = []) :
    keysOf (front ++ '+' :: '+' :: back) = items '+' front ++ [['+']] := by
  have trimmed : trim (front ++ '+' :: '+' :: back) = skipBlanks front ++ ['+', '+'] := by
    have whole := trim_append_cons (front ++ ['+']) not_isBlank_plus blank
    rwa [skipBlanks_append_cons front [] not_isBlank_plus, List.append_assoc,
      List.append_assoc] at whole
  have single : skipBlanks front ++ ['+', '+'] ≠ ['+'] := by
    intro same
    have lengths := congrArg List.length same
    simp at lengths
  have double : ['+', '+'] <:+ skipBlanks front ++ ['+', '+'] := List.suffix_append _ _
  have kept : (skipBlanks front ++ ['+', '+']).dropLast.dropLast = skipBlanks front := by simp
  rw [keysOf, trimmed]
  simp only [single, List.isSuffixOf_iff_suffix, double, ↓reduceIte, kept]
  rw [items_skipBlanks not_isBlank_plus]

/-- A plus sign at the end is no key if it stands apart from what is in front of it. -/
theorem keysOf_plus_apart (solid : skipBlanks (front ++ [c]) ≠ []) (other : c ≠ '+')
    (blank : skipBlanks back = []) :
    keysOf (front ++ c :: '+' :: back) = items '+' (front ++ c :: '+' :: back) := by
  have trimmed : trim (front ++ c :: '+' :: back) = skipBlanks (front ++ [c]) ++ ['+'] := by
    have whole := trim_append_cons (front ++ [c]) not_isBlank_plus blank
    rwa [List.append_assoc] at whole
  have suffix : skipBlanks (front ++ [c]) <:+ front ++ [c] := List.dropWhile_suffix _
  refine keysOf_eq_items ?_ ?_
  · rw [trimmed]
    intro same
    exact solid (List.append_left_eq_self.mp same)
  · rw [trimmed, plus_plus_isSuffix_iff]
    rintro ⟨-, ends⟩
    -- what is left in front of the plus sign ends in `c`, as it did with its blanks
    obtain ⟨rest, same⟩ := ends.trans suffix
    exact other (List.singleton_inj.mp (List.append_inj_right' same rfl)).symm

end Ending

/-! ## Chords -/

/-- A key of a chord as it is written, with white space or nothing on both sides of it. -/
structure SpacedKey where
  before : String
  key : String
  after : String
  blank_before : before.toList.all isBlank
  blank_after : after.toList.all isBlank

def SpacedKey.text (spaced : SpacedKey) : String := spaced.before ++ spaced.key ++ spaced.after

/-- What is written for a chord: its keys with plus signs between them. -/
def written (chord : List SpacedKey) : String := "+".intercalate (chord.map SpacedKey.text)

/-- The name of a key: some text without a plus sign that has no white space at its ends. -/
@[mk_iff]
structure IsKeyName (key : String) : Prop where
  nonempty : key ≠ ""
  plusless : '+' ∉ key.toList
  solid_first : key.toList.head?.any isBlank = false
  solid_last : key.toList.getLast?.any isBlank = false

instance (key : String) : Decidable (IsKeyName key) :=
  decidable_of_iff _ (isKeyName_iff key).symm

/-- The keys that can be pressed together: named keys, the last of which may be the plus key. -/
@[mk_iff]
structure IsChord (keys : List String) : Prop where
  nonempty : keys ≠ []
  named : ∀ key ∈ keys.dropLast, IsKeyName key
  last : ∀ key ∈ keys.getLast?, IsKeyName key ∨ key = "+"

instance (keys : List String) : Decidable (IsChord keys) :=
  decidable_of_iff _ (isChord_iff keys).symm

/-- Whether there is white space between a plus key and the plus sign in front of it. -/
def IsPlusApart (chord : List SpacedKey) : Prop :=
  1 < chord.length ∧ ∃ last ∈ chord.getLast?, last.key = "+" ∧ last.before ≠ ""

instance (chord : List SpacedKey) : Decidable (IsPlusApart chord) :=
  inferInstanceAs (Decidable (_ ∧ _))

/-! ## What is written for a chord -/

theorem IsKeyName.trim_eq {key : String} (name : IsKeyName key) : trim key.toList = key.toList := by
  rw [trim_eq_self_iff]
  exact ⟨(Option.any_eq_false ..).mp name.solid_first,
    (Option.any_eq_false ..).mp name.solid_last⟩

namespace SpacedKey

variable (spaced : SpacedKey)

theorem toList_text : spaced.text.toList =
    spaced.before.toList ++ (spaced.key.toList ++ spaced.after.toList) := by
  rw [text, String.toList_append, String.toList_append, List.append_assoc]

theorem skipBlanks_before : skipBlanks spaced.before.toList = [] :=
  (skipBlanks_eq_nil_iff _).mpr (List.all_eq_true.mp spaced.blank_before)

theorem skipBlanks_after : skipBlanks spaced.after.toList = [] :=
  (skipBlanks_eq_nil_iff _).mpr (List.all_eq_true.mp spaced.blank_after)

/-- A named key is the one item of what is written for it. -/
theorem items_text (name : IsKeyName spaced.key) :
    items '+' spaced.text.toList = [spaced.key.toList] := by
  have trimmed : trim spaced.text.toList = spaced.key.toList := by
    rw [toList_text, trim_of_blank_append spaced.skipBlanks_before,
      trim_append_of_blank spaced.skipBlanks_after, name.trim_eq]
  have clean : '+' ∉ spaced.text.toList := by
    rw [toList_text, List.mem_append, List.mem_append, not_or, not_or]
    exact ⟨notMem_of_blank not_isBlank_plus spaced.skipBlanks_before, name.plusless,
      notMem_of_blank not_isBlank_plus spaced.skipBlanks_after⟩
  rw [items_of_clean clean, trimmed]
  simp [name.nonempty]

end SpacedKey

section Written

variable {front : List SpacedKey} {last : SpacedKey}

theorem toList_written_cons_cons (first next : SpacedKey) (rest : List SpacedKey) :
    (written (first :: next :: rest)).toList =
      first.text.toList ++ '+' :: (written (next :: rest)).toList := by
  rw [written, List.map_cons, List.map_cons, String.intercalate_cons_cons, String.toList_append,
    String.toList_append, List.append_assoc]
  rfl

theorem toList_written_singleton (only : SpacedKey) :
    (written [only]).toList = only.text.toList := by
  rw [written, List.map_singleton, String.intercalate_singleton]

/-- The last key of a chord is written after a plus sign. -/
theorem toList_written_concat {front : List SpacedKey} (nonempty : front ≠ []) (last : SpacedKey) :
    (written (front ++ [last])).toList = (written front).toList ++ '+' :: last.text.toList := by
  match front with
  | [first] =>
      rw [List.singleton_append, toList_written_cons_cons, toList_written_singleton,
        toList_written_singleton]
  | first :: next :: rest =>
      have others := toList_written_concat (List.cons_ne_nil next rest) last
      rw [List.cons_append] at others
      rw [List.cons_append, List.cons_append, toList_written_cons_cons, others,
        toList_written_cons_cons, List.append_assoc, List.cons_append]

/-- The items of a chord of named keys are its keys. -/
theorem items_written {chord : List SpacedKey}
    (named : ∀ spaced ∈ chord, IsKeyName spaced.key) :
    items '+' (written chord).toList = chord.map fun spaced => spaced.key.toList := by
  match chord with
  | [] => rfl
  | [only] =>
      rw [toList_written_singleton, only.items_text (named only List.mem_cons_self)]
      rfl
  | first :: next :: rest =>
      obtain ⟨name, others⟩ := List.forall_mem_cons.mp named
      rw [toList_written_cons_cons, items_append_cons, first.items_text name,
        items_written others]
      rfl

/-- A chord of named keys is read item by item. -/
theorem keysOf_written_named (named : ∀ spaced ∈ front ++ [last], IsKeyName spaced.key) :
    keysOf (written (front ++ [last])).toList =
      (front ++ [last]).map fun spaced => spaced.key.toList := by
  have name := named last (by simp)
  obtain ⟨stem, whole⟩ : ∃ stem,
      (written (front ++ [last])).toList = stem ++ last.text.toList := by
    by_cases only : front = []
    · exact ⟨[], by rw [only, List.nil_append, toList_written_singleton, List.nil_append]⟩
    · exact ⟨(written front).toList ++ ['+'], by simp [toList_written_concat only]⟩
  obtain ⟨rest, c, ends⟩ := (List.eq_nil_or_concat last.key.toList).resolve_left
    (by simpa using name.nonempty)
  rw [List.concat_eq_append] at ends
  have solid : isBlank c = false := (Option.any_eq_false ..).mp name.solid_last c (by simp [ends])
  have other : c ≠ '+' := by
    rintro rfl
    exact name.plusless (by simp [ends])
  have split : (written (front ++ [last])).toList =
      (stem ++ (last.before.toList ++ rest)) ++ c :: last.after.toList := by
    rw [whole, last.toList_text, ends]
    simp only [List.append_assoc, List.singleton_append]
  rw [← items_written named, split]
  exact keysOf_append_solid solid other last.skipBlanks_after

/-- The plus key is read if it stands alone or directly after the plus sign in front of it. -/
theorem keysOf_written_plus (named : ∀ spaced ∈ front, IsKeyName spaced.key)
    (plus : last.key = "+") (close : front = [] ∨ last.before = "") :
    keysOf (written (front ++ [last])).toList =
      (front ++ [last]).map fun spaced => spaced.key.toList := by
  have sign : last.key.toList = ['+'] := by rw [plus]; rfl
  rw [List.map_append, List.map_singleton, sign]
  by_cases only : front = []
  · rw [only, List.nil_append, toList_written_singleton, last.toList_text, sign]
    exact keysOf_plus_alone last.skipBlanks_before last.skipBlanks_after
  · have nothing : last.before.toList = [] := by simp [close.resolve_left only]
    rw [toList_written_concat only, last.toList_text, sign, nothing, ← items_written named]
    exact keysOf_plus_plus last.skipBlanks_after

/-- The plus key is lost if it stands apart from the plus sign in front of it. -/
theorem keysOf_written_plus_apart (named : ∀ spaced ∈ front, IsKeyName spaced.key)
    (plus : last.key = "+") (nonempty : front ≠ []) (apart : last.before ≠ "") :
    keysOf (written (front ++ [last])).toList = front.map fun spaced => spaced.key.toList := by
  have sign : last.key.toList = ['+'] := by rw [plus]; rfl
  -- `c` is the blank in front of the plus key
  obtain ⟨rest, c, ends⟩ := (List.eq_nil_or_concat last.before.toList).resolve_left
    (by simpa using apart)
  rw [List.concat_eq_append] at ends
  have other : c ≠ '+' := by
    rintro rfl
    exact notMem_of_blank not_isBlank_plus last.skipBlanks_before (by simp [ends])
  have split : (written (front ++ [last])).toList =
      ((written front).toList ++ '+' :: rest) ++ c :: '+' :: last.after.toList := by
    rw [toList_written_concat nonempty, last.toList_text, sign, ends]
    simp only [List.append_assoc, List.cons_append, List.nil_append]
  have seen : skipBlanks (((written front).toList ++ '+' :: rest) ++ [c]) ≠ [] := by
    rw [List.append_assoc, List.cons_append, skipBlanks_append_cons _ _ not_isBlank_plus]
    simp
  calc keysOf (written (front ++ [last])).toList
      = items '+' (written (front ++ [last])).toList := by
        rw [split]
        exact keysOf_plus_apart seen other last.skipBlanks_after
    _ = items '+' (written front).toList ++
          (items '+' last.before.toList ++ items '+' last.after.toList) := by
        rw [toList_written_concat nonempty, last.toList_text, sign, items_append_cons,
          List.singleton_append, items_append_cons]
    _ = front.map fun spaced => spaced.key.toList := by
        rw [items_of_blank not_isBlank_plus last.skipBlanks_before,
          items_of_blank not_isBlank_plus last.skipBlanks_after, items_written named,
          List.append_nil, List.append_nil]

/-- Only the last key of a chord may be the plus key. -/
theorem isChord_concat_iff (front : List String) (last : String) :
    IsChord (front ++ [last]) ↔ (∀ key ∈ front, IsKeyName key) ∧ (IsKeyName last ∨ last = "+") := by
  simp [isChord_iff]

theorem isPlusApart_concat_iff (front : List SpacedKey) (last : SpacedKey) :
    IsPlusApart (front ++ [last]) ↔ front ≠ [] ∧ last.key = "+" ∧ last.before ≠ "" := by
  simp [IsPlusApart, List.length_pos_iff]

/-- All keys of a chord are read, but for a plus key that stands apart. -/
theorem keysOf_written (named : ∀ spaced ∈ front, IsKeyName spaced.key)
    (ending : IsKeyName last.key ∨ last.key = "+") :
    keysOf (written (front ++ [last])).toList =
      (if IsPlusApart (front ++ [last]) then front else front ++ [last]).map
        fun spaced => spaced.key.toList := by
  split_ifs with parted
  · obtain ⟨nonempty, plus, apart⟩ := (isPlusApart_concat_iff front last).mp parted
    exact keysOf_written_plus_apart named plus nonempty apart
  · rcases ending with name | plus
    · exact keysOf_written_named
        (List.forall_mem_append.mpr ⟨named, List.forall_mem_singleton.mpr name⟩)
    · refine keysOf_written_plus named plus (or_iff_not_imp_left.mpr fun nonempty => ?_)
      by_contra apart
      exact parted ((isPlusApart_concat_iff front last).mpr ⟨nonempty, plus, apart⟩)

end Written

/-! ## Reading a chord -/

/-- **Key chords are read back from any spacing but one.**  A chord has the keys that it was
written with, whatever white space there is around them, unless there is some between the plus key
and the plus sign in front of it.  There the plus key is lost, and it alone. -/
theorem keys_written_iff (command : Command) {chord : List SpacedKey}
    (keys : IsChord (chord.map SpacedKey.key)) :
    ({ command with body := written chord }.keys = chord.map SpacedKey.key ↔
        ¬ IsPlusApart chord) ∧
      (IsPlusApart chord →
        { command with body := written chord }.keys = (chord.map SpacedKey.key).dropLast) := by
  obtain ⟨front, last, rfl⟩ : ∃ front last, chord = front ++ [last] := by
    obtain rfl | ⟨front, last, rfl⟩ := List.eq_nil_or_concat chord
    · exact absurd rfl keys.nonempty
    · exact ⟨front, last, List.concat_eq_append⟩
  rw [List.map_append, List.map_singleton, isChord_concat_iff, List.forall_mem_map] at keys
  have read : { command with body := written (front ++ [last]) }.keys =
      (if IsPlusApart (front ++ [last]) then front else front ++ [last]).map SpacedKey.key := by
    rw [Command.keys, keysOf_written keys.1 keys.2, List.map_map]
    exact List.map_congr_left fun spaced _ => String.ofList_toList
  rw [read]
  split_ifs with parted
  · refine ⟨iff_of_false (fun same => ?_) (not_not_intro parted), fun _ => ?_⟩
    · have lengths := congrArg List.length same
      simp at lengths
    · rw [List.map_append, List.map_singleton, List.dropLast_concat]
  · exact ⟨iff_of_true rfl parted, fun apart => absurd apart parted⟩

namespace Example

/-- The keys `Ctrl`, `Page Up` and `+`, with white space of several kinds. -/
def close : List SpacedKey :=
  [⟨" ", "Ctrl", "\t", by decide, by decide⟩, ⟨"\n ", "Page Up", " ", by decide, by decide⟩,
    ⟨"", "+", " ", by decide, by decide⟩]

theorem close_read_back :
    IsChord (close.map SpacedKey.key) ∧ ¬ IsPlusApart close ∧
      (Command.mk "kbd" none (written close)).keys = ["Ctrl", "Page Up", "+"] :=
  have keys : IsChord (close.map SpacedKey.key) := by decide
  have together : ¬ IsPlusApart close := by decide
  ⟨keys, together, (keys_written_iff ⟨"kbd", none, ""⟩ keys).1.mpr together⟩

/-- The keys `Ctrl` and `+`, with a space on both sides of the plus sign between them. -/
def apart : List SpacedKey :=
  [⟨"", "Ctrl", " ", by decide, by decide⟩, ⟨" ", "+", "", by decide, by decide⟩]

/-- A chord is not read back from every spacing. -/
theorem apart_loses_plus :
    IsChord (apart.map SpacedKey.key) ∧ apart.map SpacedKey.key = ["Ctrl", "+"] ∧
      written apart = "Ctrl + +" ∧ (Command.mk "kbd" none (written apart)).keys = ["Ctrl"] := by
  decide

end Example

end Command

end Rendition
