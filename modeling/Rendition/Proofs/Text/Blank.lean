/-
# Rendition.Proofs.Text.Blank -- white space that is dropped

Trimming drops blanks and nothing else: what it drops at the end of a text is blank
(`exists_dropTrailingBlanks_append`), and the characters that are no blanks stay
(`filter_trim`).  Blanks that are added at either end are not seen
(`trim_of_blank_append`, `trim_append_of_blank`).  There are 25 blanks, and none is a
character of a word.
-/
import Mathlib.Data.List.TakeWhile
import Rendition.Text.Blank
import Rendition.Text.Numeral

namespace Rendition.Text

set_option autoImplicit false

/-! ## The text after its blanks -/

theorem not_isBlank_of_skipBlanks {cs rest : List Char} {c : Char}
    (found : skipBlanks cs = c :: rest) : isBlank c = false := by
  have first := List.head?_dropWhile_not isBlank cs
  rw [skipBlanks] at found
  rw [found] at first
  simpa using first

theorem head_skipBlanks (cs : List Char) : ∀ c ∈ (skipBlanks cs).head?, isBlank c = false := by
  intro c start
  obtain ⟨rest, found⟩ := List.head?_eq_some_iff.mp start
  exact not_isBlank_of_skipBlanks found

theorem skipBlanks_skipBlanks (cs : List Char) : skipBlanks (skipBlanks cs) = skipBlanks cs := by
  cases found : skipBlanks cs with
  | nil => rfl
  | cons c rest => exact skipBlanks_cons_of_not_isBlank rest (not_isBlank_of_skipBlanks found)

theorem skipBlanks_append_of_solid {cs rest others : List Char} {c : Char}
    (found : skipBlanks cs = c :: rest) : skipBlanks (cs ++ others) = c :: (rest ++ others) := by
  rw [skipBlanks] at found ⊢
  rw [List.dropWhile_append, found]
  rfl

theorem skipBlanks_append_of_blank {cs others : List Char} (found : skipBlanks cs = []) :
    skipBlanks (cs ++ others) = skipBlanks others := by
  rw [skipBlanks] at found ⊢
  rw [List.dropWhile_append, found]
  rfl

theorem skipBlanks_append_cons (front : List Char) {c : Char} (cs : List Char)
    (solid : isBlank c = false) : skipBlanks (front ++ c :: cs) = skipBlanks front ++ c :: cs := by
  cases found : skipBlanks front with
  | nil =>
      rw [skipBlanks_append_of_blank found, skipBlanks_cons_of_not_isBlank cs solid,
        List.nil_append]
  | cons d rest => rw [skipBlanks_append_of_solid found, List.cons_append]

theorem skipBlanks_eq_nil_iff (cs : List Char) : skipBlanks cs = [] ↔ ∀ c ∈ cs, isBlank c :=
  List.dropWhile_eq_nil_iff

theorem notMem_of_blank {c : Char} (solid : isBlank c = false) {cs : List Char}
    (blank : skipBlanks cs = []) : c ∉ cs := by
  intro inside
  have other := (skipBlanks_eq_nil_iff cs).mp blank c inside
  rw [solid] at other
  exact Bool.false_ne_true other

/-! ## Trimming -/

/-- Blanks are dropped behind the last solid character only. -/
theorem dropTrailingBlanks_append_of_solid (front : List Char) {c : Char} (cs : List Char)
    (solid : isBlank c = false) :
    dropTrailingBlanks (front ++ c :: cs) = front ++ c :: dropTrailingBlanks cs := by
  induction front with
  | nil =>
      rw [List.nil_append, dropTrailingBlanks]
      cases dropTrailingBlanks cs <;> simp [solid]
  | cons d front ih =>
      rw [List.cons_append, dropTrailingBlanks, ih]
      cases front <;> rfl

/-- What is dropped at the end of a text is blank. -/
theorem exists_dropTrailingBlanks_append (cs : List Char) :
    ∃ back, cs = dropTrailingBlanks cs ++ back ∧ skipBlanks back = [] := by
  induction cs with
  | nil => exact ⟨[], rfl, rfl⟩
  | cons c cs ih =>
      obtain ⟨back, same, blank⟩ := ih
      rw [dropTrailingBlanks]
      cases kept : dropTrailingBlanks cs with
      | nil =>
          rw [kept] at same
          by_cases first : isBlank c = true
          · exact ⟨c :: cs, by simp [first], by simpa [skipBlanks, first, same] using blank⟩
          · exact ⟨cs, by simp [first], by simpa [same] using blank⟩
      | cons d rest => exact ⟨back, by rw [kept] at same; simp [same], blank⟩

theorem dropTrailingBlanks_of_blank {cs : List Char} (blank : skipBlanks cs = []) :
    dropTrailingBlanks cs = [] := by
  rw [skipBlanks_eq_nil_iff] at blank
  induction cs with
  | nil => rfl
  | cons c cs ih =>
      obtain ⟨first, others⟩ := List.forall_mem_cons.mp blank
      simp [dropTrailingBlanks, ih others, first]

theorem dropTrailingBlanks_append_of_blank {back : List Char} (blank : skipBlanks back = [])
    (cs : List Char) : dropTrailingBlanks (cs ++ back) = dropTrailingBlanks cs := by
  induction cs with
  | nil => exact dropTrailingBlanks_of_blank blank
  | cons c cs ih => rw [List.cons_append, dropTrailingBlanks, ih, dropTrailingBlanks]

theorem trim_append_of_blank {back : List Char} (blank : skipBlanks back = []) (cs : List Char) :
    trim (cs ++ back) = trim cs := by
  cases found : skipBlanks cs with
  | nil => rw [trim, skipBlanks_append_of_blank found, blank, trim, found]
  | cons c rest =>
      rw [trim, skipBlanks_append_of_solid found, ← List.cons_append, ← found,
        dropTrailingBlanks_append_of_blank blank, trim]

theorem trim_of_blank_append {front : List Char} (blank : skipBlanks front = [])
    (cs : List Char) : trim (front ++ cs) = trim cs := by
  rw [trim, skipBlanks_append_of_blank blank, trim]

theorem trim_skipBlanks (cs : List Char) : trim (skipBlanks cs) = trim cs := by
  rw [trim, skipBlanks_skipBlanks, trim]

/-- A text is trimmed up to the last of its characters that is not blank. -/
theorem trim_append_cons (front : List Char) {c : Char} {back : List Char}
    (solid : isBlank c = false) (blank : skipBlanks back = []) :
    trim (front ++ c :: back) = skipBlanks front ++ [c] := by
  rw [trim, skipBlanks_append_cons front back solid,
    dropTrailingBlanks_append_of_solid (skipBlanks front) back solid,
    dropTrailingBlanks_of_blank blank]

theorem filter_skipBlanks (cs : List Char) :
    (skipBlanks cs).filter (fun c => !isBlank c) = cs.filter fun c => !isBlank c := by
  induction cs with
  | nil => rfl
  | cons c cs ih =>
      by_cases blank : isBlank c
      · rw [skipBlanks, List.dropWhile_cons_of_pos blank, List.filter_cons_of_neg (by simp [blank])]
        exact ih
      · rw [skipBlanks_cons_of_not_isBlank cs (by simpa using blank)]

/-- Trimming takes away nothing but blanks. -/
theorem filter_trim (cs : List Char) :
    (trim cs).filter (fun c => !isBlank c) = cs.filter fun c => !isBlank c := by
  obtain ⟨back, split, blank⟩ := exists_dropTrailingBlanks_append (skipBlanks cs)
  have unseen := filter_skipBlanks back
  rw [blank, List.filter_nil] at unseen
  rw [← filter_skipBlanks cs, split, List.filter_append, ← unseen, List.append_nil, trim]

theorem forall_mem_trim {p : Char → Prop} {cs : List Char} (all : ∀ c ∈ cs, p c) :
    ∀ c ∈ trim cs, p c := by
  obtain ⟨back, split, -⟩ := exists_dropTrailingBlanks_append (skipBlanks cs)
  intro c inside
  have kept : c ∈ skipBlanks cs := by
    rw [split]
    exact List.mem_append_left _ inside
  exact all c ((List.dropWhile_sublist isBlank).subset kept)

/-! ## The blanks -/

def blankCodes : List Nat :=
  List.range' 9 5 ++ List.range' 0x2000 11 ++
    [0x20, 0x85, 0xA0, 0x1680, 0x2028, 0x2029, 0x202F, 0x205F, 0x3000]

theorem mem_blankCodes {c : Char} (blank : isBlank c) : c.toNat ∈ blankCodes := by
  simp only [isBlank, Bool.or_eq_true, Bool.and_eq_true, decide_eq_true_eq, beq_iff_eq] at blank
  simp only [blankCodes, List.mem_append, List.mem_range'_1, List.mem_cons, List.not_mem_nil,
    or_false]
  omega

theorem not_isBlank_of_isWordChar {c : Char} (word : isWordChar c) : isBlank c = false := by
  have letters : blankCodes.all fun code =>
      !alphabeticRanges.contains code && !numeralRanges.contains code := by decide +kernel
  cases blank : isBlank c with
  | false => rfl
  | true =>
      have neither := List.all_eq_true.mp letters c.toNat (mem_blankCodes blank)
      rw [isWordChar, isAlphabetic, isNumeral] at word
      simp_all

end Rendition.Text
