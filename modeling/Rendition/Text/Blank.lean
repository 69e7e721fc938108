/-
# Rendition.Text.Blank -- white space and trimming

White space is the property White_Space of Unicode: the six ASCII blanks, the
next-line control, the no-break space and the spaces of the other blocks.  The
zero-width characters are not white space.

`trim` removes white space at both ends and nothing between; `trim_eq_self_iff`
says which texts it keeps: those that neither start nor end with white space.
-/
namespace Rendition.Text

set_option autoImplicit false

/-- The white-space characters of Unicode. -/
def isBlank (c : Char) : Bool :=
  let code := c.toNat
  (9 ≤ code && code ≤ 13) || code == 0x20 || code == 0x85 || code == 0xA0 || code == 0x1680 ||
    (0x2000 ≤ code && code ≤ 0x200A) || code == 0x2028 || code == 0x2029 || code == 0x202F ||
    code == 0x205F || code == 0x3000

/-- The text from its first character that is not blank. -/
def skipBlanks (cs : List Char) : List Char := cs.dropWhile isBlank

/-- The text up to its last character that is not blank. -/
def dropTrailingBlanks : List Char → List Char
  | [] => []
  | c :: cs =>
      match dropTrailingBlanks cs with
      | [] => if isBlank c then [] else [c]
      | rest => c :: rest

/-- The text without the blanks at its two ends. -/
def trim (cs : List Char) : List Char := dropTrailingBlanks (skipBlanks cs)

/-- `trim` on strings. -/
def trimmed (s : String) : String := String.ofList (trim s.toList)

theorem length_skipBlanks_le (cs : List Char) : (skipBlanks cs).length ≤ cs.length :=
  (List.dropWhile_sublist isBlank).length_le

theorem skipBlanks_cons_of_not_isBlank {c : Char} (cs : List Char) (solid : isBlank c = false) :
    skipBlanks (c :: cs) = c :: cs := by
  simp [skipBlanks, solid]

theorem skipBlanks_eq_self_iff (cs : List Char) :
    skipBlanks cs = cs ↔ ∀ c ∈ cs.head?, isBlank c = false := by
  cases cs with
  | nil => simp [skipBlanks]
  | cons c cs =>
      constructor
      · intro same
        by_cases blank : isBlank c = true
        · have shorter := length_skipBlanks_le cs
          have lengths := congrArg List.length same
          simp only [skipBlanks, List.dropWhile_cons, blank, ↓reduceIte,
            List.length_cons] at shorter lengths
          omega
        · simpa using blank
      · intro solid
        exact skipBlanks_cons_of_not_isBlank cs (solid c (by simp))

theorem dropTrailingBlanks_eq_self_iff (cs : List Char) :
    dropTrailingBlanks cs = cs ↔ ∀ c ∈ cs.getLast?, isBlank c = false := by
  induction cs with
  | nil => simp [dropTrailingBlanks]
  | cons c cs ih =>
      cases cs with
      | nil => by_cases blank : isBlank c = true <;> simp [dropTrailingBlanks, blank]
      | cons d cs =>
          rw [List.getLast?_cons_cons, ← ih, dropTrailingBlanks]
          split
          · rename_i nothing
            rw [nothing]
            split <;> simp
          · simp

theorem length_dropTrailingBlanks_le (cs : List Char) :
    (dropTrailingBlanks cs).length ≤ cs.length := by
  induction cs with
  | nil => simp [dropTrailingBlanks]
  | cons c cs ih =>
      rw [dropTrailingBlanks]
      split
      · split <;> simp
      · simpa using ih

/-- A text is trimmed already if neither of its ends is blank. -/
theorem trim_eq_self_iff (cs : List Char) :
    trim cs = cs ↔
      (∀ c ∈ cs.head?, isBlank c = false) ∧ (∀ c ∈ cs.getLast?, isBlank c = false) := by
  constructor
  · intro same
    have most : (trim cs).length ≤ (skipBlanks cs).length := length_dropTrailingBlanks_le _
    have front : skipBlanks cs = cs :=
      (List.dropWhile_sublist isBlank).eq_of_length_le (by rw [same] at most; exact most)
    refine ⟨(skipBlanks_eq_self_iff cs).mp front, (dropTrailingBlanks_eq_self_iff cs).mp ?_⟩
    simpa [trim, front] using same
  · intro ⟨front, back⟩
    rw [trim, (skipBlanks_eq_self_iff cs).mpr front, (dropTrailingBlanks_eq_self_iff cs).mpr back]

end Rendition.Text
