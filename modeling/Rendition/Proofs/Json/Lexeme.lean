/-
# Rendition.Proofs.Json.Lexeme -- numbers and strings are read as they are written

A number ends where a character follows that cannot continue it (`EndsNumber`),
so its law holds in front of every such text (`readUnsigned?_repr`).  A string
ends at its quote, and no escape holds one; its law holds in front of any text
(`readString?_quoted`).
-/
import Mathlib.Tactic.SplitIfs
import Rendition.Json.Printer
import Rendition.Json.Reader

namespace Rendition.Json

set_option autoImplicit false

/-! ## Numbers -/

/-- The text cannot continue a number that stands before it. -/
def EndsNumber (rest : List Char) : Prop :=
  ∀ c ∈ rest.head?, c.isDigit = false ∧ c ≠ '.' ∧ c ≠ 'e' ∧ c ≠ 'E'

theorem endsNumber_nil : EndsNumber [] := fun _ inside => by cases inside

theorem endsNumber_cons {c : Char} (rest : List Char)
    (ends : c.isDigit = false ∧ c ≠ '.' ∧ c ≠ 'e' ∧ c ≠ 'E') : EndsNumber (c :: rest) := by
  intro other inside
  rw [List.head?_cons, Option.mem_some_iff] at inside
  exact inside ▸ ends

theorem toList_repr (n : Nat) : n.repr.toList = Nat.toDigits 10 n := by
  rw [Nat.repr_eq_ofList_toDigits, String.toList_ofList]

theorem all_isDigit_toDigits (n : Nat) : ∀ c ∈ Nat.toDigits 10 n, c.isDigit = true :=
  fun _ inside => Nat.isDigit_of_mem_toDigits (by decide) (by decide) inside

/-- Only zero is written with a zero in front. -/
theorem length_le_one_of_head?_toDigits {n : Nat} (zero : (Nat.toDigits 10 n).head? = some '0') :
    (Nat.toDigits 10 n).length ≤ 1 := by
  have digitZero : ∀ digit < 10, Nat.digitChar digit = '0' → digit = 0 := by decide
  suffices nil : n = 0 by subst nil; decide
  induction n using Nat.strongRecOn with
  | ind n ih =>
      by_cases small : n < 10
      · rw [Nat.toDigits_of_lt_base small, List.head?_cons, Option.some.injEq] at zero
        exact digitZero n small zero
      · -- the first digit is that of a tenth of the number, which is not zero
        rw [Nat.toDigits_of_base_le (by decide) (by omega), List.head?_append,
          Option.or_of_isSome (by simp [Nat.toDigits_ne_nil])] at zero
        have tenth := ih (n / 10) (by omega) zero
        omega

theorem le_ofDigitChars (digits : List Char) (value : Nat) :
    value ≤ Nat.ofDigitChars 10 digits value := by
  induction digits generalizing value with
  | nil => exact Nat.le_refl value
  | cons digit rest ih =>
      rw [Nat.ofDigitChars_cons]
      have le := ih (10 * value + (digit.toNat - '0'.toNat))
      omega

/-- As long as 64 bits hold the number, no digit is left out of the significand. -/
theorem Significand.foldl_addWhole {digits : List Char} {value : Nat}
    (small : Nat.ofDigitChars 10 digits value < UInt64.size) :
    digits.foldl addWhole ⟨value, 0, false⟩ = ⟨Nat.ofDigitChars 10 digits value, 0, false⟩ := by
  induction digits generalizing value with
  | nil => rfl
  | cons digit rest ih =>
      rw [Nat.ofDigitChars_cons] at small ⊢
      have room : 10 * value + (digit.toNat - '0'.toNat) < UInt64.size :=
        Nat.lt_of_le_of_lt (le_ofDigitChars rest _) small
      have step : addWhole ⟨value, 0, false⟩ digit =
          ⟨10 * value + (digit.toNat - '0'.toNat), 0, false⟩ := by
        rw [addWhole]
        simp only [Nat.mul_comm value 10]
        rw [if_neg (by simp only [Bool.false_eq_true, false_or]; omega)]
      rw [List.foldl_cons, step, ih small]

theorem Significand.ofWhole_toDigits {n : Nat} (small : n < UInt64.size) :
    ofWhole (Nat.toDigits 10 n) = ⟨n, 0, false⟩ := by
  rw [← Nat.ofDigitChars_ten_toDigits (n := n)] at small
  rw [ofWhole, foldl_addWhole small, Nat.ofDigitChars_ten_toDigits]

/-- Digits that 64 bits hold are read as the number they write. -/
theorem readUnsigned?_repr (negative : Bool) {n : Nat} (small : n < UInt64.size) {rest : List Char}
    (ends : EndsNumber rest) :
    readUnsigned? negative (n.repr.toList ++ rest) =
      (wholeNumber? negative ⟨n, 0, false⟩).map (·, rest) := by
  have stops : rest.takeWhile Char.isDigit = [] ∧ rest.dropWhile Char.isDigit = rest := by
    cases rest with
    | nil => exact ⟨rfl, rfl⟩
    | cons c rest =>
        have other := (ends c rfl).1
        simp [other]
  have digits : (Nat.toDigits 10 n ++ rest).takeWhile Char.isDigit = Nat.toDigits 10 n := by
    rw [List.takeWhile_append_of_pos (all_isDigit_toDigits n), stops.1, List.append_nil]
  have left : (Nat.toDigits 10 n ++ rest).dropWhile Char.isDigit = rest := by
    rw [List.dropWhile_append_of_pos (all_isDigit_toDigits n), stops.2]
  have noFraction : readFraction? rest = some (none, rest) := by
    unfold readFraction?
    split
    · exact absurd rfl (ends '.' rfl).2.1
    · rfl
  have noExponent : readExponent? rest = some (none, rest) := by
    unfold readExponent?
    split
    · rename_i e rest
      have other := (ends e rfl).2.2
      rw [if_neg (by simp [other])]
    · rfl
  rw [toList_repr, readUnsigned?, digits, left, Significand.ofWhole_toDigits small, if_neg]
  · simp only [noFraction, noExponent, Option.bind_eq_bind, Option.bind_some]
    cases wholeNumber? negative ⟨n, 0, false⟩ <;> rfl
  · rintro (empty | ⟨zero, long⟩)
    · exact Nat.toDigits_ne_nil (List.isEmpty_iff.mp empty)
    · exact absurd (length_le_one_of_head?_toDigits zero) (by omega)

/-! ## Strings -/

/-- An escape by a letter is read as one character. -/
theorem readString?_letter {letter char : Char} (known : escaped? letter = some char)
    (rest : List Char) :
    readString? ('\\' :: letter :: rest) =
      (readString? rest).map fun (chars, after) => (char :: chars, after) := by
  have noUnit : letter ≠ 'u' := by
    intro same
    rw [same, show escaped? 'u' = none by decide] at known
    cases known
  rw [readString?, known]
  · cases readString? rest <;> rfl
  · exact fun _ _ _ _ _ _ _ _ _ same => absurd same noUnit
  · exact fun _ _ _ _ _ same => absurd same noUnit

theorem readString?_unit {a b c d char : Char} {unit : Nat} (read : codeUnit? a b c d = some unit)
    (known : plainChar? unit = some char) (rest : List Char) :
    readString? ('\\' :: 'u' :: a :: b :: c :: d :: rest) =
      (readString? rest).map fun (chars, after) => (char :: chars, after) := by
  -- the reader looks for a second unit first, which a plain one does not need
  by_cases another : ∃ e f g h after, rest = '\\' :: 'u' :: e :: f :: g :: h :: after
  · obtain ⟨e, f, g, h, after, rfl⟩ := another
    rw [readString?, read]
    simp only [Option.bind_eq_bind, Option.bind_some, known]
    cases readString? ('\\' :: 'u' :: e :: f :: g :: h :: after) <;> rfl
  · rw [readString?, read]
    · simp only [Option.bind_eq_bind, Option.bind_some, known]
      cases readString? rest <;> rfl
    · exact fun e f g h after same => another ⟨e, f, g, h, after, same⟩

theorem readString?_plain {c : Char} (noQuote : c ≠ '\x22') (noBackslash : c ≠ '\\')
    (visible : ¬ c.toNat < 0x20) (rest : List Char) :
    readString? (c :: rest) =
      (readString? rest).map fun (chars, after) => (c :: chars, after) := by
  rw [readString?, if_neg noQuote, if_neg (by simp [visible, noBackslash])]
  · exact fun _ _ _ _ _ _ _ _ _ same => absurd same noBackslash
  · exact fun _ _ _ _ _ same => absurd same noBackslash
  · exact fun _ _ same => absurd same noBackslash

theorem readString?_quote (rest : List Char) : readString? ('\x22' :: rest) = some ([], rest) := by
  rw [readString?, if_pos rfl] <;> simp

/-- The escape of a control character is its number in four digits. -/
theorem codeUnit?_control :
    ∀ n < 0x20, codeUnit? '0' '0' (hexDigit (n / 16)) (hexDigit (n % 16)) = some n := by
  decide

/-- A character as it is escaped is read as the character. -/
theorem readString?_escapeChar (c : Char) (rest : List Char) :
    readString? ((escapeChar c).toList ++ rest) =
      (readString? rest).map fun (chars, after) => (c :: chars, after) := by
  unfold escapeChar
  split_ifs with quote backslash backspace feed newline carriage tab control
  · subst quote; exact readString?_letter rfl rest
  · subst backslash; exact readString?_letter rfl rest
  · subst backspace; exact readString?_letter rfl rest
  · subst feed; exact readString?_letter rfl rest
  · subst newline; exact readString?_letter rfl rest
  · subst carriage; exact readString?_letter rfl rest
  · subst tab; exact readString?_letter rfl rest
  · rw [String.toList_ofList]
    refine readString?_unit (codeUnit?_control c.toNat control) ?_ rest
    rw [plainChar?, if_neg (by omega), Char.ofNat_toNat]
  · rw [String.toList_singleton]
    exact readString?_plain quote backslash control rest

/-- A quoted string is read up to its closing quote, whatever follows. -/
theorem readString?_quoted (s : String) (rest : List Char) :
    readString? ((Text.substitute escapeChar s).toList ++ '\x22' :: rest) =
      some (s.toList, rest) := by
  rw [Text.toList_substitute]
  induction s.toList with
  | nil => exact readString?_quote rest
  | cons c chars ih =>
      rw [List.flatMap_cons, List.append_assoc, readString?_escapeChar, ih]
      rfl

theorem toList_quoted (s : String) (rest : List Char) :
    (quoted s).toList ++ rest =
      '\x22' :: ((Text.substitute escapeChar s).toList ++ '\x22' :: rest) := by
  simp [quoted, String.toList_append]

end Rendition.Json
