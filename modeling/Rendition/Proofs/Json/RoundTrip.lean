/-
# Rendition.Proofs.Json.RoundTrip -- values are read as they are written

A value whose numbers are natural numbers of 64 bits is what its text is read as,
if the reader has room for its depth, and is refused if not (`read?_text`).  So
the text determines the value, whatever its depth (`eq_of_text_eq`).

The induction is over the value and for every text after it; only numbers ask
something of that text, and what follows a value inside another one always ends a
number.  Each step of the reader takes at least one character, so that a fuel
above the length of the text suffices.
-/
import Rendition.Proofs.Json.Lexeme

namespace Rendition.Json

set_option autoImplicit false

mutual

/-- Whether every number in a value is a natural number of 64 bits. -/
def isNatural : Json → Bool
  | .number (.integer value) => 0 ≤ value && value < UInt64.size
  | .number (.float _) => false
  | .array elements => isNaturalAll elements
  | .object members => isNaturalMembers members
  | .null | .bool _ | .string _ => true

def isNaturalAll : List Json → Bool
  | [] => true
  | json :: rest => json.isNatural && isNaturalAll rest

def isNaturalMembers : List (String × Json) → Bool
  | [] => true
  | (_, json) :: rest => json.isNatural && isNaturalMembers rest

end

theorem exists_of_isNatural {value : JsonNumber} (natural : (Json.number value).isNatural) :
    ∃ n : Nat, value = .integer n ∧ n < UInt64.size := by
  cases value with
  | float value => cases natural
  | integer value =>
      rw [isNatural, Bool.and_eq_true, decide_eq_true_iff, decide_eq_true_iff] at natural
      exact ⟨value.toNat, by rw [Int.toNat_of_nonneg natural.1], by omega⟩

mutual

/-- How many arrays and objects stand in each other where a value is deepest. -/
def depth : Json → Nat
  | .array elements => depthOfAll elements + 1
  | .object members => depthOfMembers members + 1
  | .null | .bool _ | .number _ | .string _ => 0

def depthOfAll : List Json → Nat
  | [] => 0
  | json :: rest => max json.depth (depthOfAll rest)

def depthOfMembers : List (String × Json) → Nat
  | [] => 0
  | (_, json) :: rest => max json.depth (depthOfMembers rest)

end

/-! ## First characters -/

theorem skipSpaces_cons {c : Char} (visible : isSpace c = false) (rest : List Char) :
    skipSpaces (c :: rest) = c :: rest := by
  rw [skipSpaces, List.dropWhile_cons_of_neg (by simp [visible])]

theorem afterWord?_append (word : String) (rest : List Char) :
    afterWord? word (word.toList ++ rest) = some rest := by
  rw [afterWord?, if_pos (by simp), ← String.length_toList, List.drop_left]

theorem ne_of_isDigit {c d : Char} (digit : c.isDigit = true) (other : d.isDigit = false) :
    c ≠ d := by
  rintro rfl
  exact absurd digit (by simp [other])

theorem isSpace_of_isDigit {c : Char} (digit : c.isDigit = true) : isSpace c = false := by
  have other : ∀ {d : Char}, d.isDigit = false → c ≠ d := ne_of_isDigit digit
  simp [isSpace, other (d := ' ') rfl, other (d := '\n') rfl, other (d := '\r') rfl,
    other (d := '\t') rfl]

/-- A digit begins nothing but numbers. -/
theorem readValue?_digit {c : Char} (digit : c.isDigit = true) (fuel room : Nat)
    (rest : List Char) :
    readValue? (fuel + 1) room (c :: rest) =
      (readUnsigned? false (c :: rest)).map fun (numeral, rest) => (.number numeral, rest) := by
  have unsigned : readNumber? (c :: rest) = readUnsigned? false (c :: rest) := by
    rw [readNumber?]
    exact fun _ same => absurd (List.cons.inj same).1 (ne_of_isDigit digit rfl)
  rw [readValue?, skipSpaces_cons (isSpace_of_isDigit digit)]
  split
  case h_7 =>
    rw [unsigned]
    cases readUnsigned? false (c :: rest) <;> rfl
  all_goals
    rename_i same
    exact absurd (List.cons.inj same).1 (ne_of_isDigit digit rfl)

/-- A bracket with elements behind it takes one level of room. -/
theorem readValue?_elements {c : Char} (visible : isSpace c = false) (more : c ≠ ']')
    (fuel room : Nat) (rest : List Char) :
    readValue? (fuel + 1) (room + 1) ('[' :: c :: rest) =
      (readElements? fuel room (c :: rest)).map fun (elements, rest) =>
        (.array elements, rest) := by
  rw [readValue?, skipSpaces_cons rfl]
  simp only [skipSpaces_cons visible]
  split
  · rename_i same
    exact absurd (List.cons.inj same).1 more
  · cases readElements? fuel room (c :: rest) <;> rfl

theorem readValue?_members {c : Char} (visible : isSpace c = false) (more : c ≠ '\x7d')
    (fuel room : Nat) (rest : List Char) :
    readValue? (fuel + 1) (room + 1) ('\x7b' :: c :: rest) =
      (readMembers? fuel room (c :: rest)).map fun (members, rest) =>
        (.object members, rest) := by
  rw [readValue?, skipSpaces_cons rfl]
  simp only [skipSpaces_cons visible]
  split
  · rename_i same
    exact absurd (List.cons.inj same).1 more
  · cases readMembers? fuel room (c :: rest) <;> rfl

/-- Without room no array is opened, not even an empty one. -/
theorem readValue?_array_zero (fuel : Nat) (rest : List Char) :
    readValue? (fuel + 1) 0 ('[' :: rest) = none := by
  rw [readValue?, skipSpaces_cons rfl]
  rfl

/-- Without room no object is opened. -/
theorem readValue?_object_zero (fuel : Nat) (rest : List Char) :
    readValue? (fuel + 1) 0 ('\x7b' :: rest) = none := by
  rw [readValue?, skipSpaces_cons rfl]
  rfl

/-! ## Values without parts -/

theorem readValue?_null (fuel room : Nat) (rest : List Char) :
    readValue? (fuel + 1) room (Json.null.text.toList ++ rest) = some (.null, rest) := by
  show readValue? (fuel + 1) room ('n' :: ("ull".toList ++ rest)) = _
  rw [readValue?, skipSpaces_cons rfl]
  simp only [afterWord?_append]
  rfl

theorem readValue?_bool (fuel room : Nat) (value : Bool) (rest : List Char) :
    readValue? (fuel + 1) room ((Json.bool value).text.toList ++ rest) =
      some (.bool value, rest) := by
  cases value with
  | true =>
      show readValue? (fuel + 1) room ('t' :: ("rue".toList ++ rest)) = _
      rw [readValue?, skipSpaces_cons rfl]
      simp only [afterWord?_append]
      rfl
  | false =>
      show readValue? (fuel + 1) room ('f' :: ("alse".toList ++ rest)) = _
      rw [readValue?, skipSpaces_cons rfl]
      simp only [afterWord?_append]
      rfl

theorem exists_toList_repr (n : Nat) :
    ∃ c rest, n.repr.toList = c :: rest ∧ c.isDigit = true := by
  obtain ⟨c, rest, same⟩ := List.exists_cons_of_ne_nil (Nat.toDigits_ne_nil (n := n) (b := 10))
  exact ⟨c, rest, (toList_repr n).trans same, all_isDigit_toDigits n c (same ▸ List.mem_cons_self)⟩

theorem readValue?_number {n : Nat} (small : n < UInt64.size) (fuel room : Nat)
    {rest : List Char} (ends : EndsNumber rest) :
    readValue? (fuel + 1) room (n.repr.toList ++ rest) = some (.ofNat n, rest) := by
  obtain ⟨c, tail, same, digit⟩ := exists_toList_repr n
  have number := readUnsigned?_repr false small ends
  rw [same, List.cons_append] at number ⊢
  rw [readValue?_digit digit, number]
  rfl

theorem readValue?_string (fuel room : Nat) (s : String) (rest : List Char) :
    readValue? (fuel + 1) room ((quoted s).toList ++ rest) = some (.string s, rest) := by
  rw [toList_quoted, readValue?, skipSpaces_cons rfl]
  simp only [readString?_quoted, Option.bind_eq_bind, Option.bind_some]
  rw [String.ofList_toList]
  rfl

theorem readValue?_noElements (fuel room : Nat) (rest : List Char) :
    readValue? (fuel + 1) (room + 1) ((Json.array []).text.toList ++ rest) =
      some (.array [], rest) := by
  show readValue? (fuel + 1) (room + 1) ('[' :: ']' :: rest) = _
  rw [readValue?, skipSpaces_cons rfl]
  simp only [skipSpaces_cons (show isSpace ']' = false from rfl)]

theorem readValue?_noMembers (fuel room : Nat) (rest : List Char) :
    readValue? (fuel + 1) (room + 1) ((Json.object []).text.toList ++ rest) =
      some (.object [], rest) := by
  show readValue? (fuel + 1) (room + 1) ('\x7b' :: '\x7d' :: rest) = _
  rw [readValue?, skipSpaces_cons rfl]
  simp only [skipSpaces_cons (show isSpace '\x7d' = false from rfl)]

/-! ## The texts of arrays and objects -/

theorem toList_text_array (elements : List Json) :
    (array elements).text.toList = '[' :: ((textOfElements elements).toList ++ [']']) := by
  rw [text, String.toList_append, String.toList_append]
  rfl

theorem toList_text_object (members : List (String × Json)) :
    (object members).text.toList = '\x7b' :: ((textOfMembers members).toList ++ ['\x7d']) := by
  rw [text, String.toList_append, String.toList_append]
  rfl

theorem toList_textOfElements_cons (first second : Json) (others : List Json) :
    (textOfElements (first :: second :: others)).toList =
      first.text.toList ++ ',' :: (textOfElements (second :: others)).toList := by
  rw [textOfElements, String.toList_append, String.toList_append, List.append_assoc]
  · rfl
  · simp

theorem toList_textOfMembers_singleton (key : String) (json : Json) :
    (textOfMembers [(key, json)]).toList = (quoted key).toList ++ ':' :: json.text.toList := by
  rw [textOfMembers, String.append_assoc, String.toList_append, String.toList_append]
  rfl

theorem toList_textOfMembers_cons (key : String) (first : Json) (second : String × Json)
    (others : List (String × Json)) :
    (textOfMembers ((key, first) :: second :: others)).toList =
      (quoted key).toList ++
        ':' :: (first.text.toList ++ ',' :: (textOfMembers (second :: others)).toList) := by
  rw [textOfMembers]
  · simp [String.toList_append]
  · simp

/-- A value begins neither with white space nor with the sign that closes an array. -/
theorem exists_toList_text {json : Json} (natural : json.isNatural) :
    ∃ c rest, json.text.toList = c :: rest ∧ isSpace c = false ∧ c ≠ ']' := by
  cases json with
  | null => exact ⟨'n', _, rfl, rfl, by decide⟩
  | bool value =>
      cases value with
      | false => exact ⟨'f', _, rfl, rfl, by decide⟩
      | true => exact ⟨'t', _, rfl, rfl, by decide⟩
  | number value =>
      obtain ⟨n, rfl, -⟩ := exists_of_isNatural natural
      obtain ⟨c, rest, same, digit⟩ := exists_toList_repr n
      exact ⟨c, rest, same, isSpace_of_isDigit digit, ne_of_isDigit digit rfl⟩
  | string value =>
      have quote := toList_quoted value []
      rw [List.append_nil] at quote
      exact ⟨'\x22', _, quote, rfl, by decide⟩
  | array elements => exact ⟨'[', _, toList_text_array elements, rfl, by decide⟩
  | object members => exact ⟨'\x7b', _, toList_text_object members, rfl, by decide⟩

theorem exists_toList_textOfElements {elements : List Json} (natural : isNaturalAll elements)
    (filled : elements ≠ []) :
    ∃ c rest, (textOfElements elements).toList = c :: rest ∧ isSpace c = false ∧ c ≠ ']' := by
  cases elements with
  | nil => contradiction
  | cons first others =>
      rw [isNaturalAll, Bool.and_eq_true] at natural
      obtain ⟨c, rest, same, start⟩ := exists_toList_text natural.1
      cases others with
      | nil => exact ⟨c, rest, by rw [textOfElements, same], start⟩
      | cons second others =>
          exact ⟨c, _, by rw [toList_textOfElements_cons, same, List.cons_append], start⟩

theorem exists_toList_textOfMembers {members : List (String × Json)} (filled : members ≠ []) :
    ∃ rest, (textOfMembers members).toList = '\x22' :: rest := by
  cases members with
  | nil => contradiction
  | cons member others =>
      cases others with
      | nil => exact ⟨_, by rw [toList_textOfMembers_singleton, toList_quoted]⟩
      | cons second others => exact ⟨_, by rw [toList_textOfMembers_cons, toList_quoted]⟩

/-! ## Values -/

mutual

/-- The value in front of a text is read if it fits in the room, and refused if not. -/
theorem readValue?_text (json : Json) (natural : json.isNatural) (fuel room : Nat)
    (enough : json.text.toList.length < fuel) {rest : List Char} (ends : EndsNumber rest) :
    readValue? fuel room (json.text.toList ++ rest) =
      if json.depth ≤ room then some (json, rest) else none := by
  obtain ⟨fuel, rfl⟩ : ∃ less, fuel = less + 1 := ⟨fuel - 1, by omega⟩
  cases json with
  | null => exact readValue?_null fuel room rest
  | bool value => exact readValue?_bool fuel room value rest
  | number value =>
      obtain ⟨n, rfl, small⟩ := exists_of_isNatural natural
      exact readValue?_number small fuel room ends
  | string value => exact readValue?_string fuel room value rest
  | array elements =>
      cases room with
      | zero => rw [toList_text_array, depth, List.cons_append, readValue?_array_zero]; rfl
      | succ room =>
          by_cases empty : elements = []
          · subst empty
            exact readValue?_noElements fuel room rest
          · obtain ⟨c, tail, same, visible, more⟩ := exists_toList_textOfElements natural empty
            rw [toList_text_array] at enough ⊢
            rw [List.length_cons, List.length_append, List.length_singleton] at enough
            have read := readElements?_text elements natural empty fuel room (by omega) rest
            rw [same] at read ⊢
            simp only [List.cons_append, List.append_assoc, List.nil_append] at read ⊢
            rw [readValue?_elements visible more, read, depth]
            by_cases fits : depthOfAll elements ≤ room <;> simp [fits]
  | object members =>
      cases room with
      | zero => rw [toList_text_object, depth, List.cons_append, readValue?_object_zero]; rfl
      | succ room =>
          by_cases empty : members = []
          · subst empty
            exact readValue?_noMembers fuel room rest
          · obtain ⟨tail, same⟩ := exists_toList_textOfMembers empty
            rw [toList_text_object] at enough ⊢
            rw [List.length_cons, List.length_append, List.length_singleton] at enough
            have read := readMembers?_text members natural empty fuel room (by omega) rest
            rw [same] at read ⊢
            simp only [List.cons_append, List.append_assoc, List.nil_append] at read ⊢
            rw [readValue?_members rfl (by decide), read, depth]
            by_cases fits : depthOfMembers members ≤ room <;> simp [fits]

/-- Elements are read if each fits in the room, and refused if one does not. -/
theorem readElements?_text (elements : List Json) (natural : isNaturalAll elements)
    (filled : elements ≠ []) (fuel room : Nat)
    (enough : (textOfElements elements).toList.length + 1 < fuel) (rest : List Char) :
    readElements? fuel room ((textOfElements elements).toList ++ ']' :: rest) =
      if depthOfAll elements ≤ room then some (elements, rest) else none := by
  obtain ⟨fuel, rfl⟩ : ∃ less, fuel = less + 1 := ⟨fuel - 1, by omega⟩
  cases elements with
  | nil => contradiction
  | cons first others =>
      rw [isNaturalAll, Bool.and_eq_true] at natural
      cases others with
      | nil =>
          rw [textOfElements] at enough ⊢
          have value := readValue?_text first natural.1 fuel room (by omega)
            (endsNumber_cons (c := ']') rest (by decide))
          rw [readElements?, value]
          by_cases fits : first.depth ≤ room <;>
            simp [fits, depthOfAll, skipSpaces_cons (show isSpace ']' = false from rfl)]
      | cons second others =>
          rw [toList_textOfElements_cons] at enough ⊢
          rw [List.length_append, List.length_cons] at enough
          have value := readValue?_text first natural.1 fuel room (by omega)
            (endsNumber_cons (c := ',')
              ((textOfElements (second :: others)).toList ++ ']' :: rest) (by decide))
          have tail := readElements?_text (second :: others) natural.2 (by simp)
            fuel room (by omega) rest
          rw [List.append_assoc, List.cons_append, readElements?, value, depthOfAll]
          simp only [Nat.max_le]
          by_cases fits : first.depth ≤ room
          · by_cases others_fit : depthOfAll (second :: others) ≤ room <;>
              simp [fits, others_fit, skipSpaces_cons (show isSpace ',' = false from rfl), tail]
          · simp [fits]

/-- Members are read if the value of each fits in the room, and refused if one does not. -/
theorem readMembers?_text (members : List (String × Json)) (natural : isNaturalMembers members)
    (filled : members ≠ []) (fuel room : Nat)
    (enough : (textOfMembers members).toList.length + 1 < fuel) (rest : List Char) :
    readMembers? fuel room ((textOfMembers members).toList ++ '\x7d' :: rest) =
      if depthOfMembers members ≤ room then some (members, rest) else none := by
  obtain ⟨fuel, rfl⟩ : ∃ less, fuel = less + 1 := ⟨fuel - 1, by omega⟩
  cases members with
  | nil => contradiction
  | cons member others =>
      obtain ⟨key, first⟩ := member
      rw [isNaturalMembers, Bool.and_eq_true] at natural
      cases others with
      | nil =>
          rw [toList_textOfMembers_singleton] at enough ⊢
          rw [List.length_append, List.length_cons] at enough
          have value := readValue?_text first natural.1 fuel room (by omega)
            (endsNumber_cons (c := '\x7d') rest (by decide))
          rw [List.append_assoc, toList_quoted, readMembers?, skipSpaces_cons rfl]
          simp only [readString?_quoted, Option.bind_eq_bind, Option.bind_some, List.cons_append,
            skipSpaces_cons (show isSpace ':' = false from rfl), value]
          by_cases fits : first.depth ≤ room <;>
            simp [fits, depthOfMembers, skipSpaces_cons (show isSpace '\x7d' = false from rfl)]
      | cons second others =>
          rw [toList_textOfMembers_cons] at enough ⊢
          rw [List.length_append, List.length_cons, List.length_append, List.length_cons] at enough
          have value := readValue?_text first natural.1 fuel room (by omega)
            (endsNumber_cons (c := ',')
              ((textOfMembers (second :: others)).toList ++ '\x7d' :: rest) (by decide))
          have tail := readMembers?_text (second :: others) natural.2 (by simp)
            fuel room (by omega) rest
          rw [List.append_assoc, toList_quoted, readMembers?, skipSpaces_cons rfl, depthOfMembers]
          simp only [readString?_quoted, Option.bind_eq_bind, Option.bind_some, List.cons_append,
            List.append_assoc, skipSpaces_cons (show isSpace ':' = false from rfl), value,
            Nat.max_le]
          by_cases fits : first.depth ≤ room
          · by_cases others_fit : depthOfMembers (second :: others) ≤ room <;>
              simp [fits, others_fit, skipSpaces_cons (show isSpace ',' = false from rfl), tail]
          · simp [fits]

end

/-- **What is written of a value is read as that value**, with nothing left over, if there is room
for its depth; without that room it is refused. -/
theorem read?_text {json : Json} (natural : json.isNatural) (room : Nat) :
    read? room json.text = if json.depth ≤ room then some json else none := by
  have value := readValue?_text json natural _ room (Nat.lt_succ_self _) endsNumber_nil
  rw [List.append_nil] at value
  rw [read?]
  by_cases fits : json.depth ≤ room
  · rw [if_pos fits] at value ⊢
    simp only [value]
    rfl
  · rw [if_neg fits] at value ⊢
    simp only [value]
    rfl

/-- Two values with one text are read as one, given room for the deeper of them. -/
theorem eq_of_text_eq {first second : Json} (natural : first.isNatural)
    (other : second.isNatural) (same : first.text = second.text) : first = second := by
  have read := read?_text natural (max first.depth second.depth)
  rw [same, read?_text other, if_pos (Nat.le_max_right _ _), if_pos (Nat.le_max_left _ _)] at read
  exact (Option.some.inj read).symm

end Rendition.Json
