/-
# Rendition.Proofs.Value.Payload -- a payload in a context

A payload keeps its shape in a context; only a number that is no 64-bit integer comes
out as the string of its text (`toJson_ofJson`).  The members of its objects carry no
order, so what is compared is the payload with its members in ascending order, and a
payload that has them so already is left as it is (`sorted_of_ascending`).

A path leads through a payload step by step: by its key to a member, the last one if
there are several, and by its position to an element.  In the context the same path
finds the value of what it leads to (`getPath?_ofPayload`).
-/
import Mathlib.Tactic.SplitIfs
import Rendition.Value.Json

namespace Rendition

set_option autoImplicit false

/-! ## Positions -/

namespace Text

/-- Whether a segment writes a position: decimal digits, with any number of zeros and one plus sign
in front, of a number that 64 bits hold. -/
def WritesPosition (segment : String) (position : Nat) : Prop :=
  ∃ digits : List Char, (segment.toList = digits ∨ segment.toList = '+' :: digits) ∧
    digits ≠ [] ∧ (∀ c ∈ digits, c.isDigit) ∧ Nat.ofDigitChars 10 digits 0 = position ∧
    position < UInt64.size

theorem readNaturalBelow?_eq_some_iff {bound n : Nat} {cs : List Char} :
    readNaturalBelow? bound cs = some n ↔
      cs ≠ [] ∧ (∀ c ∈ cs, c.isDigit) ∧ Nat.ofDigitChars 10 cs 0 = n ∧ n < bound := by
  rw [readNaturalBelow?, Option.filter_eq_some_iff, readNatural?, decide_eq_true_eq]
  split_ifs with digits
  · rw [Bool.and_eq_true, Bool.not_eq_true', List.isEmpty_eq_false_iff, List.all_eq_true] at digits
    rw [Option.some.injEq, and_iff_right digits.1, and_iff_right digits.2]
  · simp only [Bool.and_eq_true, Bool.not_eq_true', List.isEmpty_eq_false_iff, List.all_eq_true]
      at digits
    constructor
    · rintro ⟨missing, -⟩
      cases missing
    · exact fun number => absurd ⟨number.1, number.2.1⟩ digits

/-- A segment is read as a position if and only if it writes one. -/
theorem readPosition?_eq_some_iff {segment : String} {position : Nat} :
    readPosition? segment = some position ↔ WritesPosition segment position := by
  rw [readPosition?, WritesPosition]
  split
  · rename_i cs signed
    rw [readNaturalBelow?_eq_some_iff]
    constructor
    · exact fun number => ⟨cs, .inr signed, number⟩
    · rintro ⟨digits, plain | written, number⟩
      · -- the plus sign is no digit
        rw [← plain, signed] at number
        exact absurd (number.2.1 '+' List.mem_cons_self) (by decide)
      · rw [signed, List.cons.injEq] at written
        exact written.2 ▸ number
  · rename_i unsigned
    rw [readNaturalBelow?_eq_some_iff]
    constructor
    · exact fun number => ⟨segment.toList, .inl rfl, number⟩
    · rintro ⟨digits, plain | written, number⟩
      · exact plain ▸ number
      · exact absurd written (unsigned digits)

end Text

/-! ## Numbers -/

namespace JsonNumber

/-- Whether a number is an integer of 64 bits with a sign. -/
def IsInt64 (number : JsonNumber) : Prop := ∃ word : Int64, number = .integer word.toInt

/-- The integers that 64 bits with a sign hold. -/
theorem isInt64_integer_iff {value : Int} :
    (integer value).IsInt64 ↔ -Int.pow 2 63 ≤ value ∧ value < Int.pow 2 63 := by
  constructor
  · rintro ⟨word, same⟩
    cases same
    exact ⟨word.le_toInt, word.toInt_lt⟩
  · intro ⟨low, high⟩
    exact ⟨Int64.ofInt value, congrArg _ (Int64.toInt_ofInt_of_le low high).symm⟩

theorem not_isInt64_float (value : Binary64) : ¬ (float value).IsInt64 := by
  rintro ⟨word, same⟩
  cases same

instance (number : JsonNumber) : Decidable number.IsInt64 :=
  match number with
  | .integer _ => decidable_of_iff _ isInt64_integer_iff.symm
  | .float value => isFalse (not_isInt64_float value)

/-- A number as it comes out of a context: an integer of 64 bits as it is, any other number as the
string of its text. -/
def inContext (numberText : JsonNumber → String) (number : JsonNumber) : Json :=
  if number.IsInt64 then .number number else .string (numberText number)

end JsonNumber

theorem Value.toJson_ofNumber (numberText : JsonNumber → String) (number : JsonNumber) :
    (Value.ofNumber numberText number).toJson = number.inContext numberText := by
  cases number with
  | integer value =>
      rw [ofNumber, JsonNumber.inContext]
      simp only [JsonNumber.isInt64_integer_iff]
      split_ifs <;> simp only [toJson]
  | float value =>
      rw [ofNumber, JsonNumber.inContext, if_neg (JsonNumber.not_isInt64_float value), toJson]

namespace Json

/-! ## Shape -/

mutual

/-- The value with something else for every number, and all else as it is. -/
def mapNumbers (f : JsonNumber → Json) : Json → Json
  | .number value => f value
  | .array elements => .array (mapNumbersAll f elements)
  | .object members => .object (mapNumbersMembers f members)
  | .null => .null
  | .bool value => .bool value
  | .string value => .string value

def mapNumbersAll (f : JsonNumber → Json) : List Json → List Json
  | [] => []
  | json :: rest => json.mapNumbers f :: mapNumbersAll f rest

def mapNumbersMembers (f : JsonNumber → Json) : List (String × Json) → List (String × Json)
  | [] => []
  | (key, json) :: rest => (key, json.mapNumbers f) :: mapNumbersMembers f rest

end

end Json

namespace Value

variable (numberText : JsonNumber → String)

mutual

/-- What goes into a context comes out with its wide numbers as texts and nothing else changed. -/
theorem toJson_ofJson (json : Json) :
    (ofJson numberText json).toJson = json.mapNumbers (JsonNumber.inContext numberText) := by
  match json with
  | .number number => rw [ofJson, toJson_ofNumber numberText, Json.mapNumbers]
  | .array elements => rw [ofJson, toJson, toJsonAll_ofJsonAll elements, Json.mapNumbers]
  | .object members => rw [ofJson, toJson, toJsonEntries_ofJsonMembers members, Json.mapNumbers]
  | .null => rw [ofJson, toJson, Json.mapNumbers]
  | .bool value => rw [ofJson, toJson, Json.mapNumbers]
  | .string value => rw [ofJson, toJson, Json.mapNumbers]

theorem toJsonAll_ofJsonAll (elements : List Json) :
    toJsonAll (ofJsonAll numberText elements) =
      Json.mapNumbersAll (JsonNumber.inContext numberText) elements := by
  match elements with
  | [] => rw [ofJsonAll, toJsonAll, Json.mapNumbersAll]
  | json :: rest =>
      rw [ofJsonAll, toJsonAll, toJson_ofJson json,
        toJsonAll_ofJsonAll rest, Json.mapNumbersAll]

theorem toJsonEntries_ofJsonMembers (members : List (String × Json)) :
    toJsonEntries (ofJsonMembers numberText members) =
      Json.mapNumbersMembers (JsonNumber.inContext numberText) members := by
  match members with
  | [] => rw [ofJsonMembers, toJsonEntries, Json.mapNumbersMembers]
  | (key, json) :: rest =>
      rw [ofJsonMembers, toJsonEntries, toJson_ofJson json,
        toJsonEntries_ofJsonMembers rest, Json.mapNumbersMembers]

end

end Value

/-! ## Order of members -/

namespace Json

abbrev keys (members : List (String × Json)) : List String := members.map Prod.fst

mutual

/-- Whether the members of every object have their keys in strictly ascending order. -/
def Ascending : Json → Prop
  | .array elements => AscendingAll elements
  | .object members => (keys members).Pairwise (· < ·) ∧ AscendingMembers members
  | .null | .bool _ | .number _ | .string _ => True

def AscendingAll : List Json → Prop
  | [] => True
  | json :: rest => json.Ascending ∧ AscendingAll rest

def AscendingMembers : List (String × Json) → Prop
  | [] => True
  | (_, json) :: rest => json.Ascending ∧ AscendingMembers rest

end

variable {key : String} {value : Json} {first : String × Json} {members rest : List (String × Json)}

theorem mem_keys_cons_iff : key ∈ keys (first :: rest) ↔ key = first.1 ∨ key ∈ keys rest :=
  List.mem_cons

theorem insertMember_of_first (first : ∀ other ∈ keys members, key < other) :
    insertMember key value members = (key, value) :: members := by
  cases members with
  | nil => rfl
  | cons member rest => rw [insertMember, if_pos (first member.1 List.mem_cons_self)]

mutual

/-- A value whose keys ascend is sorted already. -/
theorem sorted_of_ascending (json : Json) (ascending : json.Ascending) : json.sorted = json := by
  match json with
  | .array elements =>
      rw [Ascending] at ascending
      rw [sorted, sortedAll_of_ascending elements ascending]
  | .object members =>
      rw [Ascending] at ascending
      rw [sorted, sortedMembers_of_ascending members ascending.1 ascending.2]
  | .null | .bool _ | .number _ | .string _ => rw [sorted]

theorem sortedAll_of_ascending (elements : List Json) (ascending : AscendingAll elements) :
    sortedAll elements = elements := by
  match elements with
  | [] => rw [sortedAll]
  | json :: rest =>
      rw [AscendingAll] at ascending
      rw [sortedAll, sorted_of_ascending json ascending.1, sortedAll_of_ascending rest ascending.2]

theorem sortedMembers_of_ascending (members : List (String × Json))
    (order : (keys members).Pairwise (· < ·)) (ascending : AscendingMembers members) :
    sortedMembers members = members := by
  match members with
  | [] => rw [sortedMembers]
  | (key, json) :: rest =>
      rw [AscendingMembers] at ascending
      obtain ⟨first, others⟩ := List.pairwise_cons.mp order
      rw [sortedMembers, sorted_of_ascending json ascending.1,
        sortedMembers_of_ascending rest others ascending.2, insertMember_of_first first]

end

theorem mem_keys_insertMember_iff {other : String} :
    other ∈ keys (insertMember key value members) ↔ other = key ∨ other ∈ keys members := by
  induction members with
  | nil => simp [insertMember]
  | cons first rest ih =>
      simp only [insertMember]
      split_ifs with less same
      · exact List.mem_cons
      · simp [same]
      · rw [mem_keys_cons_iff, ih, mem_keys_cons_iff]
        exact or_left_comm

/-- A member is put where its key belongs. -/
theorem insertMember_pairwise (order : (keys members).Pairwise (· < ·)) :
    (keys (insertMember key value members)).Pairwise (· < ·) := by
  induction members with
  | nil => simp [insertMember]
  | cons first rest ih =>
      obtain ⟨before, others⟩ := List.pairwise_cons.mp order
      simp only [insertMember]
      split_ifs with less same
      · refine List.pairwise_cons.mpr ⟨?_, order⟩
        rintro name (_ | ⟨_, later⟩)
        · exact less
        · exact String.lt_trans less (before name later)
      · exact order
      · refine List.pairwise_cons.mpr ⟨fun name inside => ?_, ih others⟩
        rcases mem_keys_insertMember_iff.mp inside with rfl | later
        · exact Std.lt_of_le_of_ne (Std.not_lt.mp less) (Ne.symm same)
        · exact before name later

/-- A member is put among those of other keys; where its key is taken it is left out. -/
theorem mem_insertMember_iff (order : (keys members).Pairwise (· < ·)) (member : String × Json) :
    member ∈ insertMember key value members ↔
      member ∈ members ∨ key ∉ keys members ∧ (key, value) = member := by
  induction members with
  | nil => simp [insertMember, eq_comm]
  | cons first rest ih =>
      obtain ⟨before, others⟩ := List.pairwise_cons.mp order
      simp only [insertMember]
      split_ifs with less same
      · have absent : key ∉ keys (first :: rest) := by
          rintro (_ | ⟨_, later⟩)
          · exact String.lt_irrefl _ less
          · exact String.lt_irrefl _ (String.lt_trans less (before key later))
        rw [List.mem_cons, or_comm, and_iff_right absent, eq_comm]
      · simp [same]
      · rw [List.mem_cons, ih others, List.mem_cons, or_assoc, mem_keys_cons_iff,
          not_or, and_iff_right same]

theorem mem_keys_sortedMembers_iff :
    key ∈ keys (sortedMembers members) ↔ key ∈ keys members := by
  induction members with
  | nil => rw [sortedMembers]
  | cons first rest ih =>
      rw [sortedMembers, mem_keys_insertMember_iff, ih, mem_keys_cons_iff]

/-- Sorted members have strictly ascending keys, each once. -/
theorem sortedMembers_pairwise (members : List (String × Json)) :
    (keys (sortedMembers members)).Pairwise (· < ·) := by
  induction members with
  | nil => simp [sortedMembers]
  | cons first rest ih =>
      rw [sortedMembers]
      exact insertMember_pairwise ih

theorem lookup_eq_some_iff (order : (keys members).Pairwise (· < ·)) :
    members.lookup key = some value ↔ (key, value) ∈ members := by
  induction members with
  | nil => simp
  | cons first rest ih =>
      obtain ⟨name, json⟩ := first
      obtain ⟨before, others⟩ := List.pairwise_cons.mp order
      by_cases same : key = name
      · subst same
        have absent : (key, value) ∉ rest := fun later =>
          String.lt_irrefl key (before key (List.mem_map_of_mem later))
        simp [absent, eq_comm]
      · have other : (key == name) = false := by simpa using same
        rw [List.lookup_cons, other, ih others, List.mem_cons]
        simp [same]

/-! ## Paths -/

/-- The last member of a key. -/
def HasLast (members : List (String × Json)) (key : String) (part : Json) : Prop :=
  ∃ front back, members = front ++ (key, part) :: back ∧ key ∉ keys back

/-- A segment of a path leads from a value to a part of it: from an object to its last member of
this key, from an array to the element at the position that the segment writes. -/
inductive Step : Json → String → Json → Prop where
  | member {members : List (String × Json)} {key : String} {part : Json} :
      HasLast members key part → Step (.object members) key part
  | element {elements : List Json} {segment : String} {position : Nat} {part : Json} :
      Text.WritesPosition segment position → elements[position]? = some part →
      Step (.array elements) segment part

/-- A path leads from a value to a part of it. -/
inductive Reaches : Json → List String → Json → Prop where
  | here {json : Json} : Reaches json [] json
  | step {json part target : Json} {segment : String} {path : List String} :
      Step json segment part → Reaches part path target → Reaches json (segment :: path) target

/-- The last member of a key is among the rest unless the rest has none. -/
theorem hasLast_cons_iff {part : Json} :
    HasLast (first :: rest) key part ↔
      HasLast rest key part ∨ key ∉ keys rest ∧ first = (key, part) := by
  constructor
  · rintro ⟨_ | ⟨_, front⟩, back, same, last⟩
    · obtain ⟨rfl, rfl⟩ := List.cons.inj same
      exact .inr ⟨last, rfl⟩
    · obtain ⟨-, rfl⟩ := List.cons.inj same
      exact .inl ⟨front, back, rfl, last⟩
  · rintro (⟨front, back, rfl, last⟩ | ⟨last, rfl⟩)
    · exact ⟨first :: front, back, rfl, last⟩
    · exact ⟨[], rest, rfl, last⟩

/-- Of the members of one key the last stays. -/
theorem mem_sortedMembers_iff :
    (key, value) ∈ sortedMembers members ↔
      ∃ part, HasLast members key part ∧ part.sorted = value := by
  induction members with
  | nil =>
      rw [sortedMembers]
      simp [HasLast]
  | cons first rest ih =>
      obtain ⟨name, json⟩ := first
      rw [sortedMembers, mem_insertMember_iff (sortedMembers_pairwise rest), ih,
        mem_keys_sortedMembers_iff]
      simp only [hasLast_cons_iff, or_and_right, exists_or, Prod.mk.injEq]
      refine or_congr_right ⟨?_, ?_⟩
      · rintro ⟨last, rfl, rfl⟩
        exact ⟨json, ⟨last, rfl, rfl⟩, rfl⟩
      · rintro ⟨_, ⟨last, rfl, rfl⟩, rfl⟩
        exact ⟨last, rfl, rfl⟩

end Json

namespace Value

variable (numberText : JsonNumber → String)

theorem lookup_ofJsonMembers (key : String) (members : List (String × Json)) :
    (ofJsonMembers numberText members).lookup key =
      (members.lookup key).map (ofJson numberText) := by
  induction members with
  | nil => rw [ofJsonMembers, List.lookup_nil, List.lookup_nil, Option.map_none]
  | cons first rest ih =>
      rw [ofJsonMembers, List.lookup_cons, List.lookup_cons, ih]
      split <;> rfl

theorem getElem?_ofJsonAll_sortedAll (elements : List Json) (position : Nat) :
    (ofJsonAll numberText (Json.sortedAll elements))[position]? =
      elements[position]?.map (ofPayload numberText) := by
  induction elements generalizing position with
  | nil => rw [Json.sortedAll, ofJsonAll, List.getElem?_nil, List.getElem?_nil, Option.map_none]
  | cons json rest ih =>
      rw [Json.sortedAll, ofJsonAll]
      cases position with
      | zero => rfl
      | succ position => exact ih position

variable {json : Json} {found : Value}

/-- A segment finds in the context the value of the part to which it leads. -/
theorem step?_ofPayload_eq_some_iff {segment : String} :
    (ofPayload numberText json).step? segment = some found ↔
      ∃ part, json.Step segment part ∧ ofPayload numberText part = found := by
  rw [ofPayload]
  cases json with
  | object members =>
      rw [Json.sorted, ofJson, step?, lookup_ofJsonMembers, Option.map_eq_some_iff]
      simp only [Json.lookup_eq_some_iff (Json.sortedMembers_pairwise members),
        Json.mem_sortedMembers_iff]
      constructor
      · rintro ⟨_, ⟨part, last, rfl⟩, same⟩
        exact ⟨part, .member last, same⟩
      · rintro ⟨part, ⟨last⟩, same⟩
        exact ⟨part.sorted, ⟨part, last, rfl⟩, same⟩
  | array elements =>
      rw [Json.sorted, ofJson, step?, Option.bind_eq_bind, Option.bind_eq_some_iff]
      simp only [getElem?_ofJsonAll_sortedAll, Option.map_eq_some_iff,
        Text.readPosition?_eq_some_iff]
      constructor
      · rintro ⟨position, written, part, present, same⟩
        exact ⟨part, .element written present, same⟩
      · rintro ⟨part, step, same⟩
        cases step with
        | element written present => exact ⟨_, written, part, present, same⟩
  | number number =>
      have scalar : (ofNumber numberText number).step? segment = none := by
        cases number with
        | integer value =>
            rw [ofNumber]
            split_ifs <;> rfl
        | float value => rfl
      rw [Json.sorted, ofJson, scalar]
      exact ⟨nofun, nofun⟩
  | null | bool | string =>
      rw [Json.sorted, ofJson]
      exact ⟨nofun, nofun⟩

/-- A path finds in the context the value of the part to which it leads. -/
theorem getPath?_ofPayload_eq_some_iff {path : List String} :
    (ofPayload numberText json).getPath? path = some found ↔
      ∃ part, json.Reaches path part ∧ ofPayload numberText part = found := by
  induction path generalizing json with
  | nil =>
      rw [getPath?, Option.some.injEq]
      constructor
      · exact fun same => ⟨json, .here, same⟩
      · rintro ⟨part, ⟨⟩, same⟩
        exact same
  | cons segment path ih =>
      rw [getPath?, Option.bind_eq_bind, Option.bind_eq_some_iff]
      simp only [step?_ofPayload_eq_some_iff]
      constructor
      · rintro ⟨_, ⟨part, step, rfl⟩, later⟩
        obtain ⟨target, reaches, same⟩ := ih.mp later
        exact ⟨target, .step step reaches, same⟩
      · rintro ⟨target, reaches, same⟩
        cases reaches with
        | step step reaches =>
            exact ⟨_, ⟨_, step, rfl⟩, ih.mpr ⟨target, reaches, same⟩⟩

/-- **A payload passes through a context unchanged but for its wide numbers**, whatever the text of
a number is.  It comes out with its members in order, as they are if they are in order, and each
number that is no 64-bit integer as the string of its text.  A path finds the value of the part of
the payload to which it leads, and nothing exactly if it leads to no part; a path followed by
another finds what the other finds from there. -/
theorem payload_passes (json : Json) :
    (ofPayload numberText json).toJson =
        json.sorted.mapNumbers (JsonNumber.inContext numberText) ∧
      (json.Ascending →
        (ofPayload numberText json).toJson =
          json.mapNumbers (JsonNumber.inContext numberText)) ∧
      (∀ path found, (ofPayload numberText json).getPath? path = some found ↔
        ∃ part, json.Reaches path part ∧ ofPayload numberText part = found) ∧
      (∀ path, (ofPayload numberText json).getPath? path = none ↔
        ∀ part, ¬ json.Reaches path part) ∧
      ∀ path rest, (ofPayload numberText json).getPath? (path ++ rest) =
        ((ofPayload numberText json).getPath? path).bind fun found => found.getPath? rest := by
  have whole : (ofPayload numberText json).toJson =
      json.sorted.mapNumbers (JsonNumber.inContext numberText) :=
    toJson_ofJson numberText json.sorted
  refine ⟨whole, fun ascending => ?_,
    fun path found => getPath?_ofPayload_eq_some_iff numberText,
    fun path => ?_, getPath?_append _⟩
  · rwa [Json.sorted_of_ascending json ascending] at whole
  · simp only [Option.eq_none_iff_forall_ne_some, ne_eq, getPath?_ofPayload_eq_some_iff]
    constructor
    · exact fun missing part reaches => missing (ofPayload numberText part) ⟨part, reaches, rfl⟩
    · rintro missing found ⟨part, reaches, -⟩
      exact missing part reaches

namespace Example

/-- The least integer of 64 bits, the one after the greatest, a fraction, and a number for a key. -/
def wide : Json :=
  .object [("1", .string "one"), ("list", .array
    [.number (.integer (-9223372036854775808)), .number (.integer 9223372036854775808),
      .object [("x", .number (.float ⟨false, 5 * Nat.pow 2 50, -51⟩))]])]

theorem wide_passes :
    wide.Ascending ∧
      (ofPayload JsonNumber.text wide).toJson = .object [("1", .string "one"), ("list", .array
        [.number (.integer (-9223372036854775808)), .string "9223372036854775808",
          .object [("x", .string "2.5")]])] ∧
      (ofPayload JsonNumber.text wide).getPath? ["list", "+01"] =
        some (.string "9223372036854775808") := by
  have order : ["1", "list"].Pairwise (· < ·) := by decide
  have ascending : wide.Ascending := by
    simp only [wide, Json.Ascending, Json.AscendingAll, Json.AscendingMembers, and_true, true_and]
    exact ⟨order, List.pairwise_singleton _ _⟩
  have least : (JsonNumber.integer (-9223372036854775808)).inContext JsonNumber.text =
      .number (.integer (-9223372036854775808)) := if_pos (by decide)
  have beyond : (JsonNumber.integer 9223372036854775808).inContext JsonNumber.text =
      .string "9223372036854775808" := by
    rw [JsonNumber.inContext, if_neg (by decide)]
    exact congrArg Json.string (by decide +kernel)
  have fraction : (JsonNumber.float ⟨false, 5 * Nat.pow 2 50, -51⟩).inContext JsonNumber.text =
      .string "2.5" := by
    rw [JsonNumber.inContext, if_neg (by decide)]
    exact congrArg Json.string (by decide +kernel)
  obtain ⟨-, same, reached, -⟩ := payload_passes JsonNumber.text wide
  refine ⟨ascending, (same ascending).trans ?_, (reached _ _).mpr ?_⟩
  · simp only [wide, Json.mapNumbers, Json.mapNumbersMembers, Json.mapNumbersAll, least, beyond,
      fraction]
  have position : Text.WritesPosition "+01" 1 := Text.readPosition?_eq_some_iff.mp (by decide)
  have text : ofPayload JsonNumber.text (.number (.integer 9223372036854775808)) =
      .string "9223372036854775808" := by
    rw [ofPayload, Json.sorted, ofJson, ofNumber, if_neg (by decide)]
    exact congrArg Value.string (by decide +kernel)
  refine ⟨_, .step (.member ⟨[_], [], rfl, nofun⟩) ?_, text⟩
  exact .step (.element position rfl) .here

end Example

end Value

end Rendition
