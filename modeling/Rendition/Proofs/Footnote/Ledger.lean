/-
# Rendition.Proofs.Footnote.Ledger -- what the ledger knows after each mention

`Reached mentions position ledger` says what a dense ledger holds once the mentions
before `position` are entered: one definition for each allocating mention among
them, the number of every key met so far, and as definition of a number the
planned content of its definer, if that was met already.

The step is `Reached.enter`: entering the next mention answers with exactly what
the plan says of it, and reaches the next position.  A mention that allocates
and one that refers back are two lemmas; in the second the interesting fact is
that a definition is empty exactly while the definer is still to come
(`definedBefore_eq_nil_iff`).
-/
import Rendition.Proofs.Footnote.Dense
import Rendition.Proofs.Footnote.Rank

namespace Rendition.Footnote

set_option autoImplicit false

variable (mentions : List Mention)

/-- The content of the mention at a position after the plan of the list. -/
def plannedContent (position : Nat) : List Inline := (plan mentions).contentAt mentions position

/-- The definition of a mention's number once the mentions before `bound` are entered. -/
def definedBefore (bound position : Nat) : List Inline :=
  match definerAt? mentions position with
  | some definer => if definer < bound then plannedContent mentions definer else []
  | none => []

/-- The ledger after the mentions before a position. -/
structure Reached (position : Nat) (ledger : Ledger) : Prop where
  dense : ledger.Dense
  length : ledger.definitions.length = Nat.count (Allocates mentions) position
  number : ∀ key first, first? mentions key = some first →
    ledger.number? key = if first < position then some (rank mentions first) else none
  content : ∀ other < position, Allocates mentions other →
    ledger.contents[rank mentions other - 1]? = some (definedBefore mentions position other)

variable {mentions}

theorem plannedContent_eq_nil_iff {position : Nat} (inside : position < mentions.length) :
    plannedContent mentions position = [] ↔ ¬ hasContent mentions position := by
  have found : mentions[position]? = some mentions[position] := List.getElem?_eq_getElem inside
  rw [plannedContent, Plan.contentAt_eq_nil_iff _ found, hasContent, found]
  simp

theorem hasContent_lt_length {position : Nat} (content : hasContent mentions position) :
    position < mentions.length := by
  by_contra outside
  rw [hasContent, List.getElem?_eq_none (Nat.le_of_not_lt outside)] at content
  simp at content

/-- Once its definer is entered, the definition of a number is the content of the definer. -/
theorem definedBefore_of_lt {bound position definer : Nat}
    (defined : definerAt? mentions position = some definer) (less : definer < bound) :
    definedBefore mentions bound position = plannedContent mentions definer := by
  simp only [definedBefore, defined, less, if_true]

/-- Before its definer is entered, the definition of a number is empty. -/
theorem definedBefore_of_not_lt {bound position : Nat}
    (later : ∀ definer, definerAt? mentions position = some definer → bound ≤ definer) :
    definedBefore mentions bound position = [] := by
  unfold definedBefore
  split
  · rename_i definer defined
    rw [if_neg (Nat.not_lt.mpr (later definer defined))]
  · rfl

/-- One more mention changes the definition only of the number whose definer it is. -/
theorem definedBefore_succ {bound position : Nat}
    (other : definerAt? mentions position ≠ some bound) :
    definedBefore mentions (bound + 1) position = definedBefore mentions bound position := by
  unfold definedBefore
  split
  · rename_i definer defined
    have apart : definer ≠ bound := fun same => other (same ▸ defined)
    have iff : definer < bound + 1 ↔ definer < bound := by omega
    simp only [iff]
  · rfl

theorem definedBefore_succ_self {position definer : Nat}
    (defined : definerAt? mentions position = some definer) :
    definedBefore mentions (definer + 1) position = plannedContent mentions definer :=
  definedBefore_of_lt defined (Nat.lt_succ_self definer)

/-- Among the mentions of a key, the definition is missing until the definer is met. -/
theorem definedBefore_eq_nil_iff {bound position : Nat} {key : String}
    (keyed : keyAt mentions position = some key) :
    definedBefore mentions bound position = [] ↔
      ∀ earlier < bound, ¬ (keyAt mentions earlier = some key ∧ hasContent mentions earlier) := by
  rw [definedBefore, definerAt?_of_keyAt keyed]
  cases found : definer? mentions key with
  | none =>
      simp only [true_iff]
      exact fun earlier _ => definer?_eq_none_iff.mp found earlier
  | some definer =>
      obtain ⟨⟨same, content⟩, before⟩ := definer?_eq_some_iff.mp found
      by_cases less : definer < bound
      · simp only [less, if_true,
          plannedContent_eq_nil_iff (hasContent_lt_length content), content, not_true, false_iff]
        exact fun undefined => undefined definer less ⟨same, content⟩
      · simp only [less, if_false, true_iff]
        exact fun earlier below => before earlier (Nat.lt_of_lt_of_le below (Nat.le_of_not_lt less))

/-- A mention of a key keeps its content if it has some and none was met before. -/
theorem keeps_iff_of_keyAt {position : Nat} {key : String}
    (keyed : keyAt mentions position = some key) :
    keeps mentions position ↔
      hasContent mentions position ∧ definedBefore mentions position position = [] := by
  rw [keeps_iff, definerAt?_of_keyAt keyed, definer?_eq_some_iff, definedBefore_eq_nil_iff keyed]
  simp only [keyed, true_and]

/-! ## One step -/

/-- The pass begins with the empty ledger. -/
theorem Reached.empty : Reached mentions 0 .empty where
  dense := .empty
  length := by simp [Ledger.empty]
  number key first _ := by simp [Ledger.number?, Ledger.empty]
  content other below := absurd below (Nat.not_lt_zero other)

variable {position : Nat} {ledger : Ledger}

/-- The number that the ledger gives next is the rank of a mention that allocates. -/
theorem next_of_reached (reached : Reached mentions position ledger)
    (allocates : Allocates mentions position) : ledger.next = rank mentions position := by
  rw [reached.dense.next, reached.length, rank_of_allocates allocates]

/-- A mention that took a number before has its definition among those that are stored. -/
theorem place_lt_of_reached (reached : Reached mentions position ledger) {other : Nat}
    (below : other < position) (allocates : Allocates mentions other) :
    Nat.count (Allocates mentions) other < ledger.definitions.length := by
  rw [reached.length]
  exact Nat.count_strict_mono allocates below

theorem definition?_of_reached (reached : Reached mentions position ledger) {other : Nat}
    (below : other < position) (allocates : Allocates mentions other) :
    (ledger.definition? (rank mentions other)).map (·.content) =
      some (definedBefore mentions position other) := by
  have inside := place_lt_of_reached reached below allocates
  have stored := reached.content other below allocates
  rw [rank_of_allocates allocates, Nat.add_sub_cancel, Ledger.contents, List.getElem?_map,
    List.getElem?_eq_getElem inside] at stored
  rw [rank_of_allocates allocates, reached.dense.definition?_succ inside, stored]

/-- What an allocating mention does to the contents, whether it has a key or not. -/
theorem content_of_append (reached : Reached mentions position ledger)
    (allocates : Allocates mentions position) {other : Nat} (below : other < position + 1)
    (allocatesOther : Allocates mentions other)
    (own : definedBefore mentions (position + 1) position = plannedContent mentions position) :
    (ledger.contents ++ [plannedContent mentions position])[rank mentions other - 1]? =
      some (definedBefore mentions (position + 1) other) := by
  rw [rank_of_allocates allocatesOther, Nat.add_sub_cancel]
  rcases Nat.lt_succ_iff_lt_or_eq.mp below with less | rfl
  · have inside := place_lt_of_reached reached less allocatesOther
    have apart : definerAt? mentions other ≠ some position := by
      intro defined
      have same := ((definerAt?_eq_some_iff allocatesOther).mp defined).1
      exact Nat.ne_of_lt less (same.symm.trans allocates)
    rw [List.getElem?_append_left (by rw [Ledger.length_contents]; exact inside),
      definedBefore_succ apart, ← reached.content other less allocatesOther,
      rank_of_allocates allocatesOther, Nat.add_sub_cancel]
  · rw [← reached.length, ← Ledger.length_contents, List.getElem?_concat_length, own]

/-- The content of an allocating mention is its definition for now: it is empty or the definer's. -/
theorem definedBefore_of_allocates (inside : position < mentions.length)
    (allocates : Allocates mentions position) :
    definedBefore mentions (position + 1) position = plannedContent mentions position := by
  by_cases defined : definerAt? mentions position = some position
  · exact definedBefore_succ_self defined
  · cases keyed : keyAt mentions position with
    | none => exact absurd (definerAt?_of_anonymous keyed) defined
    | some key =>
        have first := first?_of_keyAt keyed
        rw [allocates] at first
        have fresh := (first?_eq_some_iff.mp first).2
        have missing : definedBefore mentions position position = [] :=
          (definedBefore_eq_nil_iff keyed).mpr fun earlier less met => fresh earlier less met.1
        have bare : ¬ hasContent mentions position := fun content =>
          defined (keeps_iff.mp ((keeps_iff_of_keyAt keyed).mpr ⟨content, missing⟩))
        rw [definedBefore_succ defined, missing, (plannedContent_eq_nil_iff inside).mpr bare]

/-- A mention that allocates appends its content to the definitions. -/
theorem Reached.append (reached : Reached mentions position ledger)
    (inside : position < mentions.length) (allocates : Allocates mentions position)
    {next : Ledger} (dense : next.Dense)
    (contents : next.contents = ledger.contents ++ [plannedContent mentions position])
    (number : ∀ key first, first? mentions key = some first →
      next.number? key = if first < position + 1 then some (rank mentions first) else none) :
    Reached mentions (position + 1) next where
  dense := dense
  length := by
    rw [← Ledger.length_contents, contents, List.length_append, List.length_singleton,
      Ledger.length_contents, reached.length, Nat.count_succ_eq_succ_count allocates]
  number := number
  content other below allocatesOther := by
    rw [contents]
    exact content_of_append reached allocates below allocatesOther
      (definedBefore_of_allocates inside allocates)

/-- A footnote without a key takes the next number and keeps its content. -/
theorem Reached.enter_of_anonymous (reached : Reached mentions position ledger)
    (inside : position < mentions.length) (anonymous : keyAt mentions position = none) :
    ∃ next, ledger.enter none (plannedContent mentions position) =
        (rank mentions position, plannedContent mentions position, next) ∧
      Reached mentions (position + 1) next := by
  have allocates : Allocates mentions position := source_of_anonymous anonymous
  refine ⟨(ledger.allocate (plannedContent mentions position)).2, ?_, ?_⟩
  · rw [← next_of_reached reached allocates]
    rfl
  · refine reached.append inside allocates (reached.dense.allocate _)
      (Ledger.contents_allocate _ _) fun key first found => ?_
    have apart : first ≠ position := by
      rintro rfl
      rw [(first?_eq_some_iff.mp found).1] at anonymous
      simp at anonymous
    have iff : first < position + 1 ↔ first < position := by omega
    simp only [Ledger.number?_allocate, reached.number key first found, iff]

/-- The first mention of a key takes the next number, with its content or without any. -/
theorem Reached.enter_of_first (reached : Reached mentions position ledger) {key : String}
    (keyed : keyAt mentions position = some key) (allocates : Allocates mentions position) :
    ∃ next, ledger.enter (some key) (plannedContent mentions position) =
        (rank mentions position, plannedContent mentions position, next) ∧
      Reached mentions (position + 1) next := by
  have first : first? mentions key = some position := by
    rw [first?_of_keyAt keyed, allocates]
  have fresh : ledger.number? key = none := by
    rw [reached.number key position first, if_neg (Nat.lt_irrefl position)]
  refine ⟨(ledger.allocateKey key (plannedContent mentions position)).2, ?_, ?_⟩
  · rw [← next_of_reached reached allocates]
    simp only [Ledger.enter, fresh]
    rfl
  · refine reached.append (lt_length_of_keyAt keyed) allocates (reached.dense.allocateKey _ _)
      (Ledger.contents_allocateKey _ _ _) fun other found at_ => ?_
    by_cases same : other = key
    · subst same
      rw [first, Option.some.injEq] at at_
      subst at_
      rw [Ledger.number?_allocateKey_self, if_pos (Nat.lt_succ_self position),
        next_of_reached reached allocates]
    · have apart : found ≠ position := by
        rintro rfl
        exact same (Option.some.inj ((first?_eq_some_iff.mp at_).1.symm.trans keyed))
      have iff : found < position + 1 ↔ found < position := by omega
      rw [Ledger.number?_allocateKey_of_ne _ _ same, reached.number other found at_]
      simp only [iff]

/-- Referring back leaves the numbers alone: nothing is allocated here. -/
theorem Reached.refer (reached : Reached mentions position ledger)
    (later : ¬ Allocates mentions position) {next : Ledger} (dense : next.Dense)
    (length : next.definitions.length = ledger.definitions.length)
    (number : ∀ key, next.number? key = ledger.number? key)
    (content : ∀ other < position, Allocates mentions other →
      next.contents[rank mentions other - 1]? =
        some (definedBefore mentions (position + 1) other)) :
    Reached mentions (position + 1) next where
  dense := dense
  length := by rw [length, reached.length, Nat.count_succ_eq_count later]
  number other first found := by
    have apart : first ≠ position := by
      rintro rfl
      have keyed := (first?_eq_some_iff.mp found).1
      rw [first?_of_keyAt keyed, Option.some.injEq] at found
      exact later found
    have iff : first < position + 1 ↔ first < position := by omega
    rw [number, reached.number other first found]
    simp only [iff]
  content other below allocates := by
    rcases Nat.lt_succ_iff_lt_or_eq.mp below with less | rfl
    · exact content other less allocates
    · exact absurd allocates later

/-- The definition that a later mention of a key finds. -/
theorem definition?_of_later (reached : Reached mentions position ledger)
    (later : ¬ Allocates mentions position) :
    (ledger.definition? (rank mentions position)).map (·.content) =
      some (definedBefore mentions position position) := by
  have less := Nat.lt_of_le_of_ne (source_le position) later
  rw [← rank_source, definition?_of_reached reached less (allocates_source position)]
  simp only [definedBefore, definerAt?_source]

section Later

variable (reached : Reached mentions position ledger) {key : String}
  (keyed : keyAt mentions position = some key) (later : ¬ Allocates mentions position)

include reached keyed later

theorem number?_of_later : ledger.number? key = some (rank mentions position) := by
  have less := Nat.lt_of_le_of_ne (source_le position) later
  rw [reached.number key _ (first?_of_keyAt keyed), if_pos less, rank_source]

/-- A later mention of a key fills the definition in exactly if it is the definer. -/
theorem fills_iff_of_later :
    ((ledger.definition? (rank mentions position)).any (·.content.isEmpty) = true ∧
      ¬ (plannedContent mentions position).isEmpty = true) ↔ keeps mentions position := by
  obtain ⟨definition, found, same⟩ :=
    Option.map_eq_some_iff.mp (definition?_of_later reached later)
  rw [found, Option.any_some, same, List.isEmpty_iff, List.isEmpty_iff,
    plannedContent_eq_nil_iff (lt_length_of_keyAt keyed), not_not, keeps_iff_of_keyAt keyed]
  exact and_comm

/-- A later mention that is the definer of its key fills the definition in. -/
theorem Reached.enter_of_definer (kept : keeps mentions position) :
    ∃ next, ledger.enter (some key) (plannedContent mentions position) =
        (rank mentions position, plannedContent mentions position, next) ∧
      Reached mentions (position + 1) next := by
  refine ⟨ledger.define (rank mentions position) (plannedContent mentions position), ?_, ?_⟩
  · simp only [Ledger.enter, number?_of_later reached keyed later,
      if_pos ((fills_iff_of_later reached keyed later).mpr kept)]
  · have less := Nat.lt_of_le_of_ne (source_le position) later
    have inside := place_lt_of_reached reached less (allocates_source position)
    refine reached.refer later (reached.dense.define _ _)
      (Ledger.length_definitions_define _ _ _) (Ledger.number?_define _ _ _)
      fun other below allocates => ?_
    have defined : definerAt? mentions other = some position ↔
        source mentions position = other := by
      rw [definerAt?_eq_some_iff allocates]
      exact and_iff_left kept
    rw [← rank_source, rank_of_allocates (allocates_source position),
      reached.dense.contents_define _ inside, rank_of_allocates allocates, Nat.add_sub_cancel]
    by_cases same : source mentions position = other
    · rw [same] at inside ⊢
      rw [definedBefore_succ_self (defined.mpr same),
        List.getElem?_set_self (by rw [Ledger.length_contents]; exact inside)]
    · have apart : Nat.count (Allocates mentions) (source mentions position) ≠
          Nat.count (Allocates mentions) other := fun equal =>
        same (Nat.count_injective (allocates_source position) allocates equal)
      rw [definedBefore_succ (mt defined.mp same), List.getElem?_set_ne apart,
        ← reached.content other below allocates, rank_of_allocates allocates, Nat.add_sub_cancel]

/-- Any other later mention is a mere reference. -/
theorem Reached.enter_of_reference (dropped : ¬ keeps mentions position) :
    ∃ next, ledger.enter (some key) (plannedContent mentions position) =
        (rank mentions position, [], next) ∧
      Reached mentions (position + 1) next := by
  refine ⟨ledger, ?_, ?_⟩
  · simp only [Ledger.enter, number?_of_later reached keyed later,
      if_neg (mt (fills_iff_of_later reached keyed later).mp dropped)]
  · refine reached.refer later reached.dense rfl (fun _ => rfl) fun other below allocates => ?_
    have apart : definerAt? mentions other ≠ some position := fun defined =>
      dropped ((definerAt?_eq_some_iff allocates).mp defined).2
    rw [definedBefore_succ apart, reached.content other below allocates]

end Later

/-- An allocating mention whose content is dropped had none. -/
theorem keeps_or_plannedContent_eq_nil (inside : position < mentions.length)
    (allocates : Allocates mentions position) :
    (if keeps mentions position then plannedContent mentions position else []) =
      plannedContent mentions position := by
  split
  · rfl
  · rename_i dropped
    rw [← definedBefore_of_allocates inside allocates]
    refine (definedBefore_of_not_lt fun definer defined => ?_).symm
    obtain ⟨same, kept⟩ := (definerAt?_eq_some_iff allocates).mp defined
    have le : position ≤ definer := same ▸ source_le definer
    have apart : position ≠ definer := fun equal => dropped (equal ▸ kept)
    omega

/-- **Entering a mention answers as planned.** -/
theorem Reached.enter (reached : Reached mentions position ledger)
    (inside : position < mentions.length) :
    ∃ next, ledger.enter (keyAt mentions position) (plannedContent mentions position) =
        (rank mentions position,
          if keeps mentions position then plannedContent mentions position else [], next) ∧
      Reached mentions (position + 1) next := by
  by_cases allocates : Allocates mentions position
  · rw [keeps_or_plannedContent_eq_nil inside allocates]
    cases keyed : keyAt mentions position with
    | none => exact reached.enter_of_anonymous inside keyed
    | some key => exact reached.enter_of_first keyed allocates
  · cases keyed : keyAt mentions position with
    | none => exact absurd (source_of_anonymous keyed) allocates
    | some key =>
        split
        · rename_i kept
          exact reached.enter_of_definer keyed allocates kept
        · rename_i dropped
          exact reached.enter_of_reference keyed allocates dropped

end Rendition.Footnote
