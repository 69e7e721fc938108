/-
# Rendition.Proofs.Footnote.Rank -- the plan of a list of mentions

The first phase of numbering in two phases.  A mention *allocates* if it has no
key or is the first with its key; every mention has the number of its `source`,
the allocating mention it stands for, and the number is the rank of the source
among the allocating mentions.  The *definer* of a key is its first mention with
content; a keyed mention keeps its content only if it is the definer of its key.

Everything here reads the list alone.  What the later modules use is that equal
ranks mean equal sources (`rank_eq_rank_iff`), that the ranks fill one up to the
number of allocating mentions (`exists_rank`), and that the definer of an
allocating mention is the one mention of its rank that keeps content
(`definerAt?_eq_some_iff`).
-/
import Mathlib.Data.Nat.Count
import Rendition.Proofs.Footnote.Mention

namespace Rendition.Footnote

set_option autoImplicit false

variable (mentions : List Mention)

def keyAt (position : Nat) : Option String := mentions[position]?.bind Mention.key

def hasContent (position : Nat) : Bool := mentions[position]?.any (! ·.content.isEmpty)

/-- The position of the first mention of a key. -/
def first? (key : String) : Option Nat := mentions.findIdx? (·.key == some key)

/-- The position of the first mention of a key that has content. -/
def definer? (key : String) : Option Nat :=
  mentions.findIdx? fun mention => mention.key == some key && ! mention.content.isEmpty

/-- The mention for which a mention stands: the first with its key, or itself without a key. -/
def source (position : Nat) : Nat :=
  match keyAt mentions position with
  | some key => (first? mentions key).getD position
  | none => position

/-- The mention that defines the footnote of a mention: the definer of its key, or itself without
a key. -/
def definerAt? (position : Nat) : Option Nat :=
  match keyAt mentions position with
  | some key => definer? mentions key
  | none => some position

def Allocates (position : Nat) : Prop := source mentions position = position

instance : DecidablePred (Allocates mentions) := fun _ => inferInstanceAs (Decidable (_ = _))

/-- How many numbers the mentions take. -/
def allocations : Nat := Nat.count (Allocates mentions) mentions.length

/-- The number of a mention: the rank of its source among the allocating mentions, from one. -/
def rank (position : Nat) : Nat := Nat.count (Allocates mentions) (source mentions position) + 1

def keeps (position : Nat) : Bool := definerAt? mentions position == some position

def plan : Plan := ⟨rank mentions, keeps mentions⟩

/-! ## First mentions and definers -/

variable {mentions}

theorem keyAt_eq_some_iff {position : Nat} {key : String} :
    keyAt mentions position = some key ↔
      ∃ mention, mentions[position]? = some mention ∧ mention.key = some key := by
  rw [keyAt, Option.bind_eq_some_iff]

theorem lt_length_of_keyAt {position : Nat} {key : String}
    (keyed : keyAt mentions position = some key) : position < mentions.length := by
  obtain ⟨mention, found, -⟩ := keyAt_eq_some_iff.mp keyed
  exact (List.getElem?_eq_some_iff.mp found).1

/-- A search by a property of mentions, said by positions. -/
theorem findIdx?_mentions {p : Mention → Bool} {position : Nat} :
    mentions.findIdx? p = some position ↔
      mentions[position]?.any p ∧ ∀ earlier < position, ¬ mentions[earlier]?.any p := by
  rw [List.findIdx?_eq_some_iff_getElem]
  constructor
  · rintro ⟨inside, holds, before⟩
    refine ⟨by simpa [inside] using holds, fun earlier less => ?_⟩
    have inside' : earlier < mentions.length := Nat.lt_trans less inside
    simpa [inside'] using before earlier less
  · rintro ⟨holds, before⟩
    have inside : position < mentions.length := by
      by_contra outside
      rw [List.getElem?_eq_none (Nat.le_of_not_lt outside)] at holds
      simp at holds
    refine ⟨inside, by simpa [inside] using holds, fun earlier less => ?_⟩
    have inside' : earlier < mentions.length := Nat.lt_trans less inside
    simpa [inside'] using before earlier less

theorem any_key_iff {position : Nat} {key : String} :
    mentions[position]?.any (·.key == some key) ↔ keyAt mentions position = some key := by
  rw [keyAt]
  cases mentions[position]? <;> simp

theorem any_key_content_iff {position : Nat} {key : String} :
    mentions[position]?.any (fun mention => mention.key == some key && ! mention.content.isEmpty) ↔
      keyAt mentions position = some key ∧ hasContent mentions position := by
  rw [keyAt, hasContent]
  cases mentions[position]? <;> simp

/-- The first mention of a key, and no mention before it has the key. -/
theorem first?_eq_some_iff {key : String} {position : Nat} :
    first? mentions key = some position ↔
      keyAt mentions position = some key ∧
        ∀ earlier < position, keyAt mentions earlier ≠ some key := by
  simp only [first?, findIdx?_mentions, any_key_iff, ne_eq]

/-- The first mention of a key with content, and none before it has both. -/
theorem definer?_eq_some_iff {key : String} {position : Nat} :
    definer? mentions key = some position ↔
      (keyAt mentions position = some key ∧ hasContent mentions position) ∧
        ∀ earlier < position,
          ¬ (keyAt mentions earlier = some key ∧ hasContent mentions earlier) := by
  simp only [definer?, findIdx?_mentions, any_key_content_iff]

theorem definer?_eq_none_iff {key : String} :
    definer? mentions key = none ↔
      ∀ position, ¬ (keyAt mentions position = some key ∧ hasContent mentions position) := by
  simp only [← any_key_content_iff, definer?, List.findIdx?_eq_none_iff]
  constructor
  · intro missing position met
    obtain ⟨mention, found, holds⟩ := (Option.any_eq_true _ _).mp met
    exact Bool.false_ne_true ((missing mention (List.mem_of_getElem? found)).symm.trans holds)
  · intro missing mention member
    obtain ⟨position, inside, rfl⟩ := List.getElem_of_mem member
    have unmet := missing position
    rwa [List.getElem?_eq_getElem inside, Option.any_some, Bool.not_eq_true] at unmet

theorem first?_isSome_of_keyAt {position : Nat} {key : String}
    (keyed : keyAt mentions position = some key) :
    ∃ first, first? mentions key = some first ∧ first ≤ position := by
  induction position using Nat.strongRecOn with
  | ind position ih =>
      by_cases earlier : ∃ other < position, keyAt mentions other = some key
      · obtain ⟨other, less, keyed⟩ := earlier
        obtain ⟨first, found, le⟩ := ih other less keyed
        exact ⟨first, found, Nat.le_trans le (Nat.le_of_lt less)⟩
      · refine ⟨position, first?_eq_some_iff.mpr ⟨keyed, fun other less same => ?_⟩, le_rfl⟩
        exact earlier ⟨other, less, same⟩

/-! ## Sources -/

theorem source_of_anonymous {position : Nat} (anonymous : keyAt mentions position = none) :
    source mentions position = position := by
  rw [source, anonymous]

theorem first?_of_keyAt {position : Nat} {key : String}
    (keyed : keyAt mentions position = some key) :
    first? mentions key = some (source mentions position) := by
  obtain ⟨first, found, -⟩ := first?_isSome_of_keyAt keyed
  simp only [source, keyed, found, Option.getD_some]

theorem source_le (position : Nat) : source mentions position ≤ position := by
  cases keyed : keyAt mentions position with
  | none => exact (source_of_anonymous keyed).le
  | some key =>
      obtain ⟨first, found, le⟩ := first?_isSome_of_keyAt keyed
      rwa [Option.some.inj ((first?_of_keyAt keyed).symm.trans found)]

@[simp] theorem keyAt_source (position : Nat) :
    keyAt mentions (source mentions position) = keyAt mentions position := by
  cases keyed : keyAt mentions position with
  | none => rw [source_of_anonymous keyed, keyed]
  | some key => exact (first?_eq_some_iff.mp (first?_of_keyAt keyed)).1

/-- Two mentions of one key have the same source. -/
theorem source_eq_of_keyAt {position other : Nat} {key : String}
    (keyed : keyAt mentions position = some key) (same : keyAt mentions other = some key) :
    source mentions position = source mentions other :=
  Option.some.inj ((first?_of_keyAt keyed).symm.trans (first?_of_keyAt same))

@[simp] theorem source_source (position : Nat) :
    source mentions (source mentions position) = source mentions position := by
  cases keyed : keyAt mentions position with
  | none => rw [source_of_anonymous keyed, source_of_anonymous keyed]
  | some key => exact source_eq_of_keyAt ((keyAt_source position).trans keyed) keyed

/-- The first mention of a key takes the number that all of them share. -/
theorem allocates_source (position : Nat) : Allocates mentions (source mentions position) :=
  source_source position

@[simp] theorem definerAt?_source (position : Nat) :
    definerAt? mentions (source mentions position) = definerAt? mentions position := by
  cases keyed : keyAt mentions position with
  | none => rw [source_of_anonymous keyed]
  | some key => simp only [definerAt?, keyAt_source, keyed]

theorem definerAt?_of_keyAt {position : Nat} {key : String}
    (keyed : keyAt mentions position = some key) :
    definerAt? mentions position = definer? mentions key := by
  rw [definerAt?, keyed]

theorem definerAt?_of_anonymous {position : Nat} (anonymous : keyAt mentions position = none) :
    definerAt? mentions position = some position := by
  rw [definerAt?, anonymous]

/-- A mention keeps its content if and only if it defines its own footnote. -/
theorem keeps_iff {position : Nat} :
    keeps mentions position ↔ definerAt? mentions position = some position := by
  rw [keeps, beq_iff_eq]

/-- The definer of an allocating mention is the mention that keeps content on its behalf. -/
theorem definerAt?_eq_some_iff {position definer : Nat} (allocates : Allocates mentions position) :
    definerAt? mentions position = some definer ↔
      source mentions definer = position ∧ keeps mentions definer := by
  rw [keeps_iff]
  constructor
  · intro defined
    have same : source mentions definer = source mentions position := by
      cases keyed : keyAt mentions position with
      | none =>
          rw [definerAt?_of_anonymous keyed] at defined
          rw [Option.some.inj defined]
      | some key =>
          rw [definerAt?_of_keyAt keyed] at defined
          exact source_eq_of_keyAt (definer?_eq_some_iff.mp defined).1.1 keyed
    refine ⟨same.trans allocates, ?_⟩
    rw [← definerAt?_source, same, definerAt?_source, defined]
  · rintro ⟨rfl, kept⟩
    rw [definerAt?_source, kept]

/-- No two mentions with one source keep content. -/
theorem eq_of_keeps {position other : Nat} (kept : keeps mentions position)
    (keptOther : keeps mentions other) (same : source mentions position = source mentions other) :
    position = other := by
  rw [keeps_iff, ← definerAt?_source] at kept keptOther
  rw [same, keptOther] at kept
  exact (Option.some.inj kept).symm

/-! ## Ranks -/

theorem rank_of_allocates {position : Nat} (allocates : Allocates mentions position) :
    rank mentions position = Nat.count (Allocates mentions) position + 1 := by
  rw [rank, allocates]

@[simp] theorem rank_source (position : Nat) :
    rank mentions (source mentions position) = rank mentions position := by
  rw [rank, rank, source_source]

/-- Two mentions share a number if and only if they share their source. -/
theorem rank_eq_rank_iff {position other : Nat} :
    rank mentions position = rank mentions other ↔
      source mentions position = source mentions other := by
  refine ⟨fun same => ?_, fun same => by rw [rank, rank, same]⟩
  exact Nat.count_injective (allocates_source _) (allocates_source _) (Nat.succ.inj same)

/-- No number is greater than the count of those that were taken. -/
theorem rank_le_allocations {position : Nat} (inside : position < mentions.length) :
    rank mentions position ≤ allocations mentions :=
  Nat.count_strict_mono (allocates_source _) ((source_le position).trans_lt inside)

/-- The ranks of the allocating mentions leave out no number. -/
theorem exists_rank {index : Nat} (inside : index < allocations mentions) :
    ∃ position < mentions.length,
      Allocates mentions position ∧ rank mentions position = index + 1 := by
  suffices found : ∀ bound, index < Nat.count (Allocates mentions) bound →
      ∃ position < bound, Allocates mentions position ∧
        Nat.count (Allocates mentions) position = index by
    obtain ⟨position, less, allocates, counted⟩ := found _ inside
    exact ⟨position, less, allocates, by rw [rank_of_allocates allocates, counted]⟩
  intro bound below
  induction bound with
  | zero => simp at below
  | succ bound ih =>
      by_cases earlier : index < Nat.count (Allocates mentions) bound
      · obtain ⟨position, less, found⟩ := ih earlier
        exact ⟨position, Nat.lt_succ_of_lt less, found⟩
      · rw [Nat.count_succ] at below
        split at below
        · rename_i allocates
          exact ⟨bound, Nat.lt_succ_self bound, allocates, by omega⟩
        · omega

end Rendition.Footnote
