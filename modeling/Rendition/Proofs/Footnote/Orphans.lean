/-
# Rendition.Proofs.Footnote.Orphans -- when every footnote is still to be found

Numbers are given before contents are dropped, so a mention may be numbered, and
even define a footnote, inside content that its container then loses.  Its
definition is listed and no node of the document carries its number.

`no_orphans_iff` says exactly when this does not happen: every mention that
keeps its content remains, and so does some mention of every key that is never
defined.  `Example.lost` and `Example.hidden` are smallest documents where it
does.
-/
import Rendition.Proofs.Footnote.Defining

namespace Rendition.Footnote

set_option autoImplicit false

/-- Every number of a definition is carried by a node. -/
def EveryNumberCarried (document : Document) : Prop :=
  ∀ definition ∈ (resolveDocument document).definitions,
    ∃ node ∈ (resolveDocument document).document.mentions, node.id = some definition.id

/-- Every key that is written with content somewhere shows content at exactly one node. -/
def EveryKeyShown (document : Document) : Prop :=
  ∀ position key, keyAt document.mentions position = some key →
    hasContent document.mentions position →
      ((resolveDocument document).document.mentions.filter
        (Mention.defines (UInt32.ofNat (rank document.mentions position)))).length = 1

variable {document : Document}

/-- A number is carried if a mention with the same source remains. -/
theorem everyNumberCarried_iff (few : allocations document.mentions < 2 ^ 32 - 1) :
    EveryNumberCarried document ↔
      ∀ position < document.mentions.length, ∃ other < document.mentions.length,
        (plan document.mentions).Remains document.mentions other ∧
          source document.mentions other = source document.mentions position := by
  constructor
  · intro carried position inside
    have stored := List.mem_of_getElem? (getElem?_definitions document inside)
    obtain ⟨node, member, same⟩ := carried _ stored
    rw [mentions_resolveDocument, List.mem_map] at member
    obtain ⟨other, remains, rfl⟩ := member
    obtain ⟨insideOther, remains⟩ := (Plan.mem_remaining_iff _ _).mp remains
    have ranks := rank_eq_of_ofNat_eq few insideOther inside (Option.some.inj same)
    exact ⟨other, insideOther, remains, rank_eq_rank_iff.mp ranks⟩
  · intro remain definition member
    obtain ⟨position, inside, -, rfl⟩ := exists_of_mem_definitions document member
    obtain ⟨other, insideOther, remains, same⟩ := remain position inside
    refine ⟨(plan document.mentions).mentionAt document.mentions other, ?_, ?_⟩
    · rw [mentions_resolveDocument]
      exact List.mem_map_of_mem ((Plan.mem_remaining_iff _ _).mpr ⟨insideOther, remains⟩)
    · simp only [Plan.mentionAt, plan, rank_eq_rank_iff.mpr same]

/-- A key is shown if its definer remains. -/
theorem everyKeyShown_iff (few : allocations document.mentions < 2 ^ 32 - 1) :
    EveryKeyShown document ↔
      ∀ key definer, definer? document.mentions key = some definer →
        (plan document.mentions).Remains document.mentions definer := by
  constructor
  · intro shown key definer defined
    obtain ⟨⟨keyed, content⟩, -⟩ := definer?_eq_some_iff.mp defined
    have once := shown definer key keyed content
    rw [filter_defines, List.length_map] at once
    obtain ⟨other, member⟩ := List.exists_mem_of_length_pos (once ▸ Nat.zero_lt_one)
    obtain ⟨inside, remains, ranked, kept, -⟩ := mem_showing_iff.mp member
    have ranks := rank_eq_of_ofNat_eq few inside (lt_length_of_keyAt keyed) ranked
    have own : keeps document.mentions definer := by
      rw [keeps_iff, definerAt?_of_keyAt keyed, defined]
    rwa [← eq_of_keeps kept own (rank_eq_rank_iff.mp ranks)]
  · intro remain position key keyed content
    obtain ⟨definer, defined⟩ : ∃ definer, definer? document.mentions key = some definer := by
      cases missing : definer? document.mentions key with
      | none => exact absurd ⟨keyed, content⟩ (definer?_eq_none_iff.mp missing position)
      | some definer => exact ⟨definer, rfl⟩
    obtain ⟨⟨same, filled⟩, -⟩ := definer?_eq_some_iff.mp defined
    have ranks : rank document.mentions definer = rank document.mentions position :=
      rank_eq_rank_iff.mpr (source_eq_of_keyAt same keyed)
    have kept : keeps document.mentions definer := by
      rw [keeps_iff, definerAt?_of_keyAt same, defined]
    have member : definer ∈
        showing document.mentions (UInt32.ofNat (rank document.mentions position)) :=
      mem_showing_iff.mpr
        ⟨lt_length_of_keyAt same, remain key definer defined, by rw [ranks], kept, filled⟩
    rw [filter_defines, List.length_map]
    exact Nat.le_antisymm (length_showing_le few _) (List.length_pos_of_mem member)

/-- **No footnote is orphaned exactly if dropped contents hold nothing of their own**: every mention
that keeps its content remains, and of the mentions of a key that none defines one remains. -/
theorem no_orphans_iff (document : Document) (few : allocations document.mentions < 2 ^ 32 - 1) :
    EveryNumberCarried document ∧ EveryKeyShown document ↔
      (∀ position < document.mentions.length, keeps document.mentions position →
        (plan document.mentions).Remains document.mentions position) ∧
        ∀ position < document.mentions.length, definerAt? document.mentions position = none →
          ∃ other < document.mentions.length,
            (plan document.mentions).Remains document.mentions other ∧
              source document.mentions other = source document.mentions position := by
  rw [everyNumberCarried_iff few, everyKeyShown_iff few]
  constructor
  · rintro ⟨carried, shown⟩
    refine ⟨fun position inside kept => ?_, fun position inside _ => carried position inside⟩
    cases keyed : keyAt document.mentions position with
    | none =>
        -- only the mention itself has its number
        obtain ⟨other, -, remains, same⟩ := carried position inside
        have anonymous : keyAt document.mentions other = none := by
          rw [← keyAt_source, same, keyAt_source, keyed]
        rw [source_of_anonymous anonymous, source_of_anonymous keyed] at same
        exact same ▸ remains
    | some key =>
        rw [keeps_iff, definerAt?_of_keyAt keyed] at kept
        exact shown key position kept
  · rintro ⟨kept, undefined⟩
    refine ⟨fun position inside => ?_, fun key definer defined => ?_⟩
    · cases defined : definerAt? document.mentions position with
      | some definer =>
          rw [← definerAt?_source] at defined
          obtain ⟨same, keep⟩ := (definerAt?_eq_some_iff (allocates_source position)).mp defined
          rw [definerAt?_source] at defined
          have insideDefiner := definer_lt_length inside defined
          exact ⟨definer, insideDefiner, kept definer insideDefiner keep, same⟩
      | none => exact undefined position inside defined
    · have keyed := (definer?_eq_some_iff.mp defined).1.1
      refine kept definer (lt_length_of_keyAt keyed) ?_
      rw [keeps_iff, definerAt?_of_keyAt keyed, defined]

namespace Example

/-- A title that refers ahead, and a definer with a footnote inside. -/
def kept : Document where
  attributes := .empty
  header := some ⟨[note (some "a") []], .unknown⟩
  blocks := [.paragraph .empty [note (some "a") [.ofText "x", note none [.ofText "y"]]]]

/-- Footnotes inside a content that stays are not orphaned. -/
theorem kept_no_orphans :
    allocations kept.mentions < 2 ^ 32 - 1 ∧ EveryNumberCarried kept ∧ EveryKeyShown kept := by
  have few : allocations kept.mentions < 2 ^ 32 - 1 := by decide
  exact ⟨few, (no_orphans_iff kept few).mpr (by decide)⟩

/-- A key is mentioned again, with content that holds a footnote of its own. -/
def lost : Document where
  attributes := .empty
  header := none
  blocks :=
    [.paragraph .empty
      [note (some "a") [.ofText "x"], note (some "a") [note none [.ofText "y"]]]]

/-- A footnote whose content mentions its own key, with content. -/
def hidden : Document where
  attributes := .empty
  header := none
  blocks := [.paragraph .empty [note (some "a") [.ofText "x", note (some "a") [.ofText "y"]]]]

/-- No node carries the second number of `lost`, and none shows the content of `a` in `hidden`. -/
theorem lost_and_hidden : ¬ EveryNumberCarried lost ∧ ¬ EveryKeyShown hidden := by
  constructor
  · rw [everyNumberCarried_iff (by decide)]
    decide
  · intro shown
    have once := shown 0 "a" (by decide) (by decide)
    revert once
    decide

end Example

end Rendition.Footnote
