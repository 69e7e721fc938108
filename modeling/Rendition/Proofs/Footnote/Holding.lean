/-
# Rendition.Proofs.Footnote.Holding -- which footnotes are shown more than once

The content of a footnote is given twice: at the node that defines it, if that
remains, and in the list of definitions.  A node with content inside it is then
shown in both places, and once more for every definition around these.

A mention *holds* another if the other remains in its content (`Plan.Holds`).
Contents are nested or apart (`contentStart_le`), so what holds is a chain: of two
mentions that hold a third, one holds the other (`Holds.nested`).  It follows that
no node with content is shown twice exactly if no definition that is shown
anywhere holds one (`countDefining_le_one_iff`).
-/
import Rendition.Proofs.Footnote.Defining

namespace Rendition.Footnote

set_option autoImplicit false

/-! ## Nested contents -/

section Nested

variable {document : Document}

/-- The mentions of a content stand directly before the mention that has the content. -/
theorem standsAt_content {outer : Nat} (inside : outer < document.mentions.length) :
    StandsAt document.mentions (Inline.mentionsAll document.mentions[outer].content)
        (contentStart document.mentions outer) ∧
      contentStart document.mentions outer +
        (Inline.mentionsAll document.mentions[outer].content).length = outer := by
  have listed : document.mentions = Inline.mentionsAll document.passages.flatten :=
    (Inline.mentionsAll_flatten document.passages).symm
  have found := List.getElem?_eq_getElem inside
  have whole : StandsAt document.mentions (Inline.mentionsAll document.passages.flatten) 0 :=
    listed ▸ StandsAt.self _
  have below : outer < 0 + (Inline.mentionsAll document.passages.flatten).length := by
    rw [Nat.zero_add, ← listed]
    exact inside
  obtain ⟨fits, stands⟩ := Plan.content_standsAll _ whole (Nat.zero_le outer) below found
  have start := contentStart_of_getElem? found
  rw [← start] at stands
  exact ⟨stands, by omega⟩

/-- The content of an inner mention begins no earlier than that of an outer one. -/
theorem contentStart_le {inner outer : Nat} (inside : Inside document.mentions inner outer)
    (below : outer < document.mentions.length) :
    contentStart document.mentions outer ≤ contentStart document.mentions inner := by
  obtain ⟨stands, whole⟩ := standsAt_content below
  exact Plan.le_contentStart stands inside.1 (by rw [whole]; exact inside.2)

/-- A mention with another inside has content. -/
theorem hasContent_of_inside {inner outer : Nat} (inside : Inside document.mentions inner outer)
    (below : outer < document.mentions.length) : hasContent document.mentions outer := by
  obtain ⟨-, whole⟩ := standsAt_content below
  rw [hasContent, List.getElem?_eq_getElem below, Option.any_some, Bool.not_eq_true',
    List.isEmpty_eq_false_iff]
  intro empty
  rw [empty, Inline.mentionsAll, List.length_nil, Nat.add_zero] at whole
  exact absurd inside.2 (Nat.not_lt_of_le (whole ▸ inside.1))

end Nested

namespace Plan

variable (plan : Plan) (mentions : List Mention)

/-- One mention remains in the content of another, as the plan leaves it. -/
def Holds (outer inner : Nat) : Prop :=
  Inside mentions inner outer ∧
    ∀ between < outer, Inside mentions inner between → plan.keeps between

instance (outer inner : Nat) : Decidable (plan.Holds mentions outer inner) :=
  inferInstanceAs (Decidable (_ ∧ ∀ between < outer, _))

def held (outer : Nat) : List Nat :=
  (List.range outer).filter fun inner => plan.Holds mentions outer inner

theorem mem_held_iff {outer inner : Nat} :
    inner ∈ plan.held mentions outer ↔ plan.Holds mentions outer inner := by
  rw [held, List.mem_filter, List.mem_range, decide_eq_true_iff]
  exact ⟨fun member => member.2, fun holds => ⟨holds.1.2, holds⟩⟩

variable {plan} {document : Document}

/-- The planned content of a mention mentions what the mention holds, as planned. -/
theorem mentionsAll_contentAt {outer : Nat} (inside : outer < document.mentions.length) :
    Inline.mentionsAll (plan.contentAt document.mentions outer) =
      (plan.held document.mentions outer).map (plan.mentionAt document.mentions) := by
  obtain ⟨stands, whole⟩ := standsAt_content inside
  have positions : plan.remainingInAll document.mentions[outer].content
      (contentStart document.mentions outer) = plan.held document.mentions outer := by
    refine List.Pairwise.eq_of_mem_iff (plan.pairwise_remainingInAll _ stands)
      (List.pairwise_lt_range.filter _) fun inner => ?_
    rw [mem_remainingInAll_iff plan _ stands, whole]
    exact (mem_held_iff plan document.mentions).symm
  have content := plan.mentionsAll_applyAll _ stands
  rw [positions] at content
  simp only [contentAt, List.getElem?_eq_getElem inside]
  exact content

namespace Holds

variable {inner middle outer : Nat}

/-- What is held by a mention that keeps its content is held by what holds the mention. -/
theorem trans (holds : plan.Holds document.mentions outer middle) (kept : plan.keeps middle)
    (within : plan.Holds document.mentions middle inner)
    (below : outer < document.mentions.length) : plan.Holds document.mentions outer inner := by
  obtain ⟨⟨start, less⟩, keep⟩ := holds
  obtain ⟨⟨startInner, lessInner⟩, keepInner⟩ := within
  have nested := contentStart_le ⟨start, less⟩ below
  refine ⟨⟨nested.trans startInner, lessInner.trans less⟩, fun between bound inside => ?_⟩
  obtain earlier | rfl | later := Nat.lt_trichotomy between middle
  · exact keepInner between earlier inside
  · exact kept
  · exact keep between bound ⟨inside.1.trans lessInner.le, later⟩

/-- What is held by a mention that remains and keeps its content remains. -/
theorem remains (holds : plan.Holds document.mentions outer inner) (kept : plan.keeps outer)
    (remains : plan.Remains document.mentions outer) :
    plan.Remains document.mentions inner := by
  intro around bound inside
  obtain earlier | rfl | later := Nat.lt_trichotomy around outer
  · exact holds.2 around earlier inside
  · exact kept
  · exact remains around bound ⟨inside.1.trans holds.1.2.le, later⟩

/-- What holds a mention that remains remains. -/
theorem remains_outer (holds : plan.Holds document.mentions outer inner)
    (remains : plan.Remains document.mentions inner) :
    plan.Remains document.mentions outer := by
  intro around bound inside
  have nested := contentStart_le inside bound
  exact remains around bound ⟨nested.trans holds.1.1, holds.1.2.trans inside.2⟩

/-- Of two mentions that hold a third, the later one holds the earlier one. -/
theorem nested (holds : plan.Holds document.mentions middle inner)
    (holdsOuter : plan.Holds document.mentions outer inner) (less : middle < outer)
    (below : outer < document.mentions.length) : plan.Holds document.mentions outer middle := by
  obtain ⟨⟨start, lessInner⟩, -⟩ := holds
  refine ⟨⟨holdsOuter.1.1.trans lessInner.le, less⟩, fun between bound inside => ?_⟩
  have nested := contentStart_le inside (bound.trans below)
  exact holdsOuter.2 between bound ⟨nested.trans start, lessInner.trans inside.2⟩

end Holds

end Plan

/-! ## Places -/

section Places

variable (document : Document)

/-- A mention that shows content wherever it is shown. -/
def Shows (position : Nat) : Prop :=
  position < document.mentions.length ∧ keeps document.mentions position ∧
    hasContent document.mentions position

/-- A mention that keeps its content and holds another. -/
def Frames (outer inner : Nat) : Prop :=
  outer < document.mentions.length ∧ keeps document.mentions outer ∧
    (plan document.mentions).Holds document.mentions outer inner

variable {document}

/-- A mention shows content exactly if its node has some. -/
theorem shows_iff {inner : Nat} (inside : inner < document.mentions.length) :
    Shows document inner ↔
      ((plan document.mentions).mentionAt document.mentions inner).content ≠ [] := by
  have number : ((plan document.mentions).mentionAt document.mentions inner).defines
      (UInt32.ofNat (rank document.mentions inner)) ↔
        keeps document.mentions inner ∧ hasContent document.mentions inner := by
    rw [defines_mentionAt_iff inside, and_iff_right rfl]
  rw [Shows, and_iff_right inside, ← number]
  simp [Mention.defines, Plan.mentionAt, plan]

/-- A mention that frames another shows content. -/
theorem Frames.shows {outer inner : Nat} (frames : Frames document outer inner) :
    Shows document outer :=
  ⟨frames.1, frames.2.1, hasContent_of_inside frames.2.2.1 frames.1⟩

/-- **No mention with content has two places exactly if none stands in a content that has one.**
A place is the document, if the mention remains, and each mention that frames it. -/
theorem single_place_iff :
    (∀ inner, Shows document inner →
      ((plan document.mentions).Remains document.mentions inner →
        ∀ outer, ¬ Frames document outer inner) ∧
      ∀ first second, Frames document first inner → Frames document second inner →
        ¬ first < second) ↔
      ∀ outer, ((plan document.mentions).Remains document.mentions outer ∨
          ∃ further, Frames document further outer) →
        ∀ inner, Frames document outer inner → ¬ Shows document inner := by
  constructor
  · rintro single outer place inner ⟨below, kept, holds⟩ shows
    obtain ⟨apart, once⟩ := single inner shows
    rcases place with remains | ⟨further, belowFurther, keptFurther, holdsOuter⟩
    · exact apart (holds.remains kept remains) outer ⟨below, kept, holds⟩
    · have held := holdsOuter.trans kept holds belowFurther
      exact once outer further ⟨below, kept, holds⟩ ⟨belowFurther, keptFurther, held⟩ holdsOuter.1.2
  · intro bare inner shows
    constructor
    · intro remains outer frames
      exact bare outer (.inl (frames.2.2.remains_outer remains)) inner frames shows
    · intro first second frames framesOuter less
      have holds := frames.2.2.nested framesOuter.2.2 less framesOuter.1
      exact bare first (.inr ⟨second, framesOuter.1, framesOuter.2.1, holds⟩) inner frames shows

end Places

/-! ## Counts -/

def Definition.mentions (definition : Definition) : List Mention :=
  Inline.mentionsAll definition.content

/-- The nodes of a numbered document, and those of its definitions. -/
def Resolved.mentions (resolved : Resolved) : List Mention :=
  resolved.document.mentions ++ resolved.definitions.flatMap Definition.mentions

def Definition.countDefining (id : UInt32) (definition : Definition) : Nat :=
  definition.mentions.countP (Mention.defines id)

/-- How many nodes of a numbered document and its definitions show content under an id. -/
def Resolved.countDefining (id : UInt32) (resolved : Resolved) : Nat :=
  resolved.mentions.countP (Mention.defines id)

/-- Of parts that count at most once each, the whole does so if no two of them count. -/
theorem countP_flatten_le_one_iff {α : Type} {counts : α → Bool} {parts : List (List α)}
    (small : ∀ part ∈ parts, part.countP counts ≤ 1) :
    parts.flatten.countP counts ≤ 1 ↔
      parts.Pairwise fun first second => first.countP counts = 0 ∨ second.countP counts = 0 := by
  induction parts with
  | nil => simp
  | cons part rest ih =>
      obtain ⟨first, others⟩ := List.forall_mem_cons.mp small
      rw [List.flatten_cons, List.countP_append, List.pairwise_cons, ← ih others]
      have nothing : rest.flatten.countP counts = 0 ↔
          ∀ other ∈ rest, other.countP counts = 0 := by
        simp only [List.countP_eq_zero, List.mem_flatten]
        exact ⟨fun uncounted other member item within => uncounted item ⟨other, member, within⟩,
          fun uncounted item ⟨other, member, within⟩ => uncounted other member item within⟩
      obtain zero | one : part.countP counts = 0 ∨ part.countP counts = 1 := by omega
      · simp [zero]
      · simp only [one, Nat.one_ne_zero, false_or, ← nothing]
        omega

/-- Of two items at most one counts, so items that count stand at one index. -/
theorem index_eq_of_pairwise {α : Type} {weight : α → Nat} {items : List α}
    (apart : items.Pairwise fun first second => weight first = 0 ∨ weight second = 0)
    {index other : Nat} {first second : α} (stored : items[index]? = some first)
    (storedOther : items[other]? = some second) (positive : 0 < weight first)
    (positiveOther : 0 < weight second) : index = other := by
  obtain ⟨inside, rfl⟩ := List.getElem?_eq_some_iff.mp stored
  obtain ⟨insideOther, rfl⟩ := List.getElem?_eq_some_iff.mp storedOther
  rw [List.pairwise_iff_getElem] at apart
  obtain less | same | greater := Nat.lt_trichotomy index other
  · have := apart _ _ inside insideOther less
    omega
  · exact same
  · have := apart _ _ insideOther inside greater
    omega

section Counts

variable {document : Document} {id : UInt32}

/-- Two mentions that show content under one id are the same. -/
theorem Shows.eq (few : allocations document.mentions < 2 ^ 32 - 1) {inner other : Nat}
    (shows : Shows document inner) (showsOther : Shows document other)
    (same : UInt32.ofNat (rank document.mentions inner) =
      UInt32.ofNat (rank document.mentions other)) : inner = other := by
  have ranks := rank_eq_of_ofNat_eq few shows.1 showsOther.1 same
  exact eq_of_keeps shows.2.1 showsOther.2.1 (rank_eq_rank_iff.mp ranks)

theorem countP_document :
    (resolveDocument document).document.mentions.countP (Mention.defines id) =
      (showing document.mentions id).length := by
  rw [List.countP_eq_length_filter, filter_defines, List.length_map]

/-- The document has a node that defines an id if and only if a mention that shows it remains. -/
theorem countP_document_pos_iff :
    0 < (resolveDocument document).document.mentions.countP (Mention.defines id) ↔
      ∃ inner, Shows document inner ∧ UInt32.ofNat (rank document.mentions inner) = id ∧
        (plan document.mentions).Remains document.mentions inner := by
  rw [countP_document, List.length_pos_iff_exists_mem]
  refine exists_congr fun inner => ?_
  rw [mem_showing_iff]
  constructor
  · rintro ⟨below, remains, same, kept, content⟩
    exact ⟨⟨below, kept, content⟩, same, remains⟩
  · rintro ⟨⟨below, kept, content⟩, same, remains⟩
    exact ⟨below, remains, same, kept, content⟩

/-- The mentions that a mention holds and that show content under an id. -/
theorem mem_held_filter_iff {outer inner : Nat} (below : outer < document.mentions.length) :
    inner ∈ ((plan document.mentions).held document.mentions outer).filter
        (fun inner => ((plan document.mentions).mentionAt document.mentions inner).defines id) ↔
      (plan document.mentions).Holds document.mentions outer inner ∧ Shows document inner ∧
        UInt32.ofNat (rank document.mentions inner) = id := by
  rw [List.mem_filter, Plan.mem_held_iff]
  refine and_congr_right fun holds => ?_
  have inside := holds.1.2.trans below
  rw [defines_mentionAt_iff inside]
  exact ⟨fun defines => ⟨⟨inside, defines.2⟩, defines.1⟩, fun shows => ⟨shows.2, shows.1.2⟩⟩

/-- The nodes in a planned content that define an id, counted by the mentions it holds. -/
theorem countP_plannedContent {outer : Nat} (below : outer < document.mentions.length) :
    (Inline.mentionsAll (plannedContent document.mentions outer)).countP (Mention.defines id) =
      (((plan document.mentions).held document.mentions outer).filter fun inner =>
        ((plan document.mentions).mentionAt document.mentions inner).defines id).length := by
  rw [plannedContent, Plan.mentionsAll_contentAt below, List.countP_map,
    List.countP_eq_length_filter]
  rfl

theorem countP_plannedContent_pos_iff {outer : Nat} (below : outer < document.mentions.length) :
    0 < (Inline.mentionsAll (plannedContent document.mentions outer)).countP
        (Mention.defines id) ↔
      ∃ inner, (plan document.mentions).Holds document.mentions outer inner ∧
        Shows document inner ∧ UInt32.ofNat (rank document.mentions inner) = id := by
  rw [countP_plannedContent below, List.length_pos_iff_exists_mem]
  exact exists_congr fun inner => mem_held_filter_iff below

/-- One content defines an id once at most. -/
theorem countP_plannedContent_le (few : allocations document.mentions < 2 ^ 32 - 1) {outer : Nat}
    (below : outer < document.mentions.length) :
    (Inline.mentionsAll (plannedContent document.mentions outer)).countP (Mention.defines id) ≤
      1 := by
  rw [countP_plannedContent below]
  refine length_le_one_of_pairwise ((List.pairwise_lt_range.filter _).filter _) ?_
  intro inner member other memberOther
  obtain ⟨-, shows, same⟩ := (mem_held_filter_iff below).mp member
  obtain ⟨-, showsOther, sameOther⟩ := (mem_held_filter_iff below).mp memberOther
  exact shows.eq few showsOther (same.trans sameOther.symm)

/-! ### Definitions -/

/-- A mention that keeps its content defines its number. -/
theorem getElem?_definitions_of_keeps {outer : Nat} (below : outer < document.mentions.length)
    (kept : keeps document.mentions outer) :
    (resolveDocument document).definitions[rank document.mentions outer - 1]? =
      some ⟨UInt32.ofNat (rank document.mentions outer),
        plannedContent document.mentions outer⟩ := by
  rw [getElem?_definitions document below, definedContent, keeps_iff.mp kept, Option.elim_some]

/-- A definition with content is that of a mention that keeps its content. -/
theorem exists_keeps_of_getElem? {index : Nat} {definition : Definition}
    (stored : (resolveDocument document).definitions[index]? = some definition) :
    definition.content = [] ∨
      ∃ outer < document.mentions.length, keeps document.mentions outer ∧
        rank document.mentions outer = index + 1 ∧
        definition = ⟨UInt32.ofNat (rank document.mentions outer),
          plannedContent document.mentions outer⟩ := by
  have inside := (List.getElem?_eq_some_iff.mp stored).1
  rw [length_definitions] at inside
  obtain ⟨position, below, allocates, ranked⟩ := exists_rank inside
  have known := getElem?_definitions document below
  rw [ranked, Nat.add_sub_cancel, stored, Option.some.injEq] at known
  cases defined : definerAt? document.mentions position with
  | none =>
      left
      rw [known, definedContent, defined, Option.elim_none]
  | some outer =>
      right
      have inner := definer_lt_length below defined
      obtain ⟨same, kept⟩ := (definerAt?_eq_some_iff allocates).mp defined
      have ranks : rank document.mentions outer = index + 1 := by
        rw [← rank_source, same, ranked]
      refine ⟨outer, inner, kept, ranks, ?_⟩
      rw [known, ranks, definedContent, defined, Option.elim_some]

/-- A number is shown at most once in one definition. -/
theorem countDefining_le (few : allocations document.mentions < 2 ^ 32 - 1) {index : Nat}
    {definition : Definition}
    (stored : (resolveDocument document).definitions[index]? = some definition) :
    definition.countDefining id ≤ 1 := by
  unfold Definition.countDefining Definition.mentions
  obtain none | ⟨outer, below, -, -, rfl⟩ := exists_keeps_of_getElem? stored
  · rw [none]
    exact Nat.zero_le 1
  · exact countP_plannedContent_le few below

/-- A definition defines an id if and only if the mention it stores frames one that shows it. -/
theorem countDefining_pos_iff {index : Nat} {definition : Definition}
    (stored : (resolveDocument document).definitions[index]? = some definition) :
    0 < definition.countDefining id ↔
      ∃ outer inner, Frames document outer inner ∧ rank document.mentions outer = index + 1 ∧
        Shows document inner ∧ UInt32.ofNat (rank document.mentions inner) = id := by
  unfold Definition.countDefining Definition.mentions
  constructor
  · intro positive
    obtain none | ⟨outer, below, kept, ranked, rfl⟩ := exists_keeps_of_getElem? stored
    · rw [none] at positive
      exact absurd positive (Nat.lt_irrefl 0)
    · obtain ⟨inner, holds, shows, same⟩ := (countP_plannedContent_pos_iff below).mp positive
      exact ⟨outer, inner, ⟨below, kept, holds⟩, ranked, shows, same⟩
  · rintro ⟨outer, inner, ⟨below, kept, holds⟩, ranked, shows, same⟩
    have known := getElem?_definitions_of_keeps below kept
    rw [ranked, Nat.add_sub_cancel, stored, Option.some.injEq] at known
    rw [known]
    exact (countP_plannedContent_pos_iff below).mpr ⟨inner, holds, shows, same⟩

/-- A number is shown where its definition stands. -/
theorem Frames.exists_definition {outer inner : Nat} (frames : Frames document outer inner) :
    ∃ definition,
      (resolveDocument document).definitions[rank document.mentions outer - 1]? = some definition ∧
        definition.id = UInt32.ofNat (rank document.mentions outer) ∧
        (Shows document inner →
          0 < definition.countDefining (UInt32.ofNat (rank document.mentions inner))) := by
  have stored := getElem?_definitions_of_keeps frames.1 frames.2.1
  refine ⟨_, stored, rfl, fun shows => ?_⟩
  exact (countDefining_pos_iff stored).mpr ⟨outer, inner, frames, rfl, shows, rfl⟩

/-- The document and a definition show no id both exactly if no mention with content remains that
is framed. -/
theorem apart_iff_unframed (few : allocations document.mentions < 2 ^ 32 - 1) :
    (∀ definition ∈ (resolveDocument document).definitions,
        (resolveDocument document).document.mentions.countP (Mention.defines id) = 0 ∨
          definition.countDefining id = 0) ↔
      ∀ inner, Shows document inner → UInt32.ofNat (rank document.mentions inner) = id →
        (plan document.mentions).Remains document.mentions inner →
          ∀ outer, ¬ Frames document outer inner := by
  constructor
  · rintro apart inner shows rfl remains outer frames
    obtain ⟨definition, stored, -, positive⟩ := frames.exists_definition
    have standing := countP_document_pos_iff.mpr ⟨inner, shows, rfl, remains⟩
    obtain unseen | unlisted := apart definition (List.mem_of_getElem? stored)
    · exact absurd unseen (Nat.ne_of_gt standing)
    · exact absurd unlisted (Nat.ne_of_gt (positive shows))
  · intro unframed definition member
    by_contra both
    rw [not_or] at both
    obtain ⟨index, stored⟩ := List.getElem?_of_mem member
    obtain ⟨inner, shows, same, remains⟩ :=
      countP_document_pos_iff.mp (Nat.pos_of_ne_zero both.1)
    obtain ⟨outer, other, frames, -, showsOther, sameOther⟩ :=
      (countDefining_pos_iff stored).mp (Nat.pos_of_ne_zero both.2)
    obtain rfl := shows.eq few showsOther (same.trans sameOther.symm)
    exact unframed inner shows same remains outer frames

/-- No two definitions show an id exactly if no mention with content is framed twice. -/
theorem pairwise_iff_framed_once (few : allocations document.mentions < 2 ^ 32 - 1) :
    ((resolveDocument document).definitions.Pairwise fun first second =>
        first.countDefining id = 0 ∨ second.countDefining id = 0) ↔
      ∀ inner, Shows document inner → UInt32.ofNat (rank document.mentions inner) = id →
        ∀ first second, Frames document first inner → Frames document second inner →
          ¬ first < second := by
  constructor
  · rintro apart inner shows rfl first second frames framesOuter less
    obtain ⟨_, stored, -, positive⟩ := frames.exists_definition
    obtain ⟨_, storedOuter, -, positiveOuter⟩ := framesOuter.exists_definition
    have same := index_eq_of_pairwise apart stored storedOuter (positive shows)
      (positiveOuter shows)
    have ranks : rank document.mentions first = rank document.mentions second := by
      have start : 0 < rank document.mentions first := Nat.succ_pos _
      have startOuter : 0 < rank document.mentions second := Nat.succ_pos _
      omega
    have equal := frames.shows.eq few framesOuter.shows (congrArg UInt32.ofNat ranks)
    exact absurd equal (Nat.ne_of_lt less)
  · intro once
    rw [List.pairwise_iff_getElem]
    intro index later inside insideLater less
    by_contra both
    rw [not_or] at both
    obtain ⟨first, inner, frames, ranked, shows, same⟩ :=
      (countDefining_pos_iff (List.getElem?_eq_getElem inside)).mp (Nat.pos_of_ne_zero both.1)
    obtain ⟨second, other, framesLater, rankedLater, showsLater, sameLater⟩ :=
      (countDefining_pos_iff (List.getElem?_eq_getElem insideLater)).mp
        (Nat.pos_of_ne_zero both.2)
    obtain rfl := shows.eq few showsLater (same.trans sameLater.symm)
    obtain before | rfl | after := Nat.lt_trichotomy first second
    · exact once inner shows same first second frames framesLater before
    · omega
    · exact once inner shows same second first framesLater frames after

/-- An id is shown at most once exactly if its mentions with content have one place. -/
theorem countDefining_le_one_iff_places (few : allocations document.mentions < 2 ^ 32 - 1) :
    (resolveDocument document).countDefining id ≤ 1 ↔
      ∀ inner, Shows document inner → UInt32.ofNat (rank document.mentions inner) = id →
        ((plan document.mentions).Remains document.mentions inner →
          ∀ outer, ¬ Frames document outer inner) ∧
        ∀ first second, Frames document first inner → Frames document second inner →
          ¬ first < second := by
  have small : ∀ part ∈ (resolveDocument document).document.mentions ::
      (resolveDocument document).definitions.map Definition.mentions,
        part.countP (Mention.defines id) ≤ 1 := by
    refine List.forall_mem_cons.mpr ⟨?_, ?_⟩
    · rw [countP_document]
      exact length_showing_le few id
    · rw [List.forall_mem_map]
      intro definition member
      obtain ⟨index, stored⟩ := List.getElem?_of_mem member
      exact countDefining_le few stored
  rw [Resolved.countDefining, Resolved.mentions, List.flatMap_def, ← List.flatten_cons,
    countP_flatten_le_one_iff small, List.pairwise_cons, List.forall_mem_map, List.pairwise_map]
  simp only [imp_and, forall_and]
  exact and_congr (apart_iff_unframed few) (pairwise_iff_framed_once few)

/-- An id is shown if a mention of it with content has a place. -/
theorem countDefining_pos_iff_places :
    0 < (resolveDocument document).countDefining id ↔
      ∃ inner, Shows document inner ∧ UInt32.ofNat (rank document.mentions inner) = id ∧
        ((plan document.mentions).Remains document.mentions inner ∨
          ∃ outer, Frames document outer inner) := by
  have listed : 0 < ((resolveDocument document).definitions.flatMap Definition.mentions).countP
        (Mention.defines id) ↔
      ∃ inner, Shows document inner ∧ UInt32.ofNat (rank document.mentions inner) = id ∧
        ∃ outer, Frames document outer inner := by
    rw [List.countP_pos_iff]
    constructor
    · rintro ⟨node, member, defines⟩
      obtain ⟨definition, listed, within⟩ := List.mem_flatMap.mp member
      obtain ⟨index, stored⟩ := List.getElem?_of_mem listed
      obtain ⟨outer, inner, frames, -, shows, same⟩ :=
        (countDefining_pos_iff stored).mp (List.countP_pos_iff.mpr ⟨node, within, defines⟩)
      exact ⟨inner, shows, same, outer, frames⟩
    · rintro ⟨inner, shows, rfl, outer, frames⟩
      obtain ⟨definition, stored, -, positive⟩ := frames.exists_definition
      obtain ⟨node, within, defines⟩ := List.countP_pos_iff.mp (positive shows)
      exact ⟨node, List.mem_flatMap.mpr ⟨definition, List.mem_of_getElem? stored, within⟩, defines⟩
  rw [Resolved.countDefining, Resolved.mentions, List.countP_append, Nat.add_pos_iff_pos_or_pos,
    countP_document_pos_iff, listed]
  constructor
  · rintro (⟨inner, shows, same, place⟩ | ⟨inner, shows, same, place⟩)
    · exact ⟨inner, shows, same, .inl place⟩
    · exact ⟨inner, shows, same, .inr place⟩
  · rintro ⟨inner, shows, same, place | place⟩
    · exact .inl ⟨inner, shows, same, place⟩
    · exact .inr ⟨inner, shows, same, place⟩

/-- **No number is shown twice exactly if no definition that is shown holds one with content.** -/
theorem countDefining_le_one_iff (few : allocations document.mentions < 2 ^ 32 - 1) :
    (∀ id, (resolveDocument document).countDefining id ≤ 1) ↔
      ∀ definition ∈ (resolveDocument document).definitions,
        0 < (resolveDocument document).countDefining definition.id →
          ∀ node ∈ definition.mentions, node.content = [] := by
  constructor
  · intro once definition member shown node within
    -- a node of a definition is a mention that the one with the definition holds
    by_contra content
    have bare := single_place_iff.mp fun inner shows =>
      (countDefining_le_one_iff_places few).mp (once _) inner shows rfl
    obtain ⟨index, stored⟩ := List.getElem?_of_mem member
    obtain none | ⟨outer, below, kept, -, rfl⟩ := exists_keeps_of_getElem? stored
    · rw [Definition.mentions, none] at within
      exact absurd within List.not_mem_nil
    · rw [Definition.mentions, plannedContent, Plan.mentionsAll_contentAt below,
        List.mem_map] at within
      obtain ⟨inner, member, rfl⟩ := within
      have holds := (Plan.mem_held_iff _ _).mp member
      have frames : Frames document outer inner := ⟨below, kept, holds⟩
      have shows : Shows document inner := (shows_iff (holds.1.2.trans below)).mpr content
      obtain ⟨other, showsOther, same, place⟩ := countDefining_pos_iff_places.mp shown
      obtain rfl := showsOther.eq few frames.shows same
      exact bare other place inner frames shows
  · intro bare id
    refine (countDefining_le_one_iff_places few).mpr fun inner shows _ => ?_
    refine single_place_iff.mpr (fun outer place inner frames shows => ?_) inner shows
    have shown := countDefining_pos_iff_places.mpr ⟨outer, frames.shows, rfl, place⟩
    have stored := getElem?_definitions_of_keeps frames.1 frames.2.1
    have within : (plan document.mentions).mentionAt document.mentions inner ∈
        Inline.mentionsAll (plannedContent document.mentions outer) := by
      rw [plannedContent, Plan.mentionsAll_contentAt frames.1]
      exact List.mem_map_of_mem ((Plan.mem_held_iff _ _).mpr frames.2.2)
    exact (shows_iff shows.1).mp shows (bare _ (List.mem_of_getElem? stored) shown _ within)

end Counts

end Rendition.Footnote
