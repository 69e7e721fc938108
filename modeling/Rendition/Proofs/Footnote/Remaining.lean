/-
# Rendition.Proofs.Footnote.Remaining -- the mentions that remain when a plan is carried out

A mention that drops its content drops the mentions inside it.  The mention at
a position *remains* if every mention around it keeps its content.  Carried out,
a plan leaves the remaining mentions in their order, each with its planned
number and content (`mentions_document`).

Which mentions are inside which is read off the positions: the mentions inside
the one at `outer` are those from `contentStart` up to it (`Inside`).
-/
import Mathlib.Data.List.Sort
import Rendition.Proofs.Footnote.Mention

namespace Rendition.Footnote

set_option autoImplicit false

/-- One mention stands in the content of another, at any depth. -/
def Inside (mentions : List Mention) (inner outer : Nat) : Prop :=
  contentStart mentions outer ≤ inner ∧ inner < outer

instance (mentions : List Mention) (inner outer : Nat) : Decidable (Inside mentions inner outer) :=
  inferInstanceAs (Decidable (_ ∧ _))

namespace Plan

variable (plan : Plan) (mentions : List Mention)

/-- Every mention around the one at a position keeps its content. -/
def Remains (position : Nat) : Prop :=
  ∀ outer < mentions.length, Inside mentions position outer → plan.keeps outer

instance (position : Nat) : Decidable (plan.Remains mentions position) :=
  inferInstanceAs (Decidable (∀ outer < _, _))

/-- The positions of the mentions that remain, in order. -/
def remaining : List Nat :=
  (List.range mentions.length).filter fun position => plan.Remains mentions position

/-- The mention at a position as the plan leaves it. -/
def mentionAt (position : Nat) : Mention where
  key := mentions[position]?.bind Mention.key
  id := some (UInt32.ofNat (plan.number position))
  content := if plan.keeps position then plan.contentAt mentions position else []

/-! ## Remaining mentions, part by part -/

mutual

/-- The positions of the mentions that remain in a node, whose first mention has a position. -/
def remainingIn : Inline → Nat → List Nat
  | .styled _ content _, position | .link _ content _, position
  | .crossReference _ content _, position => remainingInAll content position
  | .footnote content _ _ _, position =>
      let own := position + (Inline.mentionsAll content).length
      (if plan.keeps own then remainingInAll content position else []) ++ [own]
  | .text _ _, _ | .math _ _ _, _ | .passthrough _ _, _ | .command _ _, _
  | .indexTerm _ _ _, _ => []

def remainingInAll : List Inline → Nat → List Nat
  | [], _ => []
  | inline :: rest, position =>
      remainingIn inline position ++ remainingInAll rest (position + inline.mentions.length)

end

variable {mentions}

mutual

/-- What is left of a node mentions what remains in it. -/
theorem mentions_apply (inline : Inline) {position : Nat}
    (stands : StandsAt mentions inline.mentions position) :
    (plan.apply inline position).1.mentions =
      (plan.remainingIn inline position).map (plan.mentionAt mentions) := by
  cases inline with
  | styled _ content _ | link _ content _ | crossReference _ content _ =>
      simpa only [apply, Inline.mentions, remainingIn] using mentionsAll_applyAll content stands
  | footnote content key id span =>
      have inner := mentionsAll_applyAll content stands.left
      have found := stands.right.head
      have own : plan.mentionAt mentions (position + (Inline.mentionsAll content).length) =
          ⟨key, some (UInt32.ofNat (plan.number (position + (Inline.mentionsAll content).length))),
            if plan.keeps (position + (Inline.mentionsAll content).length) then
              (plan.applyAll content position).1 else []⟩ := by
        rw [mentionAt, contentAt, found, contentStart_of_getElem? found]
        simp only [Option.bind_some, Nat.add_sub_cancel]
      simp only [apply, Inline.mentions, remainingIn, List.map_append, List.map_singleton, own,
        applyAll_snd]
      split
      · rw [inner]
      · rfl
  | text | math | passthrough | command | indexTerm => rfl

/-- The mentions of a planned sequence are those that remain, as the plan leaves them. -/
theorem mentionsAll_applyAll (content : List Inline) {position : Nat}
    (stands : StandsAt mentions (Inline.mentionsAll content) position) :
    Inline.mentionsAll (plan.applyAll content position).1 =
      (plan.remainingInAll content position).map (plan.mentionAt mentions) := by
  match content with
  | [] => rfl
  | inline :: rest =>
      simp only [applyAll, Inline.mentionsAll, remainingInAll, List.map_append, apply_snd,
        mentions_apply inline stands.left, mentionsAll_applyAll rest stands.right]

end

mutual

/-- The mentions inside a mention of a part stand in that part, directly before it. -/
theorem content_stands (inline : Inline) {position own : Nat} {mention : Mention}
    (stands : StandsAt mentions inline.mentions position) (from_ : position ≤ own)
    (below : own < position + inline.mentions.length) (found : mentions[own]? = some mention) :
    position + (Inline.mentionsAll mention.content).length ≤ own ∧
      StandsAt mentions (Inline.mentionsAll mention.content)
        (own - (Inline.mentionsAll mention.content).length) := by
  cases inline with
  | styled _ content _ | link _ content _ | crossReference _ content _ =>
      exact content_standsAll content stands from_ below found
  | footnote content key id span =>
      simp only [Inline.mentions, List.length_append, List.length_singleton] at below
      by_cases less : own < position + (Inline.mentionsAll content).length
      · exact content_standsAll content stands.left from_ less found
      · obtain rfl : own = position + (Inline.mentionsAll content).length := by omega
        obtain rfl : _ = mention := Option.some.inj (stands.right.head.symm.trans found)
        refine ⟨le_rfl, ?_⟩
        simpa only [Nat.add_sub_cancel] using stands.left
  | text | math | passthrough | command | indexTerm =>
      exact absurd below (Nat.not_lt_of_le from_)

/-- The content of a mention of a sequence stands directly before the mention. -/
theorem content_standsAll (content : List Inline) {position own : Nat} {mention : Mention}
    (stands : StandsAt mentions (Inline.mentionsAll content) position) (from_ : position ≤ own)
    (below : own < position + (Inline.mentionsAll content).length)
    (found : mentions[own]? = some mention) :
    position + (Inline.mentionsAll mention.content).length ≤ own ∧
      StandsAt mentions (Inline.mentionsAll mention.content)
        (own - (Inline.mentionsAll mention.content).length) := by
  match content with
  | [] => exact absurd below (Nat.not_lt_of_le from_)
  | inline :: rest =>
      by_cases first : own < position + inline.mentions.length
      · exact content_stands inline stands.left from_ first found
      · rw [Inline.mentionsAll, List.length_append, ← Nat.add_assoc] at below
        obtain ⟨start, inner⟩ :=
          content_standsAll rest stands.right (Nat.le_of_not_lt first) below found
        exact ⟨by omega, inner⟩

end

/-- A part holds the contents of its mentions as a whole. -/
theorem le_contentStart {content : List Inline} {position outer : Nat}
    (stands : StandsAt mentions (Inline.mentionsAll content) position) (from_ : position ≤ outer)
    (below : outer < position + (Inline.mentionsAll content).length) :
    position ≤ contentStart mentions outer := by
  obtain ⟨index, rfl⟩ := Nat.exists_eq_add_of_le from_
  have found := stands index (by omega)
  have inner := (content_standsAll content stands from_ below found).1
  rw [contentStart_of_getElem? found]
  omega

mutual

/-- What remains in a part is what the mentions of the part itself allow to remain. -/
theorem mem_remainingIn_iff (inline : Inline) {position own : Nat}
    (stands : StandsAt mentions inline.mentions position) :
    own ∈ plan.remainingIn inline position ↔
      (position ≤ own ∧ own < position + inline.mentions.length) ∧
        ∀ outer < position + inline.mentions.length,
          Inside mentions own outer → plan.keeps outer := by
  cases inline with
  | styled _ content _ | link _ content _ | crossReference _ content _ =>
      exact mem_remainingInAll_iff content stands
  | footnote content key id span =>
      have inner : own ∈ plan.remainingInAll content position ↔ _ :=
        mem_remainingInAll_iff content stands.left
      have found := stands.right.head
      have start := contentStart_of_getElem? found
      simp only [Nat.add_sub_cancel] at start
      simp only [remainingIn, Inline.mentions, List.length_append, List.length_singleton,
        List.mem_append, List.mem_singleton]
      constructor
      · rintro (member | rfl)
        · split at member
          · rename_i kept
            obtain ⟨⟨from_, below⟩, keep⟩ := inner.mp member
            refine ⟨⟨from_, by omega⟩, fun outer bound inside => ?_⟩
            by_cases less : outer < position + (Inline.mentionsAll content).length
            · exact keep outer less inside
            · obtain rfl : outer = position + (Inline.mentionsAll content).length := by omega
              exact kept
          · simp at member
        · exact ⟨⟨by omega, by omega⟩, fun outer bound inside =>
            absurd inside.2 (by omega)⟩
      · rintro ⟨⟨from_, below⟩, keep⟩
        by_cases less : own < position + (Inline.mentionsAll content).length
        · left
          have kept := keep (position + (Inline.mentionsAll content).length) (by omega)
            ⟨start.le.trans from_, less⟩
          rw [if_pos kept, inner]
          exact ⟨⟨from_, less⟩, fun outer bound => keep outer (by omega)⟩
        · right; omega
  | text | math | passthrough | command | indexTerm =>
      simp only [remainingIn, Inline.mentions, List.not_mem_nil, List.length_nil, Nat.add_zero,
        false_iff]
      rintro ⟨⟨from_, below⟩, -⟩
      omega

/-- A mention of a sequence remains in it if all mentions of the sequence around it keep. -/
theorem mem_remainingInAll_iff (content : List Inline) {position own : Nat}
    (stands : StandsAt mentions (Inline.mentionsAll content) position) :
    own ∈ plan.remainingInAll content position ↔
      (position ≤ own ∧ own < position + (Inline.mentionsAll content).length) ∧
        ∀ outer < position + (Inline.mentionsAll content).length,
          Inside mentions own outer → plan.keeps outer := by
  match content with
  | [] =>
      simp only [remainingInAll, Inline.mentionsAll, List.not_mem_nil, List.length_nil,
        Nat.add_zero, false_iff]
      rintro ⟨⟨from_, below⟩, -⟩
      omega
  | inline :: rest =>
      have first : own ∈ plan.remainingIn inline position ↔ _ :=
        mem_remainingIn_iff inline stands.left
      have second : own ∈ plan.remainingInAll rest (position + inline.mentions.length) ↔ _ :=
        mem_remainingInAll_iff rest stands.right
      simp only [remainingInAll, Inline.mentionsAll, List.length_append, List.mem_append, first,
        second, ← Nat.add_assoc]
      constructor
      · rintro (⟨⟨from_, below⟩, keep⟩ | ⟨⟨from_, below⟩, keep⟩)
        · refine ⟨⟨from_, by omega⟩, fun outer bound inside => ?_⟩
          by_cases less : outer < position + inline.mentions.length
          · exact keep outer less inside
          · -- a mention of the rest does not reach back into the node before it
            have start := le_contentStart stands.right (Nat.le_of_not_lt less) bound
            exact absurd inside.1 (by omega)
        · exact ⟨⟨by omega, below⟩, keep⟩
      · rintro ⟨⟨from_, below⟩, keep⟩
        by_cases less : own < position + inline.mentions.length
        · exact .inl ⟨⟨from_, less⟩, fun outer bound => keep outer (by omega)⟩
        · exact .inr ⟨⟨Nat.le_of_not_lt less, below⟩, keep⟩

end

mutual

theorem pairwise_remainingIn (inline : Inline) {position : Nat}
    (stands : StandsAt mentions inline.mentions position) :
    (plan.remainingIn inline position).Pairwise (· < ·) := by
  cases inline with
  | styled _ content _ | link _ content _ | crossReference _ content _ =>
      exact pairwise_remainingInAll content stands
  | footnote content key id span =>
      rw [remainingIn, List.pairwise_append]
      refine ⟨?_, List.pairwise_singleton _ _, fun own member last equal => ?_⟩
      · split
        · exact pairwise_remainingInAll content stands.left
        · exact List.Pairwise.nil
      · rw [List.mem_singleton.mp equal]
        split at member
        · exact ((mem_remainingInAll_iff plan content stands.left).mp member).1.2
        · exact absurd member (List.not_mem_nil)
  | text | math | passthrough | command | indexTerm => exact List.Pairwise.nil

theorem pairwise_remainingInAll (content : List Inline) {position : Nat}
    (stands : StandsAt mentions (Inline.mentionsAll content) position) :
    (plan.remainingInAll content position).Pairwise (· < ·) := by
  match content with
  | [] => exact List.Pairwise.nil
  | inline :: rest =>
      rw [remainingInAll, List.pairwise_append]
      refine ⟨pairwise_remainingIn inline stands.left, pairwise_remainingInAll rest stands.right,
        fun own member other later => ?_⟩
      have below := ((mem_remainingIn_iff plan inline stands.left).mp member).1.2
      have from_ := ((mem_remainingInAll_iff plan rest stands.right).mp later).1.1
      exact Nat.lt_of_lt_of_le below from_

end

/-! ## Remaining mentions of a document -/

variable (mentions) in
/-- The mentions that remain, by their definition. -/
theorem mem_remaining_iff {position : Nat} :
    position ∈ plan.remaining mentions ↔
      position < mentions.length ∧ plan.Remains mentions position := by
  rw [remaining, List.mem_filter, List.mem_range, decide_eq_true_iff]

variable (mentions) in
theorem pairwise_remaining : (plan.remaining mentions).Pairwise (· < ·) :=
  List.Pairwise.filter _ List.pairwise_lt_range

/-- The remaining mentions of the whole list are found by the walk over the whole content. -/
theorem remainingInAll_eq_remaining (content : List Inline) :
    plan.remainingInAll content 0 = plan.remaining (Inline.mentionsAll content) := by
  have stands := StandsAt.self (Inline.mentionsAll content)
  refine List.Pairwise.eq_of_mem_iff (pairwise_remainingInAll plan content stands)
    (plan.pairwise_remaining _) fun position => ?_
  rw [mem_remainingInAll_iff plan content stands, mem_remaining_iff]
  simp only [Nat.zero_le, Nat.zero_add, true_and, Remains]

/-- **Carried out on a document, a plan leaves the remaining mentions as planned.** -/
theorem mentions_document (d : Document) :
    (plan.document d).mentions =
      (plan.remaining d.mentions).map (plan.mentionAt d.mentions) := by
  have listed : d.mentions = Inline.mentionsAll d.passages.flatten :=
    (Inline.mentionsAll_flatten d.passages).symm
  rw [Document.mentions, ← Inline.mentionsAll_flatten, flatten_passages_document, listed,
    ← remainingInAll_eq_remaining]
  exact mentionsAll_applyAll plan _ (StandsAt.self _)

/-- The planned content of a mention mentions some of what is inside it, as planned. -/
theorem mentions_contentAt (d : Document) {position : Nat}
    (inside : position < d.mentions.length) :
    ∃ inner : List Nat, inner.Pairwise (· < ·) ∧
      (∀ own ∈ inner, Inside d.mentions own position) ∧
      Inline.mentionsAll (plan.contentAt d.mentions position) =
        inner.map (plan.mentionAt d.mentions) := by
  have listed : d.mentions = Inline.mentionsAll d.passages.flatten :=
    (Inline.mentionsAll_flatten d.passages).symm
  have found := List.getElem?_eq_getElem inside
  have start := contentStart_of_getElem? found
  have whole : StandsAt d.mentions (Inline.mentionsAll d.passages.flatten) 0 :=
    listed ▸ StandsAt.self _
  obtain ⟨fits, stands⟩ := content_standsAll _ whole (Nat.zero_le position)
    (by rw [Nat.zero_add, ← listed]; exact inside) found
  rw [← start] at stands
  refine ⟨plan.remainingInAll d.mentions[position].content (contentStart d.mentions position),
    pairwise_remainingInAll plan _ stands, fun own member => ?_, ?_⟩
  · obtain ⟨⟨from_, below⟩, -⟩ := (mem_remainingInAll_iff plan _ stands).mp member
    exact ⟨from_, by omega⟩
  · simp only [contentAt, found]
    exact mentionsAll_applyAll plan _ stands

end Plan

end Rendition.Footnote
