/-
# Rendition.Proofs.Footnote.Relabel -- keys matter up to equality

Numbering looks at the key of a mention only to find the mentions with the same
key, and never at the number that a mention already has or at a span.  So the
plan of a list of mentions is that of the relabelled list, as long as different
keys stay different (`plan_relabel`).

Resolving a relabelled document then gives the relabelled result, with the same
numbers as before (`resolveDocument_relabel`): in the document because carrying
out a plan settles labels, in the definitions because their contents are planned
contents.
-/
import Rendition.Proofs.Footnote.Numbering
import Rendition.Proofs.Tree.Relabel

namespace Rendition

set_option autoImplicit false

def Document.footnoteKeys (document : Document) : List String :=
  document.mentions.filterMap Footnote.Mention.key

/-- Whether a relabelling keeps different keys different. -/
def Relabelling.KeepsApart (labels : Relabelling) (keys : List String) : Prop :=
  ∀ key ∈ keys, ∀ other ∈ keys, labels.key key = labels.key other → key = other

instance (labels : Relabelling) (keys : List String) : Decidable (labels.KeepsApart keys) :=
  inferInstanceAs (Decidable (∀ key ∈ keys, ∀ other ∈ keys, _ → _))

namespace Footnote

variable {labels : Relabelling} {mentions : List Mention}

/-! ## The plan of relabelled mentions -/

theorem keyAt_relabel (position : Nat) :
    keyAt (mentions.map (·.relabel labels)) position =
      (keyAt mentions position).map labels.key := by
  rw [keyAt, keyAt, List.getElem?_map]
  cases mentions[position]? <;> rfl

theorem hasContent_relabel (position : Nat) :
    hasContent (mentions.map (·.relabel labels)) position = hasContent mentions position := by
  rw [hasContent, hasContent, List.getElem?_map]
  cases mentions[position]? with
  | none => rfl
  | some mention =>
      simp only [Option.map_some, Option.any_some, Mention.relabel, Inline.isEmpty_relabelAll]

section Apart

variable (apart : labels.KeepsApart (mentions.filterMap Mention.key))

include apart

/-- A mention has the changed key exactly if it had the key. -/
theorem keyAt_relabel_eq_iff {position other : Nat} {key : String}
    (keyed : keyAt mentions position = some key) :
    keyAt (mentions.map (·.relabel labels)) other = some (labels.key key) ↔
      keyAt mentions other = some key := by
  have known : ∀ {at_ : Nat} {found : String}, keyAt mentions at_ = some found →
      found ∈ mentions.filterMap Mention.key := by
    intro at_ found same
    obtain ⟨mention, listed, has⟩ := keyAt_eq_some_iff.mp same
    exact List.mem_filterMap.mpr ⟨mention, List.mem_of_getElem? listed, has⟩
  rw [keyAt_relabel, Option.map_eq_some_iff]
  constructor
  · rintro ⟨found, same, equal⟩
    rw [same, apart found (known same) key (known keyed) equal]
  · intro same
    exact ⟨key, same, rfl⟩

theorem first?_relabel {position : Nat} {key : String}
    (keyed : keyAt mentions position = some key) :
    first? (mentions.map (·.relabel labels)) (labels.key key) = first? mentions key := by
  obtain ⟨first, found, -⟩ := first?_isSome_of_keyAt keyed
  rw [found, first?_eq_some_iff]
  simpa only [keyAt_relabel_eq_iff apart keyed, ne_eq] using first?_eq_some_iff.mp found

theorem definer?_relabel {position : Nat} {key : String}
    (keyed : keyAt mentions position = some key) :
    definer? (mentions.map (·.relabel labels)) (labels.key key) = definer? mentions key := by
  cases found : definer? mentions key with
  | none =>
      rw [definer?_eq_none_iff]
      simpa only [keyAt_relabel_eq_iff apart keyed, hasContent_relabel]
        using definer?_eq_none_iff.mp found
  | some definer =>
      rw [definer?_eq_some_iff]
      simpa only [keyAt_relabel_eq_iff apart keyed, hasContent_relabel]
        using definer?_eq_some_iff.mp found

/-- Keys that are kept apart leave every mention the source it had. -/
theorem source_relabel (position : Nat) :
    source (mentions.map (·.relabel labels)) position = source mentions position := by
  rw [source, source, keyAt_relabel]
  cases keyed : keyAt mentions position with
  | none => rfl
  | some key => simp only [Option.map_some, first?_relabel apart keyed]

/-- Keys that are kept apart leave every mention the definer it had. -/
theorem definerAt?_relabel (position : Nat) :
    definerAt? (mentions.map (·.relabel labels)) position = definerAt? mentions position := by
  rw [definerAt?, definerAt?, keyAt_relabel]
  cases keyed : keyAt mentions position with
  | none => rfl
  | some key => simp only [Option.map_some, definer?_relabel apart keyed]

theorem count_allocates_relabel (bound : Nat) :
    Nat.count (Allocates (mentions.map (·.relabel labels))) bound =
      Nat.count (Allocates mentions) bound := by
  induction bound with
  | zero => rfl
  | succ bound ih =>
      have same : Allocates (mentions.map (·.relabel labels)) bound ↔ Allocates mentions bound := by
        rw [Allocates, Allocates, source_relabel apart]
      rw [Nat.count_succ, Nat.count_succ, ih, if_congr same rfl rfl]

theorem allocations_relabel :
    allocations (mentions.map (·.relabel labels)) = allocations mentions := by
  rw [allocations, allocations, List.length_map, count_allocates_relabel apart]

/-- **A plan depends on keys only up to equality**, and on nothing else that is relabelled. -/
theorem plan_relabel : plan (mentions.map (·.relabel labels)) = plan mentions := by
  have ranks : rank (mentions.map (·.relabel labels)) = rank mentions := by
    funext position
    rw [rank, rank, source_relabel apart, count_allocates_relabel apart]
  have kept : keeps (mentions.map (·.relabel labels)) = keeps mentions := by
    funext position
    rw [keeps, keeps, definerAt?_relabel apart]
  rw [plan, plan, ranks, kept]

end Apart

/-! ## Carrying a plan out -/

namespace Plan

variable (plan : Plan)

mutual

/-- Carrying out a plan and relabelling commute; the numbers of the plan replace those that were. -/
theorem apply_relabel (inline : Inline) (position : Nat) :
    plan.apply (inline.relabel labels) position =
      ((plan.apply inline position).1.relabel labels.settled, (plan.apply inline position).2) := by
  cases inline with
  | styled _ content _ | link _ content _ | crossReference _ content _ =>
      have inner := applyAll_relabel content position
      simp only [Inline.relabel, apply, inner]
      rfl
  | footnote content key id span =>
      have inner := applyAll_relabel content position
      simp only [Inline.relabel, apply, inner]
      split <;> rfl
  | text | math | passthrough | command | indexTerm => rfl

theorem applyAll_relabel (content : List Inline) (position : Nat) :
    plan.applyAll (Inline.relabelAll labels content) position =
      (Inline.relabelAll labels.settled (plan.applyAll content position).1,
        (plan.applyAll content position).2) := by
  match content with
  | [] => rfl
  | inline :: rest =>
      have first := apply_relabel inline position
      have others := applyAll_relabel rest (plan.apply inline position).2
      simp only [Inline.relabelAll, applyAll, first, others]

end

/-- Carrying out a plan replaces all numbers, and so settles labels. -/
theorem document_relabel (d : Document) :
    plan.document (d.relabel labels) = (plan.document d).relabel labels.settled := by
  have settles : Revision.Settles labels plan.applyAll := plan.applyAll_relabel
  rw [document, settles.document_relabel]
  rfl

theorem contentAt_relabel (position : Nat) :
    plan.contentAt (mentions.map (·.relabel labels)) position =
      Inline.relabelAll labels.settled (plan.contentAt mentions position) := by
  unfold contentAt
  rw [List.getElem?_map]
  cases found : mentions[position]? with
  | none => rfl
  | some mention =>
      have same : contentStart (mentions.map (·.relabel labels)) position =
          contentStart mentions position := by
        have moved : (mentions.map (·.relabel labels))[position]? =
            some (mention.relabel labels) := by
          rw [List.getElem?_map, found, Option.map_some]
        rw [contentStart_of_getElem? found, contentStart_of_getElem? moved, Mention.relabel,
          Inline.mentionsAll_relabelAll, List.length_map]
      have settles : Revision.Settles labels plan.applyAll := plan.applyAll_relabel
      simp only [Option.map_some, same]
      exact congrArg Prod.fst (settles mention.content (contentStart mentions position))

end Plan

theorem definedContent_relabel (apart : labels.KeepsApart (mentions.filterMap Mention.key))
    (position : Nat) :
    definedContent (mentions.map (·.relabel labels)) position =
      Inline.relabelAll labels.settled (definedContent mentions position) := by
  rw [definedContent, definedContent, definerAt?_relabel apart]
  cases definerAt? mentions position with
  | none => rfl
  | some definer =>
      simp only [Option.elim_some, plannedContent, plan_relabel apart, Plan.contentAt_relabel]

/-! ## Documents -/

def Definition.relabel (labels : Relabelling) (definition : Definition) : Definition :=
  { definition with content := Inline.relabelAll labels definition.content }

def Resolved.relabel (labels : Relabelling) (resolved : Resolved) : Resolved where
  document := resolved.document.relabel labels
  definitions := resolved.definitions.map (Definition.relabel labels)

theorem Resolved.relabel_identity (resolved : Resolved) :
    resolved.relabel .identity = resolved := by
  have each : ∀ definition : Definition, definition.relabel .identity = definition := by
    intro definition
    unfold Definition.relabel
    rw [Inline.relabelAll_identity]
  unfold relabel
  rw [Document.relabel_identity, List.map_id'' each]

/-- The definitions of a relabelled document are those of the document, relabelled. -/
theorem definitions_relabel {document : Document}
    (apart : labels.KeepsApart document.footnoteKeys) :
    (resolveDocument (document.relabel labels)).definitions =
      (resolveDocument document).definitions.map (Definition.relabel labels.settled) := by
  have mentions := Document.mentions_relabel labels document
  have length : (resolveDocument (document.relabel labels)).definitions.length =
      (resolveDocument document).definitions.length := by
    rw [length_definitions, length_definitions, mentions, allocations_relabel apart]
  refine List.ext_getElem? fun index => ?_
  rw [List.getElem?_map]
  by_cases inside : index < (resolveDocument document).definitions.length
  · -- the definition belongs to a mention, which stands at the same position in both documents
    rw [length_definitions] at inside
    obtain ⟨position, below, -, ranked⟩ := exists_rank inside
    have stored := getElem?_definitions document below
    have moved : position < (document.relabel labels).mentions.length := by
      rw [mentions, List.length_map]
      exact below
    have again := getElem?_definitions (document.relabel labels) moved
    have same : rank (document.relabel labels).mentions position =
        rank document.mentions position := by
      rw [mentions]
      exact congrFun (congrArg Plan.number (plan_relabel apart)) position
    rw [same, ranked, Nat.add_sub_cancel] at again
    rw [ranked, Nat.add_sub_cancel] at stored
    rw [again, stored, mentions, definedContent_relabel apart]
    rfl
  · rw [List.getElem?_eq_none (Nat.le_of_not_lt inside),
      List.getElem?_eq_none (length ▸ Nat.le_of_not_lt inside), Option.map_none]

/-- **Numbering does not see labels**, but for which keys are the same.  What is made of a
relabelled document is what is made of the document, under the settled labels. -/
theorem resolveDocument_relabel {document : Document}
    (apart : labels.KeepsApart document.footnoteKeys) :
    resolveDocument (document.relabel labels) =
      (resolveDocument document).relabel labels.settled := by
  have tree : (resolveDocument (document.relabel labels)).document =
      (resolveDocument document).document.relabel labels.settled := by
    rw [document_resolveDocument, document_resolveDocument, Document.mentions_relabel,
      plan_relabel apart, Plan.document_relabel]
  have definitions := definitions_relabel apart
  calc resolveDocument (document.relabel labels)
      = ⟨(resolveDocument (document.relabel labels)).document,
          (resolveDocument (document.relabel labels)).definitions⟩ := rfl
    _ = (resolveDocument document).relabel labels.settled := by rw [tree, definitions]; rfl

end Footnote

end Rendition
