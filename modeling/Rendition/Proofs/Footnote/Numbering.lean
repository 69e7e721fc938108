/-
# Rendition.Proofs.Footnote.Numbering -- numbering in one pass is numbering in two phases

`resolveDocument` numbers footnotes in one pass, with a ledger.  The plan of
`Rendition.Proofs.Footnote.Rank` is made from the list of all mentions, and
carried out by counting.  `resolve_reached` says that the two go in step: the
pass over a part of the document does what the plan says of its positions, and
the ledger moves from the first position of the part to the position after it.
-/
import Rendition.Proofs.Footnote.Ledger
import Rendition.Proofs.Footnote.Remaining
import Rendition.Proofs.Tree.Revision

namespace Rendition.Footnote

set_option autoImplicit false

variable {mentions : List Mention}

theorem keyAt_of_getElem? {position : Nat} {mention : Mention}
    (found : mentions[position]? = some mention) : keyAt mentions position = mention.key := by
  rw [keyAt, found, Option.bind_some]

/-- The planned content of a footnote is what the plan makes of its content in place. -/
theorem plannedContent_of_getElem? {position : Nat} {key : Option String} {id : Option UInt32}
    {content : List Inline}
    (found : mentions[position + (Inline.mentionsAll content).length]? = some ⟨key, id, content⟩) :
    plannedContent mentions (position + (Inline.mentionsAll content).length) =
      ((plan mentions).applyAll content position).1 := by
  rw [plannedContent, Plan.contentAt, found, contentStart_of_getElem? found]
  simp only [Nat.add_sub_cancel]

mutual

/-- Numbering a node carries out the plan and reaches the position behind its mentions. -/
theorem resolve_reached (inline : Inline) {position : Nat} {ledger : Ledger}
    (stands : StandsAt mentions inline.mentions position)
    (reached : Reached mentions position ledger) :
    ∃ next, resolve inline ledger = (((plan mentions).apply inline position).1, next) ∧
      Reached mentions (position + inline.mentions.length) next := by
  cases inline with
  | styled _ content _ | link _ content _ | crossReference _ content _ =>
      obtain ⟨next, same, reached⟩ := resolveAll_reached content stands reached
      exact ⟨next, by simp only [resolve, Plan.apply, same], reached⟩
  | footnote content key id span =>
      -- the content comes first, and the footnote itself stands directly after it
      obtain ⟨inner, same, reached⟩ := resolveAll_reached content stands.left reached
      have found := stands.right.head
      obtain ⟨next, entered, reached⟩ :=
        reached.enter (List.getElem?_eq_some_iff.mp found).1
      have planned := plannedContent_of_getElem? found
      rw [keyAt_of_getElem? found, planned] at entered
      refine ⟨next, ?_, ?_⟩
      · simp only [resolve, same, entered, Plan.apply, Plan.applyAll_snd]
        rfl
      · simpa only [Inline.mentions, List.length_append, List.length_singleton,
          Nat.add_assoc] using reached
  | text | math | passthrough | command | indexTerm =>
      exact ⟨ledger, by simp only [resolve, Plan.apply], reached⟩

/-- The same for a sequence, node by node. -/
theorem resolveAll_reached (content : List Inline) {position : Nat} {ledger : Ledger}
    (stands : StandsAt mentions (Inline.mentionsAll content) position)
    (reached : Reached mentions position ledger) :
    ∃ next, resolveAll content ledger = (((plan mentions).applyAll content position).1, next) ∧
      Reached mentions (position + (Inline.mentionsAll content).length) next := by
  match content with
  | [] => exact ⟨ledger, by simp only [resolveAll, Plan.applyAll], reached⟩
  | inline :: rest =>
      obtain ⟨middle, first, reached⟩ := resolve_reached inline stands.left reached
      obtain ⟨next, second, reached⟩ := resolveAll_reached rest stands.right reached
      refine ⟨next, ?_, ?_⟩
      · simp only [resolveAll, first, second, Plan.applyAll, Plan.apply_snd]
      · simpa only [Inline.mentionsAll, List.length_append, Nat.add_assoc] using reached

end

/-- The pass over a list of passages. -/
theorem all_reached (passages : List (List Inline)) {position : Nat} {ledger : Ledger}
    (stands : StandsAt mentions (passages.flatMap Inline.mentionsAll) position)
    (reached : Reached mentions position ledger) :
    ∃ next, Revision.all resolveAll passages ledger =
        ((Revision.all (plan mentions).applyAll passages position).1, next) ∧
      Reached mentions (position + (passages.flatMap Inline.mentionsAll).length) next := by
  induction passages generalizing position ledger with
  | nil => exact ⟨ledger, rfl, reached⟩
  | cons passage rest ih =>
      rw [List.flatMap_cons] at stands
      obtain ⟨middle, first, reached⟩ := resolveAll_reached passage stands.left reached
      obtain ⟨next, second, reached⟩ := ih stands.right reached
      refine ⟨next, ?_, ?_⟩
      · simp only [Revision.all, first, second, Plan.applyAll_snd]
      · simpa only [List.flatMap_cons, List.length_append, Nat.add_assoc] using reached

/-! ## Documents -/

/-- What a mention's number stands for in the end: the planned content of its definer. -/
def definedContent (mentions : List Mention) (position : Nat) : List Inline :=
  (definerAt? mentions position).elim [] (plannedContent mentions)

theorem definer_lt_length {position definer : Nat} (inside : position < mentions.length)
    (defined : definerAt? mentions position = some definer) : definer < mentions.length := by
  cases keyed : keyAt mentions position with
  | none =>
      rw [definerAt?_of_anonymous keyed, Option.some.injEq] at defined
      exact defined ▸ inside
  | some key =>
      rw [definerAt?_of_keyAt keyed, definer?_eq_some_iff] at defined
      exact hasContent_lt_length defined.1.2

/-- After all mentions the definition of a number is final. -/
theorem definedBefore_length {position : Nat} (inside : position < mentions.length) :
    definedBefore mentions mentions.length position = definedContent mentions position := by
  cases defined : definerAt? mentions position with
  | none => simp only [definedBefore, definedContent, defined, Option.elim_none]
  | some definer =>
      rw [definedBefore_of_lt defined (definer_lt_length inside defined), definedContent, defined,
        Option.elim_some]

/-- The pass over a document carries its plan out and ends with all mentions entered. -/
theorem resolveDocument_eq (d : Document) :
    ∃ ledger, Reached d.mentions d.mentions.length ledger ∧
      resolveDocument d = ⟨(plan d.mentions).document d, ledger.definitions⟩ := by
  have stands : StandsAt d.mentions (d.passages.flatMap Inline.mentionsAll) 0 :=
    StandsAt.self d.mentions
  obtain ⟨ledger, same, reached⟩ := all_reached d.passages stands .empty
  have last : (Revision.document resolveAll d .empty).2 = ledger := by
    rw [Revision.document_passages] at same
    exact (Prod.mk.inj same).2
  have tree : (Revision.document resolveAll d .empty).1 = (plan d.mentions).document d :=
    Revision.document_congr resolveAll (plan d.mentions).applyAll d
      (congrArg Prod.fst same)
  rw [Nat.zero_add] at reached
  refine ⟨ledger, reached, ?_⟩
  rw [← last, ← tree]
  rfl

/-- The numbered document is the document with the plan carried out. -/
theorem document_resolveDocument (d : Document) :
    (resolveDocument d).document = (plan d.mentions).document d := by
  obtain ⟨ledger, -, same⟩ := resolveDocument_eq d
  rw [same]

theorem length_definitions (d : Document) :
    (resolveDocument d).definitions.length = allocations d.mentions := by
  obtain ⟨ledger, reached, same⟩ := resolveDocument_eq d
  rw [same, reached.length, allocations]

/-- The definition of a mention stands at its rank. -/
theorem getElem?_definitions (d : Document) {position : Nat}
    (inside : position < d.mentions.length) :
    (resolveDocument d).definitions[rank d.mentions position - 1]? =
      some ⟨UInt32.ofNat (rank d.mentions position), definedContent d.mentions position⟩ := by
  obtain ⟨ledger, reached, same⟩ := resolveDocument_eq d
  have below : source d.mentions position < d.mentions.length :=
    (source_le position).trans_lt inside
  have stored := reached.content _ below (allocates_source position)
  have content : definedContent d.mentions (source d.mentions position) =
      definedContent d.mentions position := by
    simp only [definedContent, definerAt?_source]
  rw [rank_source, definedBefore_length below, content, Ledger.contents,
    List.getElem?_map] at stored
  obtain ⟨definition, found, held⟩ := Option.map_eq_some_iff.mp stored
  have numbered := reached.dense.id _ definition found
  rw [Nat.sub_add_cancel (show 1 ≤ rank d.mentions position from Nat.succ_pos _)] at numbered
  rw [same, ← numbered, ← held]
  exact found

/-- Every definition is that of a mention that took a new number. -/
theorem exists_of_mem_definitions (d : Document) {definition : Definition}
    (member : definition ∈ (resolveDocument d).definitions) :
    ∃ position < d.mentions.length, Allocates d.mentions position ∧
      definition =
        ⟨UInt32.ofNat (rank d.mentions position), definedContent d.mentions position⟩ := by
  obtain ⟨index, inside, rfl⟩ := List.getElem_of_mem member
  rw [length_definitions] at inside
  obtain ⟨position, below, allocates, ranked⟩ := exists_rank inside
  refine ⟨position, below, allocates, ?_⟩
  have stored := getElem?_definitions d below
  rw [ranked, Nat.add_sub_cancel] at stored
  rw [ranked]
  exact (List.getElem?_eq_some_iff.mp stored).2

/-! ## Numbers -/

/-- The key and the number that a node carries. -/
def Mention.label (node : Mention) : Option String × Option Nat :=
  (node.key, node.id.map UInt32.toNat)

/-- The key and the number that the mention at a position should carry. -/
def labelAt (mentions : List Mention) (position : Nat) : Option String × Option Nat :=
  (keyAt mentions position, some (rank mentions position))

/-- As long as numbers fit, a planned mention carries its rank. -/
theorem label_mentionAt (few : allocations mentions < 2 ^ 32 - 1) {position : Nat}
    (inside : position < mentions.length) :
    ((plan mentions).mentionAt mentions position).label = labelAt mentions position := by
  have small : rank mentions position < 2 ^ 32 := by
    have le := rank_le_allocations inside
    omega
  simp only [Mention.label, labelAt, Plan.mentionAt, Option.map_some, plan,
    UInt32.toNat_ofNat_of_lt' small]
  rfl

theorem labels_eq (few : allocations mentions < 2 ^ 32 - 1) {positions : List Nat}
    (inside : ∀ position ∈ positions, position < mentions.length) :
    (positions.map ((plan mentions).mentionAt mentions)).map Mention.label =
      positions.map (labelAt mentions) := by
  rw [List.map_map]
  exact List.map_congr_left fun position member => label_mentionAt few (inside position member)

/-- What is defined is nothing or the planned content of a mention. -/
theorem definedContent_eq {position : Nat} (inside : position < mentions.length) :
    definedContent mentions position = [] ∨
      ∃ definer < mentions.length,
        definedContent mentions position = plannedContent mentions definer := by
  cases defined : definerAt? mentions position with
  | none => exact .inl (by rw [definedContent, defined, Option.elim_none])
  | some definer =>
      exact .inr ⟨definer, definer_lt_length inside defined,
        by rw [definedContent, defined, Option.elim_some]⟩

/-- **Footnotes are numbered as in two phases.**  There are as many definitions as allocating
mentions, numbered from one without gaps.  The document is the plan carried out, so its nodes are
the remaining mentions in their order, each with the rank of its own source; and a definition holds
the planned content of a mention, whose nodes again carry the ranks of their own sources. -/
theorem resolveDocument_numbers (document : Document)
    (few : allocations document.mentions < 2 ^ 32 - 1) :
    (resolveDocument document).definitions.length = allocations document.mentions ∧
      (∀ index (inside : index < (resolveDocument document).definitions.length),
        (resolveDocument document).definitions[index].id.toNat = index + 1) ∧
      (resolveDocument document).document = (plan document.mentions).document document ∧
      (resolveDocument document).document.mentions.map Mention.label =
        ((plan document.mentions).remaining document.mentions).map (labelAt document.mentions) ∧
      ∀ definition ∈ (resolveDocument document).definitions,
        definition.content = [] ∨
          ∃ definer < document.mentions.length,
            definition.content = plannedContent document.mentions definer ∧
              ∃ inner : List Nat, inner.Pairwise (· < ·) ∧
                (∀ own ∈ inner, Inside document.mentions own definer) ∧
                (Inline.mentionsAll definition.content).map Mention.label =
                  inner.map (labelAt document.mentions) := by
  refine ⟨length_definitions document, fun index inside => ?_, document_resolveDocument document,
    ?_, fun definition member => ?_⟩
  · have fewer := length_definitions document ▸ inside
    have small : index + 1 < 2 ^ 32 := by omega
    rw [id_definitions document inside]
    exact UInt32.toNat_ofNat_of_lt' small
  · rw [document_resolveDocument, Plan.mentions_document]
    exact labels_eq few fun position member => ((Plan.mem_remaining_iff _ _).mp member).1
  · obtain ⟨position, below, -, rfl⟩ := exists_of_mem_definitions document member
    refine (definedContent_eq below).imp_right ?_
    rintro ⟨definer, inside, same⟩
    obtain ⟨inner, increasing, within, listed⟩ :=
      (plan document.mentions).mentions_contentAt document inside
    refine ⟨definer, inside, same, inner, increasing, within, ?_⟩
    rw [same, plannedContent, listed]
    exact labels_eq few fun own member => (within own member).2.trans inside

namespace Example

/-- A footnote as it is written, without a number. -/
def note (key : Option String) (content : List Inline) : Inline :=
  .footnote content key none .unknown

/-- The title refers ahead to `a`; the definer of `a` holds a footnote without a key; a later
mention of `a` is dropped, and with it the definer of `b`. -/
def nested : Document where
  attributes := .empty
  header := some ⟨[note (some "a") []], .unknown⟩
  blocks :=
    [.paragraph .empty
      [note (some "a") [.ofText "x", note none [.ofText "y"]],
        note (some "a") [note (some "b") [.ofText "z"]]],
      .quote .empty none none [.paragraph .empty [note (some "b") []]]]

/-- Three numbers, six mentions, five nodes left. -/
theorem nested_numbers :
    allocations nested.mentions < 2 ^ 32 - 1 ∧
      (resolveDocument nested).definitions.length = 3 ∧
      (resolveDocument nested).document.mentions.map Mention.label =
        [(some "a", some 1), (none, some 2), (some "a", some 1), (some "a", some 1),
          (some "b", some 3)] := by
  have few : allocations nested.mentions < 2 ^ 32 - 1 := by decide
  obtain ⟨length, -, -, labels, -⟩ := resolveDocument_numbers nested few
  refine ⟨few, length.trans (by decide), labels.trans (by decide)⟩

end Example

end Rendition.Footnote
