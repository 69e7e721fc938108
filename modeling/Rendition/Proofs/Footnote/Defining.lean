/-
# Rendition.Proofs.Footnote.Defining -- which mention defines a footnote

The definition of a footnote without a key is its own content; the definition of
a key is the content of the definer of the key, the first mention with content,
and is empty as long as no mention has any.  The definer is the one mention of
the key that keeps its content in the document, so a number never shows two
contents, and what it shows is the definition (`resolveDocument_defines`).

The counting half needs that different numbers are different ids, and so that
the numbers fit their type.
-/
import Rendition.Proofs.Footnote.Numbering

namespace Rendition.Footnote

set_option autoImplicit false

variable {mentions : List Mention}

/-- Whether a node shows content under an id. -/
def Mention.defines (id : UInt32) (node : Mention) : Bool :=
  node.id == some id && ! node.content.isEmpty

/-- With few enough footnotes every number fits in 32 bits. -/
theorem rank_lt (few : allocations mentions < 2 ^ 32 - 1) {position : Nat}
    (inside : position < mentions.length) : rank mentions position < 2 ^ 32 := by
  have le := rank_le_allocations inside
  omega

/-- Numbers that fit are known by their ids. -/
theorem rank_eq_of_ofNat_eq (few : allocations mentions < 2 ^ 32 - 1) {position other : Nat}
    (inside : position < mentions.length) (insideOther : other < mentions.length)
    (same : UInt32.ofNat (rank mentions position) = UInt32.ofNat (rank mentions other)) :
    rank mentions position = rank mentions other := by
  have equal := congrArg UInt32.toNat same
  rwa [UInt32.toNat_ofNat_of_lt' (rank_lt few inside),
    UInt32.toNat_ofNat_of_lt' (rank_lt few insideOther)] at equal

/-- A node shows content exactly if its mention keeps some. -/
theorem defines_mentionAt_iff {position : Nat} {id : UInt32} (inside : position < mentions.length) :
    ((plan mentions).mentionAt mentions position).defines id ↔
      UInt32.ofNat (rank mentions position) = id ∧
        keeps mentions position ∧ hasContent mentions position := by
  have bare := plannedContent_eq_nil_iff inside
  rw [plannedContent] at bare
  simp only [Mention.defines, Plan.mentionAt, plan, Bool.and_eq_true, beq_iff_eq,
    Option.some.injEq, Bool.not_eq_true', List.isEmpty_eq_false_iff]
  refine and_congr_right fun _ => ?_
  by_cases kept : keeps mentions position
  · simp only [kept, if_true, true_and, ne_eq]
    rw [show (⟨rank mentions, keeps mentions⟩ : Plan) = plan mentions from rfl, bare, not_not]
  · simp [kept]

/-- The positions of the mentions that show content under an id. -/
def showing (mentions : List Mention) (id : UInt32) : List Nat :=
  ((plan mentions).remaining mentions).filter fun position =>
    ((plan mentions).mentionAt mentions position).defines id

/-- A mention shows content under an id if it remains, has that number, and keeps content. -/
theorem mem_showing_iff {position : Nat} {id : UInt32} :
    position ∈ showing mentions id ↔
      position < mentions.length ∧ (plan mentions).Remains mentions position ∧
        UInt32.ofNat (rank mentions position) = id ∧
          keeps mentions position ∧ hasContent mentions position := by
  rw [showing, List.mem_filter, Plan.mem_remaining_iff, and_assoc]
  refine and_congr_right fun inside => and_congr_right fun _ => ?_
  exact defines_mentionAt_iff inside

/-- Only one mention shows content under an id. -/
theorem eq_of_mem_showing (few : allocations mentions < 2 ^ 32 - 1) {position other : Nat}
    {id : UInt32} (member : position ∈ showing mentions id)
    (memberOther : other ∈ showing mentions id) : position = other := by
  obtain ⟨inside, -, ranked, kept, -⟩ := mem_showing_iff.mp member
  obtain ⟨insideOther, -, rankedOther, keptOther, -⟩ := mem_showing_iff.mp memberOther
  have ranks := rank_eq_of_ofNat_eq few inside insideOther (ranked.trans rankedOther.symm)
  exact eq_of_keeps kept keptOther (rank_eq_rank_iff.mp ranks)

theorem length_le_one_of_pairwise {positions : List Nat} (increasing : positions.Pairwise (· < ·))
    (same : ∀ first ∈ positions, ∀ second ∈ positions, first = second) :
    positions.length ≤ 1 := by
  match positions with
  | [] => exact Nat.zero_le 1
  | [_] => exact le_rfl
  | first :: second :: rest =>
      have less : first < second :=
        (List.pairwise_cons.mp increasing).1 second List.mem_cons_self
      have equal := same first List.mem_cons_self second (List.mem_cons_of_mem _ List.mem_cons_self)
      exact absurd equal (Nat.ne_of_lt less)

/-- A number that fits is shown with content at one place at most: only its definer keeps any. -/
theorem length_showing_le (few : allocations mentions < 2 ^ 32 - 1) (id : UInt32) :
    (showing mentions id).length ≤ 1 :=
  length_le_one_of_pairwise (((plan mentions).pairwise_remaining mentions).filter _)
    fun _ member _ memberOther => eq_of_mem_showing few member memberOther

/-! ## Documents -/

/-- The nodes of a numbered document are the remaining mentions as planned. -/
theorem mentions_resolveDocument (d : Document) :
    (resolveDocument d).document.mentions =
      ((plan d.mentions).remaining d.mentions).map ((plan d.mentions).mentionAt d.mentions) := by
  rw [document_resolveDocument, Plan.mentions_document]

/-- The nodes that define an id, as the plan leaves the mentions that show it. -/
theorem filter_defines (d : Document) (id : UInt32) :
    (resolveDocument d).document.mentions.filter (Mention.defines id) =
      (showing d.mentions id).map ((plan d.mentions).mentionAt d.mentions) := by
  rw [mentions_resolveDocument, List.filter_map]
  rfl

/-- The content defined for a number of a document. -/
def definitionOf (d : Document) (number : Nat) : Option (List Inline) :=
  (resolveDocument d).definitions[number - 1]?.map Definition.content

/-- Under the number of a mention the content of its definer is stored. -/
theorem definitionOf_rank (d : Document) {position : Nat} (inside : position < d.mentions.length) :
    definitionOf d (rank d.mentions position) = some (definedContent d.mentions position) := by
  rw [definitionOf, getElem?_definitions d inside, Option.map_some]

/-- What a mention shows under its number is the definition of the number. -/
theorem definitionOf_of_mem_showing (d : Document) (few : allocations d.mentions < 2 ^ 32 - 1)
    {position : Nat} {id : UInt32} (member : position ∈ showing d.mentions id) :
    definitionOf d id.toNat =
      some ((plan d.mentions).mentionAt d.mentions position).content := by
  obtain ⟨inside, -, rfl, kept, -⟩ := mem_showing_iff.mp member
  have shown : (plan d.mentions).keeps position = true := kept
  rw [UInt32.toNat_ofNat_of_lt' (rank_lt few inside), definitionOf_rank d inside, definedContent,
    keeps_iff.mp kept, Option.elim_some, Plan.mentionAt]
  simp only [shown, if_true, plannedContent]

/-- **What defines a footnote.**  A footnote without a key is defined by its own content, a key by
the content of its first mention with content, and by nothing if there is none.  That mention keeps
its content and the other mentions of the key lose theirs.  So at most one node shows content under
an id, and shows the definition of that id. -/
theorem resolveDocument_defines (document : Document) :
    (∀ position < document.mentions.length, keyAt document.mentions position = none →
      definitionOf document (rank document.mentions position) =
          some (plannedContent document.mentions position) ∧
        keeps document.mentions position) ∧
      (∀ position key, keyAt document.mentions position = some key →
        definitionOf document (rank document.mentions position) =
            some ((definer? document.mentions key).elim [] (plannedContent document.mentions)) ∧
          (keeps document.mentions position ↔ definer? document.mentions key = some position)) ∧
      (resolveDocument document).document = (plan document.mentions).document document ∧
      (resolveDocument document).document.mentions =
        ((plan document.mentions).remaining document.mentions).map
          ((plan document.mentions).mentionAt document.mentions) ∧
      (allocations document.mentions < 2 ^ 32 - 1 → ∀ id,
        ((resolveDocument document).document.mentions.filter (Mention.defines id)).length ≤ 1 ∧
          ∀ node ∈ (resolveDocument document).document.mentions, node.defines id →
            definitionOf document id.toNat = some node.content) := by
  refine ⟨fun position inside anonymous => ?_, fun position key keyed => ?_,
    document_resolveDocument document, mentions_resolveDocument document, fun few id => ⟨?_, ?_⟩⟩
  · have own := definerAt?_of_anonymous anonymous
    refine ⟨?_, keeps_iff.mpr own⟩
    rw [definitionOf_rank document inside, definedContent, own, Option.elim_some]
  · have own := definerAt?_of_keyAt keyed
    refine ⟨?_, by rw [keeps_iff, own]⟩
    rw [definitionOf_rank document (lt_length_of_keyAt keyed), definedContent, own]
  · rw [filter_defines, List.length_map]
    exact length_showing_le few id
  · intro node member defines
    have shown : node ∈ (resolveDocument document).document.mentions.filter (Mention.defines id) :=
      List.mem_filter.mpr ⟨member, defines⟩
    rw [filter_defines, List.mem_map] at shown
    obtain ⟨position, showing, rfl⟩ := shown
    exact definitionOf_of_mem_showing document few showing

/-- The forward reference to `a` is defined by the mention that keeps its content; the later one is
dropped; `b` is defined although its definer does not remain. -/
theorem Example.nested_defines :
    allocations Example.nested.mentions < 2 ^ 32 - 1 ∧
      (definitionOf Example.nested 1).map List.length = some 2 ∧
      (definitionOf Example.nested 3).map List.length = some 1 ∧
      (List.range 6).filter (keeps Example.nested.mentions) = [1, 2, 3] ∧
      ∀ id, ((resolveDocument Example.nested).document.mentions.filter
        (Mention.defines id)).length ≤ 1 := by
  have few : allocations Example.nested.mentions < 2 ^ 32 - 1 := by decide
  obtain ⟨-, keyed, -, -, shown⟩ := resolveDocument_defines Example.nested
  have a := (keyed 0 "a" (by decide)).1
  have b := (keyed 5 "b" (by decide)).1
  rw [show rank Example.nested.mentions 0 = 1 by decide] at a
  rw [show rank Example.nested.mentions 5 = 3 by decide] at b
  rw [a, b]
  exact ⟨few, by decide, by decide, by decide, fun id => (shown few id).1⟩

end Rendition.Footnote
