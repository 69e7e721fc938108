/-
# Rendition.Proofs.Footnote.Mention -- the mentions of a document, and plans for them

A *mention* is a footnote node.  The mentions of a document are listed in
visiting order: passage by passage, and inside a footnote the mentions of its
content before the footnote itself.  The position in this list is the name of a
mention; keys and contents may repeat, positions do not.

A `Plan` says for every position which number the mention gets and whether it
keeps its content.  `Plan.document` carries a plan out by counting positions and
knows nothing else: no keys, no ledger.  This is the second phase of numbering
in two phases; the first phase, which makes the plan from the list, is
`Rendition.Proofs.Footnote.Rank`.
-/
import Rendition.Footnote.Resolve

namespace Rendition

set_option autoImplicit false

/-- A footnote node, without its span. -/
structure Footnote.Mention where
  key : Option String
  id : Option UInt32
  content : List Inline

open Footnote (Mention)

mutual

/-- The mentions in a node, those inside a footnote before the footnote. -/
def Inline.mentions : Inline → List Mention
  | .styled _ content _ | .link _ content _ | .crossReference _ content _ =>
      Inline.mentionsAll content
  | .footnote content key id _ => Inline.mentionsAll content ++ [⟨key, id, content⟩]
  | .text _ _ | .math _ _ _ | .passthrough _ _ | .command _ _ | .indexTerm _ _ _ => []

def Inline.mentionsAll : List Inline → List Mention
  | [] => []
  | inline :: rest => inline.mentions ++ Inline.mentionsAll rest

end

/-- The mentions of a document in visiting order.  Tables have no passages. -/
def Document.mentions (document : Document) : List Mention :=
  document.passages.flatMap Inline.mentionsAll

theorem Inline.mentionsAll_append (first second : List Inline) :
    Inline.mentionsAll (first ++ second) =
      Inline.mentionsAll first ++ Inline.mentionsAll second := by
  induction first with
  | nil => rfl
  | cons inline rest ih => rw [List.cons_append, mentionsAll, ih, mentionsAll, List.append_assoc]

theorem Inline.mentionsAll_flatten (passages : List (List Inline)) :
    Inline.mentionsAll passages.flatten = passages.flatMap Inline.mentionsAll := by
  induction passages with
  | nil => rfl
  | cons passage rest ih =>
      rw [List.flatten_cons, mentionsAll_append, ih, List.flatMap_cons]

/-- A list of mentions stands in another from a position on. -/
def Footnote.StandsAt (mentions part : List Mention) (position : Nat) : Prop :=
  ∀ index (inside : index < part.length), mentions[position + index]? = some part[index]

namespace Footnote.StandsAt

variable {mentions first second : List Mention} {position : Nat}

theorem self (mentions : List Mention) : StandsAt mentions mentions 0 := by
  intro index inside
  rw [Nat.zero_add, List.getElem?_eq_getElem inside]

theorem left (stands : StandsAt mentions (first ++ second) position) :
    StandsAt mentions first position := by
  intro index inside
  have inside' : index < (first ++ second).length := by
    rw [List.length_append]; omega
  rw [stands index inside', List.getElem_append_left inside]

theorem right (stands : StandsAt mentions (first ++ second) position) :
    StandsAt mentions second (position + first.length) := by
  intro index inside
  have inside' : first.length + index < (first ++ second).length := by
    rw [List.length_append]; omega
  rw [Nat.add_assoc, stands _ inside', List.getElem_append_right (Nat.le_add_right _ _)]
  simp only [Nat.add_sub_cancel_left]

/-- The only mention of a list that stands at a position is the mention at that position. -/
theorem head {mention : Mention} (stands : StandsAt mentions [mention] position) :
    mentions[position]? = some mention :=
  stands 0 Nat.zero_lt_one

end Footnote.StandsAt

/-- The position of the first mention inside the one at a position: the mentions of its content
stand directly before it. -/
def Footnote.contentStart (mentions : List Mention) (position : Nat) : Nat :=
  position - (mentions[position]?.elim 0 fun mention =>
    (Inline.mentionsAll mention.content).length)

theorem Footnote.contentStart_of_getElem? {mentions : List Mention} {position : Nat}
    {mention : Mention} (found : mentions[position]? = some mention) :
    contentStart mentions position =
      position - (Inline.mentionsAll mention.content).length := by
  rw [contentStart, found, Option.elim_some]

/-! ## Plans -/

/-- What becomes of the mention at each position: its number, and whether it keeps its content. -/
structure Footnote.Plan where
  number : Nat → Nat
  keeps : Nat → Bool

namespace Footnote.Plan

variable (plan : Plan)

mutual

/-- A node whose mentions are as planned, the first of them at a position; and the position after
the last of them. -/
def apply : Inline → Nat → Inline × Nat
  | .styled style content span, position =>
      let (content, position) := applyAll content position
      (.styled style content span, position)
  | .link target content span, position =>
      let (content, position) := applyAll content position
      (.link target content span, position)
  | .crossReference target content span, position =>
      let (content, position) := applyAll content position
      (.crossReference target content span, position)
  | .footnote content key _ span, position =>
      let (content, position) := applyAll content position
      (.footnote (if plan.keeps position then content else []) key
        (some (UInt32.ofNat (plan.number position))) span, position + 1)
  | .text body span, position => (.text body span, position)
  | .math formula display span, position => (.math formula display span, position)
  | .passthrough body span, position => (.passthrough body span, position)
  | .command named span, position => (.command named span, position)
  | .indexTerm terms visible span, position => (.indexTerm terms visible span, position)

def applyAll : List Inline → Nat → List Inline × Nat
  | [], position => ([], position)
  | inline :: rest, position =>
      let (inline, position) := apply inline position
      let (rest, position) := applyAll rest position
      (inline :: rest, position)

end

/-- A document whose mentions are as planned, counted from zero. -/
def document (document : Document) : Document :=
  (Revision.document plan.applyAll document 0).1

/-- The planned content of the mention at a position of a list, as it is before the mention itself
drops it. -/
def contentAt (mentions : List Mention) (position : Nat) : List Inline :=
  match mentions[position]? with
  | some mention => (plan.applyAll mention.content (contentStart mentions position)).1
  | none => []

mutual

/-- A plan counts exactly the mentions. -/
theorem apply_snd (inline : Inline) (position : Nat) :
    (plan.apply inline position).2 = position + inline.mentions.length := by
  cases inline with
  | styled | link | crossReference => simp [apply, Inline.mentions, applyAll_snd]
  | footnote => simp [apply, Inline.mentions, applyAll_snd, Nat.add_assoc]
  | _ => simp [apply, Inline.mentions]

theorem applyAll_snd (content : List Inline) (position : Nat) :
    (plan.applyAll content position).2 = position + (Inline.mentionsAll content).length := by
  cases content with
  | nil => simp [applyAll, Inline.mentionsAll]
  | cons inline rest =>
      simp [applyAll, Inline.mentionsAll, apply_snd inline, applyAll_snd rest, Nat.add_assoc]

end

@[simp] theorem length_applyAll (content : List Inline) (position : Nat) :
    (plan.applyAll content position).1.length = content.length := by
  induction content generalizing position with
  | nil => rfl
  | cons inline rest ih => simp [applyAll, ih]

/-- A sequence is planned from where the mentions of the sequence before it end. -/
theorem applyAll_append (first second : List Inline) (position : Nat) :
    (plan.applyAll (first ++ second) position).1 =
      (plan.applyAll first position).1 ++
        (plan.applyAll second (position + (Inline.mentionsAll first).length)).1 := by
  induction first generalizing position with
  | nil => rfl
  | cons inline rest ih =>
      simp [applyAll, ih, apply_snd, Inline.mentionsAll, Nat.add_assoc]

/-- A plan counts on from passage to passage. -/
theorem flatten_all_applyAll (passages : List (List Inline)) (position : Nat) :
    (Revision.all plan.applyAll passages position).1.flatten =
      (plan.applyAll passages.flatten position).1 := by
  induction passages generalizing position with
  | nil => rfl
  | cons passage rest ih =>
      simp only [Revision.all, List.flatten_cons, applyAll_append, applyAll_snd, ih]

/-- Carried out on a document, a plan is carried out on its content in reading order. -/
theorem flatten_passages_document (d : Document) :
    (plan.document d).passages.flatten = (plan.applyAll d.passages.flatten 0).1 := by
  have passages : (plan.document d).passages =
      (Revision.all plan.applyAll d.passages 0).1 := by
    rw [Revision.document_passages]
    rfl
  rw [passages, flatten_all_applyAll]

/-- No plan makes content of nothing or nothing of content. -/
theorem contentAt_eq_nil_iff {mentions : List Mention} {position : Nat} {mention : Mention}
    (found : mentions[position]? = some mention) :
    plan.contentAt mentions position = [] ↔ mention.content = [] := by
  rw [contentAt, found, ← List.length_eq_zero_iff, length_applyAll, List.length_eq_zero_iff]

end Footnote.Plan

end Rendition
