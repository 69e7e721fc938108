/-
# Rendition.Proofs.Index.Occurrence -- the index of a document with numbered footnotes

The index of a document is collected after its footnotes have been numbered, and
numbering drops the contents of some footnotes.  An *occurrence* is an index term
of the document as it was written, with the positions of the mentions that it
stands in.  The index keeps the occurrences all of whose mentions keep their
contents, in reading order (`terms_document`), and loses the others.

So numbering and collecting agree on where content is: no passage that one of
them visits is missed by the other.
-/
import Rendition.Proofs.Footnote.Numbering
import Rendition.Proofs.Index.Listed
import Rendition.Index.Collect

namespace Rendition

set_option autoImplicit false

/-- An index term, with the positions of the mentions around it. -/
structure Index.Occurrence where
  levels : List String
  around : List Nat

namespace Index.Occurrence

/-- The occurrence inside one more mention. -/
def within (occurrence : Occurrence) (position : Nat) : Occurrence :=
  { occurrence with around := position :: occurrence.around }

/-- Whether all mentions around the occurrence keep their contents. -/
def remains (keeps : Nat → Bool) (occurrence : Occurrence) : Bool := occurrence.around.all keeps

@[simp] theorem levels_within (occurrence : Occurrence) (position : Nat) :
    (occurrence.within position).levels = occurrence.levels := rfl

@[simp] theorem remains_within (keeps : Nat → Bool) (occurrence : Occurrence) (position : Nat) :
    (occurrence.within position).remains keeps =
      (keeps position && occurrence.remains keeps) := rfl

end Index.Occurrence

open Index (Occurrence terms termsAll)
open Footnote (Mention Plan StandsAt)

mutual

/-- The index terms in a node, whose first mention has a position. -/
def Inline.occurrences : Inline → Nat → List Occurrence
  | .indexTerm levels _ _, _ => [⟨levels, []⟩]
  | .styled _ content _, position | .link _ content _, position
  | .crossReference _ content _, position => Inline.occurrencesAll content position
  | .footnote content _ _ _, position =>
      (Inline.occurrencesAll content position).map
        (·.within (position + (Inline.mentionsAll content).length))
  | .text _ _, _ | .math _ _ _, _ | .passthrough _ _, _ | .command _ _, _ => []

def Inline.occurrencesAll : List Inline → Nat → List Occurrence
  | [], _ => []
  | inline :: rest, position =>
      inline.occurrences position ++ Inline.occurrencesAll rest (position + inline.mentions.length)

end

/-- The index terms of a document in reading order, positions being those of its mentions.  Tables
have no passages. -/
def Document.occurrences (document : Document) : List Occurrence :=
  Inline.occurrencesAll document.passages.flatten 0

/-! ## Index terms of content -/

namespace Index

theorem termsAll_append (first second : List Inline) :
    termsAll (first ++ second) = termsAll first ++ termsAll second := by
  induction first with
  | nil => rfl
  | cons inline rest ih => rw [List.cons_append, termsAll, ih, termsAll, List.append_assoc]

theorem termsAll_flatten (passages : List (List Inline)) :
    termsAll passages.flatten = passages.flatMap termsAll := by
  induction passages with
  | nil => rfl
  | cons passage rest ih => rw [List.flatten_cons, termsAll_append, ih, List.flatMap_cons]

mutual

/-- The occurrences in a node are its index terms in their order. -/
theorem levels_occurrences (inline : Inline) (position : Nat) :
    (inline.occurrences position).map Occurrence.levels = terms inline := by
  cases inline with
  | styled _ content _ | link _ content _ | crossReference _ content _ =>
      exact levels_occurrencesAll content position
  | footnote content key id span =>
      rw [Inline.occurrences, terms, List.map_map]
      exact levels_occurrencesAll content position
  | indexTerm | text | math | passthrough | command => rfl

/-- The occurrences of a sequence are its index terms, in order. -/
theorem levels_occurrencesAll (content : List Inline) (position : Nat) :
    (Inline.occurrencesAll content position).map Occurrence.levels = termsAll content := by
  match content with
  | [] => rfl
  | inline :: rest =>
      rw [Inline.occurrencesAll, termsAll, List.map_append, levels_occurrences inline,
        levels_occurrencesAll rest]

end

mutual

/-- Carried out, a plan leaves the occurrences whose mentions keep their contents. -/
theorem terms_apply (plan : Plan) (inline : Inline) (position : Nat) :
    terms (plan.apply inline position).1 =
      ((inline.occurrences position).filter (·.remains plan.keeps)).map Occurrence.levels := by
  cases inline with
  | styled _ content _ | link _ content _ | crossReference _ content _ =>
      exact termsAll_applyAll plan content position
  | footnote content key id span =>
      have inner := termsAll_applyAll plan content position
      simp only [Plan.apply, Plan.applyAll_snd, Inline.occurrences, terms, List.filter_map,
        List.map_map]
      by_cases kept : plan.keeps (position + (Inline.mentionsAll content).length)
      · simp only [kept, if_true, Function.comp_def, Occurrence.remains_within, Bool.true_and,
          Occurrence.levels_within, inner]
      · simp only [kept, Function.comp_def, Occurrence.remains_within, Bool.false_and,
          List.filter_false, List.map_nil]
        rfl
  | indexTerm | text | math | passthrough | command => rfl

/-- A planned sequence has the terms that no dropped content is around. -/
theorem termsAll_applyAll (plan : Plan) (content : List Inline) (position : Nat) :
    termsAll (plan.applyAll content position).1 =
      ((Inline.occurrencesAll content position).filter (·.remains plan.keeps)).map
        Occurrence.levels := by
  match content with
  | [] => rfl
  | inline :: rest =>
      simp only [Plan.applyAll, termsAll, Inline.occurrencesAll, List.filter_append,
        List.map_append, Plan.apply_snd, terms_apply plan inline, termsAll_applyAll plan rest]

end

mutual

/-- The mentions around an occurrence hold its term in their contents. -/
theorem exists_mention_of_around {mentions : List Mention} (inline : Inline) {position : Nat}
    (stands : StandsAt mentions inline.mentions position) {occurrence : Occurrence}
    (inside : occurrence ∈ inline.occurrences position) {outer : Nat}
    (around : outer ∈ occurrence.around) :
    ∃ mention, mentions[outer]? = some mention ∧
      occurrence.levels ∈ termsAll mention.content := by
  cases inline with
  | styled _ content _ | link _ content _ | crossReference _ content _ =>
      exact exists_mention_of_aroundAll content stands inside around
  | footnote content key id span =>
      obtain ⟨inner, listed, rfl⟩ := List.mem_map.mp inside
      rcases List.mem_cons.mp around with rfl | further
      · -- the mention itself, which stands directly after its content
        refine ⟨_, stands.right.head, ?_⟩
        rw [← levels_occurrencesAll content position]
        exact List.mem_map.mpr ⟨inner, listed, rfl⟩
      · exact exists_mention_of_aroundAll content stands.left listed further
  | indexTerm levels visible span =>
      rw [List.mem_singleton.mp inside] at around
      exact absurd around List.not_mem_nil
  | text | math | passthrough | command => exact absurd inside List.not_mem_nil

theorem exists_mention_of_aroundAll {mentions : List Mention} (content : List Inline)
    {position : Nat} (stands : StandsAt mentions (Inline.mentionsAll content) position)
    {occurrence : Occurrence} (inside : occurrence ∈ Inline.occurrencesAll content position)
    {outer : Nat} (around : outer ∈ occurrence.around) :
    ∃ mention, mentions[outer]? = some mention ∧
      occurrence.levels ∈ termsAll mention.content := by
  match content with
  | [] => exact absurd inside List.not_mem_nil
  | inline :: rest =>
      rcases List.mem_append.mp inside with first | later
      · exact exists_mention_of_around inline stands.left first around
      · exact exists_mention_of_aroundAll rest stands.right later around

end

/-! ## Documents -/

/-- The occurrences of a document are the terms of its passages. -/
theorem levels_occurrences_document (document : Document) :
    document.occurrences.map Occurrence.levels = document.passages.flatMap termsAll := by
  rw [Document.occurrences, levels_occurrencesAll, termsAll_flatten]

/-- The index terms of a document on which a plan was carried out. -/
theorem terms_document (plan : Plan) (document : Document) :
    (plan.document document).passages.flatMap termsAll =
      (document.occurrences.filter (·.remains plan.keeps)).map Occurrence.levels := by
  rw [← termsAll_flatten, Plan.flatten_passages_document, termsAll_applyAll,
    Document.occurrences]

/-- The index terms that the numbered document has are those whose mentions keep their contents. -/
theorem terms_resolveDocument (document : Document) :
    (Footnote.resolveDocument document).document.passages.flatMap termsAll =
      (document.occurrences.filter
        (·.remains (Footnote.keeps document.mentions))).map Occurrence.levels := by
  rw [Footnote.document_resolveDocument, terms_document]
  rfl

/-- An occurrence remains if no mention of a key holds an index term. -/
theorem remains_of_anonymous {document : Document}
    (bare : ∀ mention ∈ document.mentions, mention.key.isSome → termsAll mention.content = [])
    {occurrence : Occurrence} (inside : occurrence ∈ document.occurrences) :
    occurrence.remains (Footnote.keeps document.mentions) := by
  have stands : StandsAt document.mentions (Inline.mentionsAll document.passages.flatten) 0 := by
    rw [Inline.mentionsAll_flatten]
    exact StandsAt.self document.mentions
  rw [Occurrence.remains, List.all_eq_true]
  intro outer around
  obtain ⟨mention, found, holds⟩ := exists_mention_of_aroundAll _ stands inside around
  have anonymous : mention.key = none := by
    by_contra keyed
    have nothing := bare mention (List.mem_of_getElem? found) (Option.isSome_iff_ne_none.mpr keyed)
    rw [nothing] at holds
    exact List.not_mem_nil holds
  apply Footnote.keeps_iff.mpr
  apply Footnote.definerAt?_of_anonymous
  rw [Footnote.keyAt_of_getElem? found, anonymous]

/-- **The index of a numbered document is that of what its footnotes keep.**  The occurrences of a
document are its index terms in reading order, outside tables.  Numbering carries out the plan of
the document, and the terms of its result are, in their order, those occurrences of which no mention
around is to lose its content; the index is made of these.  It lists nothing that the document as
written does not list, and the same if no footnote with a key holds an index term. -/
theorem index_resolveDocument (document : Document) :
    document.occurrences.map Occurrence.levels = document.passages.flatMap termsAll ∧
      (Footnote.resolveDocument document).document =
        (Footnote.plan document.mentions).document document ∧
      (Footnote.resolveDocument document).document.passages.flatMap termsAll =
        (document.occurrences.filter fun occurrence =>
          occurrence.around.all (Footnote.plan document.mentions).keeps).map Occurrence.levels ∧
      collect (Footnote.resolveDocument document).document =
        .ofTerms ((document.occurrences.filter fun occurrence =>
          occurrence.around.all (Footnote.plan document.mentions).keeps).map Occurrence.levels) ∧
      (∀ path, (collect (Footnote.resolveDocument document).document).Lists path →
        (collect document).Lists path) ∧
      ((∀ mention ∈ document.mentions, mention.key.isSome → termsAll mention.content = []) →
        collect (Footnote.resolveDocument document).document = collect document) := by
  have all := levels_occurrences_document document
  have terms := terms_resolveDocument document
  have collected := congrArg Catalog.ofTerms terms
  change collect (Footnote.resolveDocument document).document = _ at collected
  refine ⟨all, Footnote.document_resolveDocument document, terms, collected, ?_, ?_⟩
  · intro path listed
    rw [collected] at listed
    rw [collect, ← all]
    refine lists_of_subset ?_ listed
    intro term inside
    obtain ⟨occurrence, remains, rfl⟩ := List.mem_map.mp inside
    exact List.mem_map_of_mem (List.mem_filter.mp remains).1
  · intro bare
    have whole : document.occurrences.filter (·.remains (Footnote.keeps document.mentions)) =
        document.occurrences :=
      List.filter_eq_self.mpr fun _ inside => remains_of_anonymous bare inside
    rw [collected, whole, all, collect]

namespace Example

open Footnote.Example (note)

/-- A term in a footnote without a key, a term in the text, and a key with two contents. -/
def noted : Document where
  attributes := .empty
  header := none
  blocks :=
    [.paragraph .empty
      [note none [.indexTerm ["b"] true .unknown], .indexTerm ["a"] false .unknown],
      .quote .empty none none
        [.paragraph .empty [note (some "k") [.ofText "x"], note (some "k") [.ofText "y"]]]]

/-- The second content of the key is dropped, and the index is the same with and without it. -/
theorem noted_index :
    (∀ mention ∈ noted.mentions, mention.key.isSome → termsAll mention.content = []) ∧
      (Footnote.plan noted.mentions).keeps 2 = false ∧
      collect (Footnote.resolveDocument noted).document = collect noted ∧
      (collect noted).entries = [⟨"a", []⟩, ⟨"b", []⟩] := by
  have bare : ∀ mention ∈ noted.mentions,
      mention.key.isSome → termsAll mention.content = [] := by decide
  have stored : (collect noted).stored = [⟨"a", []⟩, ⟨"b", []⟩] := by decide
  refine ⟨bare, by decide, (index_resolveDocument noted).2.2.2.2.2 bare, ?_⟩
  rw [Catalog.entries, stored]
  rfl

/-- A dropped content takes the terms in it along. -/
example :
    let dropped : Document :=
      ⟨.empty, some ⟨[note (some "k") [.ofText "x"]], .unknown⟩,
        [.paragraph .empty [note (some "k") [.indexTerm ["b"] true .unknown]]]⟩
    (collect dropped).stored = [⟨"b", []⟩] ∧
      (collect (Footnote.resolveDocument dropped).document).stored = [] := by decide

end Example

end Index

end Rendition
