/-
# Rendition.Proofs.Renderer.Anchors -- how often a context anchors a footnote

In HTML a footnote has its anchor where its content is shown.  The walk over the
blocks shows every passage once, and it shows nothing else that has footnotes if
the titles of tables have none; the list of footnotes shows every definition once
more.  So an anchor stands in a context as often as nodes of the document and of
the definitions define its number (`timesAnchored_context`), and at most once in
the title and the blocks.

Contents in the list stand outside of the document, so a footnote that another
one holds can be anchored in both; that it is not has an exact condition
(`anchored_once_iff`).
-/
import Rendition.Proofs.Footnote.Holding
import Rendition.Proofs.Markup.Anchors
import Rendition.Proofs.Renderer.WellFormed
import Rendition.Proofs.Tree.Titles

namespace Rendition

set_option autoImplicit false

open Rendition.Markup
open Footnote (Mention Definition Resolved resolveDocument allocations)

/-- How often texts give the anchor of a footnote. -/
def Html.timesAnchored (id : UInt32) (texts : List String) : Nat :=
  (texts.flatMap attributes).count ("id", footnoteAnchor id)

open Html (timesAnchored)

theorem Html.timesAnchored_append (id : UInt32) (first second : List String) :
    timesAnchored id (first ++ second) = timesAnchored id first + timesAnchored id second := by
  rw [timesAnchored, List.flatMap_append, List.count_append]
  rfl

/-- The markup in the context of a document besides that of its footnotes. -/
def Value.bodyMarkups : Value → List String
  | .map entries =>
      markupsOfEntries (entries.filter fun entry => entry.1 != "title" && entry.1 != "footnotes")
  | _ => []

/-! ## Table cells -/

namespace Cell

theorem mentionsAll_prependChar (c : Char) (nodes : List Inline) :
    Inline.mentionsAll (prependChar c nodes) = Inline.mentionsAll nodes := by
  unfold prependChar
  split
  · rfl
  · rfl

/-- No table cell holds a footnote. -/
theorem mentionsAll_parseFrom (before : Option Char) (cs : List Char) :
    Inline.mentionsAll (parseFrom before cs) = [] := by
  fun_induction parseFrom before cs with
  | case1 before cs style inside rest found inner outer =>
      show Inline.mentionsAll _ ++ _ = []
      rw [inner, outer, List.append_nil]
  | case2 => rfl
  | case3 before c rest found ih => rw [mentionsAll_prependChar, ih]

/-- A table cell has no footnotes. -/
theorem mentionsAll_parse (text : String) : Inline.mentionsAll (parse text) = [] :=
  mentionsAll_parseFrom none text.toList

end Cell

/-! ## Entries -/

namespace Value

variable {id : UInt32}

variable (id) in
/-- The context of a part anchors a footnote once for each node in passages that defines it. -/
def Anchors (value : Value) (passages : List (List Inline)) : Prop :=
  timesAnchored id value.markups =
    (passages.flatMap Inline.mentionsAll).countP (Mention.defines id)

theorem anchors_nil {value : Value} (same : value.markups = []) : value.Anchors id [] := by
  rw [Anchors, same]
  rfl

theorem anchors_singleton {value : Value} {text : String} {content : List Inline}
    (same : value.markups = [text])
    (has : HasAnchors (Html.footnoteAnchor id) text
      ((Inline.mentionsAll content).countP (Mention.defines id))) :
    value.Anchors id [content] := by
  rw [Anchors, same, timesAnchored, List.flatMap_singleton, List.flatMap_singleton]
  exact has.countAnchors_eq

/-- A content without footnotes need not be counted. -/
theorem Anchors.bare {value : Value} {content : List Inline}
    {passages : List (List Inline)} (anchors : value.Anchors id (content :: passages))
    (noteless : Inline.mentionsAll content = []) : value.Anchors id passages := by
  rwa [Anchors, List.flatMap_cons, noteless, List.nil_append] at anchors

theorem anchors_text {value : Value} {text : String} (same : value.markups = [text])
    (has : HasAnchors (Html.footnoteAnchor id) text 0) : value.Anchors id [] := by
  have shown : value.Anchors id [[]] := anchors_singleton same has
  exact shown.bare rfl

/-- The entries of a map anchor what each of them anchors. -/
theorem anchors_append {first second : List (String × Value)} {passages more : List (List Inline)}
    (left : (Value.map first).Anchors id passages) (right : (Value.map second).Anchors id more) :
    (Value.map (first ++ second)).Anchors id (passages ++ more) := by
  rw [Anchors, markups, markupsOfEntries_append, Html.timesAnchored_append, List.flatMap_append,
    List.countP_append]
  exact congrArg₂ (· + ·) left right

theorem anchors_list_cons {value : Value} {rest : List Value} {passages more : List (List Inline)}
    (first : value.Anchors id passages) (others : (Value.list rest).Anchors id more) :
    (Value.list (value :: rest)).Anchors id (passages ++ more) := by
  rw [Anchors, markups, markupsOfItems, Html.timesAnchored_append, List.flatMap_append,
    List.countP_append]
  exact congrArg₂ (· + ·) first others

/-- An entry that shows one content, before others. -/
theorem anchors_cons {entry : String × Value} {rest : List (String × Value)}
    {content : List Inline} {passages : List (List Inline)}
    (first : (Value.map [entry]).Anchors id [content])
    (others : (Value.map rest).Anchors id passages) :
    (Value.map (entry :: rest)).Anchors id (content :: passages) :=
  anchors_append first others

/-- An entry without anchors, before others. -/
theorem anchors_skip {entry : String × Value} {rest : List (String × Value)}
    {passages : List (List Inline)} (first : (Value.map [entry]).Anchors id [])
    (others : (Value.map rest).Anchors id passages) :
    (Value.map (entry :: rest)).Anchors id passages :=
  anchors_append first others

/-- Entries without anchors, after others. -/
theorem anchors_last {first second : List (String × Value)} {passages : List (List Inline)}
    (left : (Value.map first).Anchors id passages) (right : (Value.map second).Anchors id []) :
    (Value.map (first ++ second)).Anchors id passages := by
  have both := anchors_append left right
  rwa [List.append_nil] at both

/-- The contexts of parts, under the field that holds them. -/
theorem anchors_parts {values : List Value} {key : String} {passages : List (List Inline)}
    (same : (Value.map [(key, .list values)]).markups = (Value.list values).markups ++ [])
    (parts : (Value.list values).Anchors id passages) :
    (Value.map [(key, .list values)]).Anchors id passages := by
  rwa [Anchors, same, List.append_nil]

theorem anchors_list_nil {values : List Value} (each : ∀ value ∈ values, value.Anchors id []) :
    (Value.list values).Anchors id [] := by
  induction values with
  | nil => exact anchors_nil rfl
  | cons value rest ih =>
      obtain ⟨first, others⟩ := List.forall_mem_cons.mp each
      exact anchors_list_cons first (ih others)

end Value

/-! ## Blocks -/

namespace Renderer

/-- A renderer for HTML that reads neither passthroughs nor footnotes in table cells. -/
structure WritesAnchors (renderer : Renderer) : Prop where
  backend : renderer.backend = .html
  clean : ∀ text, Inline.noPassthroughAll (renderer.cells text)
  bare : ∀ text, Inline.mentionsAll (renderer.cells text) = []

/-- Any resolver and navigation payload will do. -/
theorem writesAnchors_html (resolve : Resolver) (navigation : Value) :
    (((ofBackend .html).withResolver resolve).withNavigation navigation).WritesAnchors :=
  ⟨rfl, Cell.noPassthroughAll_parse, Cell.mentionsAll_parse⟩

variable {renderer : Renderer} {id : UInt32}

theorem WritesAnchors.dialect (html : renderer.WritesAnchors) :
    renderer.dialect = Html.dialect renderer.resolve := by
  rw [Renderer.dialect, html.backend]
  rfl

open Value

/-- A field that shows inline content. -/
theorem anchors_content (html : renderer.WritesAnchors) {value : Value} {place : Option Span}
    {content : List Inline}
    (same : value.markups = [Inline.markupAll renderer.dialect place content])
    (clean : Inline.noPassthroughAll content) : value.Anchors id [content] := by
  rw [html.dialect] at same
  exact anchors_singleton same
    (Html.hasAnchors_markupAll id renderer.resolve place content clean)

/-- Of what every block has only the title anchors anything. -/
theorem anchors_base (html : renderer.WritesAnchors) (block : Block) {title : List Inline}
    (clean : Inline.noPassthroughAll title) :
    (Value.map (renderer.base block title)).Anchors id [title] :=
  anchors_content html (markups_base renderer block title) clean

/-- What a block adds to its base. -/
theorem anchors_block (html : renderer.WritesAnchors) {block : Block} {title : List Inline}
    (clean : Inline.noPassthroughAll title) {own : Entries} {passages : List (List Inline)}
    (added : (Value.map own).Anchors id passages) :
    (Value.map (renderer.base block title ++ own)).Anchors id (title :: passages) :=
  anchors_append (anchors_base html block clean) added

/-- What a block adds whose title is a heading. -/
theorem anchors_headed (html : renderer.WritesAnchors) (block : Block) {heading : List Inline}
    (clean : Inline.noPassthroughAll heading)
    (cleanTitle : Inline.noPassthroughAll block.info.title) {own : Entries}
    {passages : List (List Inline)} (added : (Value.map own).Anchors id passages) :
    (Value.map (renderer.headingBase block heading ++ own)).Anchors id
      (block.info.title :: heading :: passages) := by
  have title : (Value.map [("block_title", renderer.markup block.info.span.known? block.info.title),
      ("block_title_text", .plain block.info.title)]).Anchors id [block.info.title] :=
    anchors_content html rfl cleanTitle
  have shown := anchors_append (anchors_append (anchors_base html block clean) title) added
  have order : ([heading] ++ [block.info.title] ++ passages).Perm
      (block.info.title :: heading :: passages) := .swap _ _ _
  exact shown.trans ((order.flatMap_right _).countP_eq _)

theorem anchors_cellValue (html : renderer.WritesAnchors) (info : Meta) (cell : TableCell) :
    (renderer.cellValue info cell).Anchors id [] :=
  (anchors_content html rfl (html.clean cell.text)).bare (html.bare cell.text)

/-- A table row anchors nothing, since its cells are read as plain or formatted text. -/
theorem anchors_rowValue (html : renderer.WritesAnchors) (info : Meta) (row : TableRow) :
    (renderer.rowValue info row).Anchors id [] := by
  refine anchors_skip (anchors_nil rfl) (anchors_parts rfl ?_)
  refine anchors_list_nil fun value listed => ?_
  obtain ⟨cell, -, rfl⟩ := List.mem_map.mp listed
  exact anchors_cellValue html info cell

theorem anchors_listingEntries (html : renderer.WritesAnchors) (language : Option String)
    (text : String) (bundle : Option Callout.Bundle) :
    (Value.map (renderer.listingEntries language text bundle)).Anchors id [] := by
  have plain : (Value.map [("language", .ofText? language), ("text", .string text),
      ("markup", .string (Callout.verbatim renderer.backend text))]).Anchors id [] := by
    refine anchors_text rfl ?_
    rw [html.backend]
    exact Callout.hasAnchors_verbatim text
  unfold listingEntries
  dsimp only
  split
  · exact plain
  · split
    · exact plain
    · -- the annotated text comes beside the plain one, or in its place
      rename_i bundle _ annotated found
      rw [html.backend] at found
      have marked : HasAnchors (Html.footnoteAnchor id) annotated 0 :=
        Callout.hasAnchors_annotated id found
      split
      · exact anchors_last plain (anchors_text rfl marked)
      · exact anchors_last plain (anchors_text rfl marked)
      · exact anchors_text rfl marked

theorem anchors_bundleEntries (bundle : Option Callout.Bundle) :
    (Value.map (bundleEntries bundle)).Anchors id [] := by
  cases bundle with
  | none => exact anchors_nil rfl
  | some bundle => exact anchors_nil rfl

/-- A line of attribution, under the field that holds it. -/
theorem anchors_escaped (html : renderer.WritesAnchors) {text : Option String} {value : Value}
    (same : value.markups = (renderer.escaped text).texts ++ []) : value.Anchors id [] := by
  cases text with
  | none => exact anchors_nil same
  | some text =>
      refine anchors_text same ?_
      rw [html.dialect]
      exact hasAnchors_html text

theorem anchors_terms (html : renderer.WritesAnchors) (place : Option Span)
    {terms : List (List Inline)} (clean : terms.all Inline.noPassthroughAll) :
    (Value.map [("terms", .list (terms.map (renderer.markup place)))]).Anchors id terms := by
  induction terms with
  | nil => exact anchors_nil rfl
  | cons term rest ih =>
      rw [List.all_cons, Bool.and_eq_true] at clean
      have first : (Value.map [("content", renderer.markup place term)]).Anchors id [term] :=
        anchors_content html rfl clean.1
      exact anchors_append first (ih clean.2)

mutual

/-- The context of a block anchors what its passages define. -/
theorem anchors_of_block (html : renderer.WritesAnchors) (bundle : Option Callout.Bundle)
    (serial : UInt32) (b : Block) (clean : b.everywhere Inline.noPassthroughAll)
    (bare : ∀ title ∈ b.tableTitles, Inline.mentionsAll title = []) :
    (renderer.block bundle serial b).1.Anchors id b.passages := by
  cases b with
  | paragraph info content =>
      rw [Block.everywhere, Bool.and_eq_true] at clean
      exact anchors_block html clean.1
        (anchors_cons (anchors_content html rfl clean.2) (anchors_nil rfl))
  | heading info level title =>
      rw [Block.everywhere, Bool.and_eq_true] at clean
      exact anchors_headed html (.heading info level title) clean.2 clean.1 (anchors_nil rfl)
  | «section» info level title children =>
      rw [Block.everywhere, Bool.and_eq_true, Bool.and_eq_true] at clean
      refine anchors_headed html (.section info level title children) clean.2.1 clean.1 ?_
      exact anchors_skip (anchors_nil rfl)
        (anchors_parts rfl (anchors_of_blocks html none serial children clean.2.2 bare))
  | listing info language body =>
      exact anchors_block html clean (anchors_listingEntries html language body bundle)
  | literal info body =>
      refine anchors_block html clean (anchors_text rfl ?_)
      rw [html.backend]
      exact Callout.hasAnchors_verbatim body
  | math info formula =>
      exact anchors_block html clean ((anchors_content html rfl rfl).bare rfl)
  | command info name target => exact anchors_block html clean (anchors_nil rfl)
  | list info kind entries =>
      rw [Block.everywhere, Bool.and_eq_true] at clean
      refine anchors_last (anchors_block html clean.1 ?_) (anchors_bundleEntries bundle)
      exact anchors_skip (anchors_nil rfl)
        (anchors_parts rfl (anchors_items html info bundle 0 serial entries clean.2 bare))
  | descriptions info entries =>
      rw [Block.everywhere, Bool.and_eq_true] at clean
      exact anchors_block html clean.1
        (anchors_parts rfl (anchors_descriptions html info serial entries clean.2 bare))
  | table info rows =>
      have noteless : Inline.mentionsAll info.title = [] := bare _ (List.mem_singleton_self _)
      refine (anchors_block html clean (anchors_parts rfl ?_)).bare noteless
      refine anchors_list_nil fun value listed => ?_
      obtain ⟨row, -, rfl⟩ := List.mem_map.mp listed
      exact anchors_rowValue html info row
  | enclosure kind info children =>
      rw [Block.everywhere, Bool.and_eq_true] at clean
      exact anchors_block html clean.1
        (anchors_parts rfl (anchors_of_blocks html none serial children clean.2 bare))
  | quote info attribution citation children =>
      rw [Block.everywhere, Bool.and_eq_true] at clean
      refine anchors_block html clean.1 (anchors_last
        (anchors_parts rfl (anchors_of_blocks html none serial children clean.2 bare)) ?_)
      exact anchors_skip (anchors_escaped html rfl) (anchors_escaped html rfl)
  | admonition info kind children =>
      rw [Block.everywhere, Bool.and_eq_true] at clean
      exact anchors_block html clean.1 (anchors_last
        (anchors_parts rfl (anchors_of_blocks html none serial children clean.2 bare))
        (anchors_nil rfl))
  | verse info content attribution =>
      rw [Block.everywhere, Bool.and_eq_true] at clean
      exact anchors_block html clean.1 (anchors_cons (anchors_content html rfl clean.2)
        (anchors_skip (anchors_nil rfl) (anchors_escaped html rfl)))

/-- The contexts of a sequence anchor the footnotes of its passages. -/
theorem anchors_of_blocks (html : renderer.WritesAnchors) (bundle : Option Callout.Bundle)
    (serial : UInt32) (bs : List Block) (clean : Block.everywhereAll Inline.noPassthroughAll bs)
    (bare : ∀ title ∈ Block.tableTitlesAll bs, Inline.mentionsAll title = []) :
    (Value.list (renderer.blocks bundle serial bs).1).Anchors id (Block.passagesAll bs) := by
  match bs with
  | [] => exact anchors_nil rfl
  | first :: rest =>
      rw [Block.everywhereAll, Bool.and_eq_true] at clean
      rw [Block.tableTitlesAll, List.forall_mem_append] at bare
      exact anchors_list_cons (anchors_of_block html _ _ first clean.1 bare.1)
        (anchors_of_blocks html _ _ rest clean.2 bare.2)

theorem anchors_items (html : renderer.WritesAnchors) (info : Meta)
    (bundle : Option Callout.Bundle) (position : Nat) (serial : UInt32)
    (entries : List (ListItem Block))
    (clean : Block.everywhereItems Inline.noPassthroughAll entries)
    (bare : ∀ title ∈ Block.tableTitlesOfItems entries, Inline.mentionsAll title = []) :
    (Value.list (renderer.items info bundle position serial entries).1).Anchors id
      (Block.passagesOfItems entries) := by
  match entries with
  | [] => exact anchors_nil rfl
  | ⟨marker, content, children⟩ :: rest =>
      rw [Block.everywhereItems, Bool.and_eq_true, Bool.and_eq_true] at clean
      rw [Block.tableTitlesOfItems, List.forall_mem_append] at bare
      rw [Block.passagesOfItems, ← List.cons_append]
      refine anchors_list_cons ?_ (anchors_items html info bundle _ _ rest clean.2.2 bare.2)
      refine anchors_skip (anchors_nil rfl) ?_
      refine anchors_cons (anchors_content html rfl clean.1) (anchors_skip (anchors_nil rfl) ?_)
      exact anchors_last
        (anchors_parts rfl (anchors_of_blocks html none serial children clean.2.1 bare.1))
        (anchors_nil rfl)

theorem anchors_descriptions (html : renderer.WritesAnchors) (info : Meta) (serial : UInt32)
    (entries : List (DescriptionItem Block))
    (clean : Block.everywhereDescriptions Inline.noPassthroughAll entries)
    (bare : ∀ title ∈ Block.tableTitlesOfDescriptions entries, Inline.mentionsAll title = []) :
    (Value.list (renderer.descriptions info serial entries).1).Anchors id
      (Block.passagesOfDescriptions entries) := by
  match entries with
  | [] => exact anchors_nil rfl
  | ⟨terms, description, children⟩ :: rest =>
      rw [Block.everywhereDescriptions, Bool.and_eq_true, Bool.and_eq_true,
        Bool.and_eq_true] at clean
      rw [Block.tableTitlesOfDescriptions, List.forall_mem_append] at bare
      rw [Block.passagesOfDescriptions, ← List.cons_append, ← List.append_assoc]
      refine anchors_list_cons ?_ (anchors_descriptions html info _ rest clean.2.2.2 bare.2)
      refine anchors_append (anchors_terms html _ clean.1) (anchors_skip (anchors_nil rfl) ?_)
      refine anchors_cons (anchors_content html rfl clean.2.1) (anchors_skip (anchors_nil rfl) ?_)
      exact anchors_parts rfl (anchors_of_blocks html none serial children clean.2.2.1 bare.1)

end

/-! ## Documents -/

variable {document : Document}

/-- The markup of a document besides its footnotes: its title and its blocks. -/
theorem bodyMarkups_context (document : Document) :
    (renderer.context document).bodyMarkups =
      Inline.markupAll renderer.dialect none (resolveDocument document).document.title ::
        ((Value.list
          (renderer.blocks none 0 (resolveDocument document).document.blocks).1).markups ++ []) :=
  rfl

/-- The title and the blocks of a document, numbered. -/
theorem timesAnchored_body (html : renderer.WritesAnchors) (clean : document.noPassthrough)
    (bare : ∀ title ∈ document.tableTitles, Inline.mentionsAll title = []) :
    timesAnchored id (renderer.context document).bodyMarkups =
      (resolveDocument document).document.mentions.countP (Mention.defines id) := by
  obtain ⟨resolved, -⟩ := Footnote.noPassthrough_resolveDocument clean
  have title := title_noPassthrough resolved
  have titles : (resolveDocument document).document.tableTitles = document.tableTitles :=
    Revision.tableTitles_document Footnote.resolveAll document .empty
  rw [← titles] at bare
  rw [Document.noPassthrough, Document.everywhere, Bool.and_eq_true] at resolved
  have body : (Value.map [("title_markup",
        renderer.markup none (resolveDocument document).document.title),
      ("blocks",
        .list (renderer.blocks none 0 (resolveDocument document).document.blocks).1)]).Anchors
        id ((resolveDocument document).document.title ::
          Block.passagesAll (resolveDocument document).document.blocks) :=
    anchors_cons (anchors_content html rfl title)
      (anchors_parts rfl (anchors_of_blocks html none 0 _ resolved.2 bare))
  have shown : timesAnchored id (renderer.context document).bodyMarkups = _ := body
  rw [shown, Document.mentions, Document.passages, Document.title]
  cases (resolveDocument document).document.header with
  | none => rfl
  | some header => rfl

/-- The list of footnotes. -/
theorem timesAnchored_footnotes (html : renderer.WritesAnchors) {definitions : List Definition}
    (clean : ∀ definition ∈ definitions, Inline.noPassthroughAll definition.content) :
    timesAnchored id (Value.list (definitions.map renderer.footnoteValue)).markups =
      (definitions.flatMap Definition.mentions).countP (Mention.defines id) := by
  have parts : (Value.list (definitions.map renderer.footnoteValue)).Anchors id
      (definitions.map Definition.content) := by
    induction definitions with
    | nil => exact anchors_nil rfl
    | cons definition rest ih =>
        obtain ⟨own, others⟩ := List.forall_mem_cons.mp clean
        have first : (renderer.footnoteValue definition).Anchors id [definition.content] :=
          anchors_content html rfl own
        exact anchors_list_cons first (ih others)
  rwa [Anchors, List.flatMap_map] at parts

/-- A context anchors a footnote once for each node that shows it, in the document or in the
definitions. -/
theorem timesAnchored_context (html : renderer.WritesAnchors) (clean : document.noPassthrough)
    (bare : ∀ title ∈ document.tableTitles, Inline.mentionsAll title = []) :
    timesAnchored id (renderer.context document).documentMarkups =
      (resolveDocument document).countDefining id := by
  obtain ⟨-, definitions⟩ := Footnote.noPassthrough_resolveDocument clean
  have parts : (renderer.context document).documentMarkups =
      (renderer.context document).bodyMarkups ++
        (Value.list
          ((resolveDocument document).definitions.map renderer.footnoteValue)).markups := by
    rw [documentMarkups_context, bodyMarkups_context, List.append_nil, List.append_nil,
      List.cons_append]
  rw [parts, Html.timesAnchored_append, timesAnchored_body html clean bare,
    timesAnchored_footnotes html definitions, Resolved.countDefining, Resolved.mentions,
    List.countP_append]

/-- **Where a footnote is anchored.**  The title and the blocks together anchor every footnote at
most once.  The whole context, with the list of footnotes, does so exactly if no definition of an
anchored footnote holds another footnote with content. -/
theorem anchored_once_iff (html : renderer.WritesAnchors) (clean : document.noPassthrough)
    (bare : ∀ title ∈ document.tableTitles, Inline.mentionsAll title = [])
    (few : allocations document.mentions < 2 ^ 32 - 1) :
    (∀ id, timesAnchored id (renderer.context document).bodyMarkups ≤ 1) ∧
      ((∀ id, timesAnchored id (renderer.context document).documentMarkups ≤ 1) ↔
        ∀ definition ∈ (resolveDocument document).definitions,
          0 < timesAnchored definition.id (renderer.context document).documentMarkups →
            ∀ node ∈ definition.mentions, node.content = []) := by
  constructor
  · intro id
    rw [timesAnchored_body html clean bare, Footnote.countP_document]
    exact Footnote.length_showing_le few id
  · simp only [timesAnchored_context html clean bare]
    exact Footnote.countDefining_le_one_iff few

namespace Example

open Footnote.Example (note)

/-- Two footnotes, the second referred to once more. -/
def apart : Document :=
  Document.empty.withBlock
    (.paragraph .empty
      [note none [.ofText "x"], note (some "a") [.ofText "y"], note (some "a") []])

theorem apart_anchored_once :
    apart.noPassthrough ∧ apart.tableTitles = [] ∧ allocations apart.mentions < 2 ^ 32 - 1 ∧
      timesAnchored 2 ((ofBackend .html).context apart).documentMarkups = 1 ∧
      ∀ id, timesAnchored id ((ofBackend .html).context apart).documentMarkups ≤ 1 := by
  have html := writesAnchors_html .none .null
  have clean : apart.noPassthrough := by decide
  have bare : ∀ title ∈ apart.tableTitles, Inline.mentionsAll title = [] :=
    fun _ listed => absurd listed List.not_mem_nil
  have few : allocations apart.mentions < 2 ^ 32 - 1 := by decide
  have second : timesAnchored 2 ((ofBackend .html).context apart).documentMarkups = 1 :=
    (timesAnchored_context html clean bare).trans (by decide)
  obtain ⟨-, once⟩ := anchored_once_iff html clean bare few
  refine ⟨clean, rfl, few, second, once.mpr fun definition listed _ node within => ?_⟩
  have noteless : ∀ definition ∈ (resolveDocument apart).definitions,
      definition.mentions.length = 0 := by decide
  rw [List.eq_nil_of_length_eq_zero (noteless definition listed)] at within
  exact absurd within List.not_mem_nil

/-- A footnote inside a footnote. -/
def enclosed : Document :=
  Document.empty.withBlock
    (.paragraph .empty [note none [.ofText "x", note none [.ofText "y"]]])

/-- The inner footnote is anchored in the block and once more in the list of footnotes. -/
theorem enclosed_anchored_twice :
    enclosed.noPassthrough ∧ enclosed.tableTitles = [] ∧
      ¬ ∀ id, timesAnchored id ((ofBackend .html).context enclosed).documentMarkups ≤ 1 := by
  have clean : enclosed.noPassthrough := by decide
  have twice : timesAnchored 1 ((ofBackend .html).context enclosed).documentMarkups = 2 := by
    refine (timesAnchored_context (writesAnchors_html .none .null) clean ?_).trans (by decide)
    exact fun _ listed => absurd listed List.not_mem_nil
  refine ⟨clean, rfl, fun once => ?_⟩
  have single := once 1
  rw [twice] at single
  exact absurd single (by decide)

end Example

end Renderer

end Rendition
