/-
# Rendition.Proofs.Renderer.WellFormed -- contexts hold well-formed markup

The markup in the HTML and DocBook contexts of a document without passthroughs
is well formed, text by text, whatever the resolver answers and whatever the
document says (`markups_wellFormed`).

Inline content is the business of the dialect (`fragment_markupAll`).  Added here
are the texts that the walk over the blocks writes by itself: listings, with the
marks of their callouts or without, and the lines of attribution.  The walk
threads a bundle and a serial number through the blocks; neither matters to
whether its markup is well formed, so the induction is for all of them.
-/
import Rendition.Proofs.Callout.Marks
import Rendition.Proofs.Markup.Dialects
import Rendition.Proofs.Renderer.Markups

namespace Rendition

set_option autoImplicit false

open Rendition.Markup

variable {format : TagFormat}

/-! ## Listings -/

namespace Callout

theorem fragment_verbatim (text : String) : Fragment format (verbatim format.backend text) :=
  fragment_of_literal (literal_verbatim text)

/-- The anchor of a mark is well formed. -/
theorem fragment_markMarkup (bundle : Bundle) (ordinal : Nat) :
    Fragment format (markMarkup format.backend bundle ordinal) := by
  cases format with
  | html =>
      refine .append ?_
        (fragment_element (by decide) ?_ (fragment_of_literal (literal_circled ordinal)))
      · exact fragment_element (by decide)
          (attributeList_singleton (by decide) (literal_id bundle ordinal))
          fragment_empty
      · refine attributeList_cons (by decide) (literal_constant (by decide)) ?_
        refine attributeList_cons (by decide)
          ((literal_constant (by decide)).append (literal_id bundle ordinal)) ?_
        exact attributeList_singleton (by decide) (literal_repr ordinal)
  | docBook =>
      exact .short rfl (by decide)
        (attributeList_singleton (by decide) (literal_id bundle ordinal))

/-- The text between the marks of a listing is escaped character by character. -/
theorem fragment_annotated {bundle : Bundle} {text annotated : String}
    (found : annotate? format.backend bundle text = some annotated) :
    Fragment format annotated := by
  unfold annotate? at found
  dsimp only at found
  split at found
  · rw [← Option.some.inj found]
    refine fragment_join fun part inside => ?_
    obtain ⟨piece, -, rfl⟩ := List.mem_map.mp inside
    cases piece with
    | char c => exact fragment_verbatim (String.singleton c)
    | mark ordinal => exact fragment_markMarkup bundle ordinal
  · cases found

end Callout

/-! ## Entries -/

/-- All markup in the context of a part is well formed. -/
def Value.WellFormed (format : TagFormat) (value : Value) : Prop :=
  ∀ text ∈ value.markups, Fragment format text

namespace Value

theorem wellFormed_of_nil {value : Value} (same : value.markups = []) :
    value.WellFormed format := by
  intro text inside
  rw [same] at inside
  exact absurd inside List.not_mem_nil

theorem wellFormed_of_singleton {value : Value} {text : String}
    (same : value.markups = [text]) (wellFormed : Fragment format text) :
    value.WellFormed format := by
  intro other inside
  rw [same] at inside
  rw [List.mem_singleton.mp inside]
  exact wellFormed

theorem wellFormed_list {values : List Value} (each : ∀ value ∈ values, value.WellFormed format) :
    (Value.list values).WellFormed format := by
  intro text inside
  obtain ⟨value, listed, shown⟩ := mem_markupsOfItems_iff.mp inside
  exact each value listed text shown

theorem wellFormed_list_cons {value : Value} {rest : List Value} (first : value.WellFormed format)
    (others : (Value.list rest).WellFormed format) :
    (Value.list (value :: rest)).WellFormed format := by
  intro text inside
  rcases List.mem_append.mp inside with known | known
  · exact first text known
  · exact others text known

theorem wellFormed_append {first second : List (String × Value)}
    (left : (Value.map first).WellFormed format) (right : (Value.map second).WellFormed format) :
    (Value.map (first ++ second)).WellFormed format := by
  intro text inside
  rw [markups, markupsOfEntries_append] at inside
  rcases List.mem_append.mp inside with known | known
  · exact left text known
  · exact right text known

theorem wellFormed_cons {entry : String × Value} {rest : List (String × Value)}
    (first : (Value.map [entry]).WellFormed format) (others : (Value.map rest).WellFormed format) :
    (Value.map (entry :: rest)).WellFormed format :=
  wellFormed_append first others

/-- The contexts of parts, under the field that holds them. -/
theorem wellFormed_parts {values : List Value} {key : String}
    (same : (Value.map [(key, .list values)]).markups = (Value.list values).markups ++ [])
    (wellFormed : (Value.list values).WellFormed format) :
    (Value.map [(key, .list values)]).WellFormed format := by
  intro text inside
  rw [same, List.append_nil] at inside
  exact wellFormed text inside

end Value

/-! ## Blocks -/

namespace Renderer

/-- A renderer of a tag format that reads table cells as text. -/
structure WritesTags (renderer : Renderer) (format : TagFormat) : Prop where
  backend : renderer.backend = format.backend
  cells : renderer.cells = Cell.parse

variable {renderer : Renderer}

/-- Both dialects of tags write well-formed markup. -/
theorem WritesTags.dialect (tags : renderer.WritesTags format) :
    renderer.dialect.Writes format := by
  unfold Renderer.dialect
  rw [tags.backend]
  cases format with
  | html => exact Html.dialect_writes renderer.resolve
  | docBook => exact DocBook.dialect_writes

open Value

/-- A field that shows inline content. -/
theorem wellFormed_content (tags : renderer.WritesTags format) {value : Value}
    {place : Option Span} {content : List Inline}
    (same : value.markups = [Inline.markupAll renderer.dialect place content])
    (clean : Inline.noPassthroughAll content) : value.WellFormed format :=
  wellFormed_of_singleton same (fragment_markupAll tags.dialect place content clean)

theorem wellFormed_base (tags : renderer.WritesTags format) (block : Block) {title : List Inline}
    (clean : Inline.noPassthroughAll title) :
    (Value.map (renderer.base block title)).WellFormed format :=
  wellFormed_content tags (markups_base renderer block title) clean

theorem wellFormed_headingBase (tags : renderer.WritesTags format) (block : Block)
    {heading : List Inline} (clean : Inline.noPassthroughAll heading)
    (cleanTitle : Inline.noPassthroughAll block.info.title) :
    (Value.map (renderer.headingBase block heading)).WellFormed format :=
  wellFormed_append (wellFormed_base tags block clean) (wellFormed_content tags rfl cleanTitle)

theorem wellFormed_cellValue (tags : renderer.WritesTags format) (info : Meta)
    (cell : TableCell) : (renderer.cellValue info cell).WellFormed format := by
  refine wellFormed_content tags rfl ?_
  rw [tags.cells]
  exact Cell.noPassthroughAll_parse cell.text

theorem wellFormed_rowValue (tags : renderer.WritesTags format) (info : Meta) (row : TableRow) :
    (renderer.rowValue info row).WellFormed format := by
  refine wellFormed_cons (wellFormed_of_nil rfl) (wellFormed_parts rfl ?_)
  refine wellFormed_list fun value listed => ?_
  obtain ⟨cell, -, rfl⟩ := List.mem_map.mp listed
  exact wellFormed_cellValue tags info cell

theorem wellFormed_listingEntries (tags : renderer.WritesTags format) (language : Option String)
    (text : String) (bundle : Option Callout.Bundle) :
    (Value.map (renderer.listingEntries language text bundle)).WellFormed format := by
  have plain : (Value.map [("language", .ofText? language), ("text", .string text),
      ("markup", .string (Callout.verbatim renderer.backend text))]).WellFormed format := by
    refine wellFormed_of_singleton rfl ?_
    rw [tags.backend]
    exact Callout.fragment_verbatim text
  unfold listingEntries
  dsimp only
  split
  · exact plain
  · split
    · exact plain
    · -- the annotated text comes beside the plain one, or in its place
      rename_i bundle _ annotated found
      rw [tags.backend] at found
      have marked : Fragment format annotated := Callout.fragment_annotated found
      split
      · exact wellFormed_append plain (wellFormed_of_singleton rfl marked)
      · exact wellFormed_append plain (wellFormed_of_singleton rfl marked)
      · exact wellFormed_of_singleton rfl marked

theorem wellFormed_bundleEntries (bundle : Option Callout.Bundle) :
    (Value.map (bundleEntries bundle)).WellFormed format := by
  cases bundle with
  | none => exact wellFormed_of_nil rfl
  | some bundle => exact wellFormed_of_nil rfl

/-- A line of attribution, under the field that holds it. -/
theorem wellFormed_escaped (tags : renderer.WritesTags format) {text : Option String}
    {value : Value} (same : value.markups = (renderer.escaped text).texts ++ []) :
    value.WellFormed format := by
  cases text with
  | none => exact wellFormed_of_nil same
  | some text => exact wellFormed_of_singleton same (tags.dialect.escape text)

theorem wellFormed_terms (tags : renderer.WritesTags format) (place : Option Span)
    {terms : List (List Inline)} (clean : terms.all Inline.noPassthroughAll) :
    (Value.map [("terms", .list (terms.map (renderer.markup place)))]).WellFormed format := by
  intro text inside
  have shown : text ∈ (Value.list (terms.map (renderer.markup place))).texts ++ [] := inside
  rw [List.append_nil] at shown
  obtain ⟨value, listed, read⟩ := List.mem_filterMap.mp shown
  obtain ⟨term, known, rfl⟩ := List.mem_map.mp listed
  rw [← Option.some.inj read]
  exact fragment_markupAll tags.dialect place term (List.all_eq_true.mp clean term known)

mutual

/-- Each constructor fills its markup fields with well-formed markup. -/
theorem wellFormed_block (tags : renderer.WritesTags format) (bundle : Option Callout.Bundle)
    (serial : UInt32) (b : Block) (clean : b.everywhere Inline.noPassthroughAll) :
    (renderer.block bundle serial b).1.WellFormed format := by
  cases b with
  | paragraph info content =>
      rw [Block.everywhere, Bool.and_eq_true] at clean
      exact wellFormed_append (wellFormed_base tags _ clean.1)
        (wellFormed_content tags rfl clean.2)
  | heading info level title =>
      rw [Block.everywhere, Bool.and_eq_true] at clean
      exact wellFormed_append (wellFormed_headingBase tags _ clean.2 clean.1)
        (wellFormed_of_nil rfl)
  | «section» info level title children =>
      rw [Block.everywhere, Bool.and_eq_true, Bool.and_eq_true] at clean
      refine wellFormed_append (wellFormed_headingBase tags _ clean.2.1 clean.1) ?_
      exact wellFormed_cons (wellFormed_of_nil rfl)
        (wellFormed_parts rfl (wellFormed_blocks tags none serial children clean.2.2))
  | listing info language body =>
      exact wellFormed_append (wellFormed_base tags _ clean)
        (wellFormed_listingEntries tags language body bundle)
  | literal info body =>
      refine wellFormed_append (wellFormed_base tags _ clean)
        (wellFormed_of_singleton rfl ?_)
      rw [tags.backend]
      exact Callout.fragment_verbatim body
  | math info formula =>
      exact wellFormed_append (wellFormed_base tags _ clean) (wellFormed_content tags rfl rfl)
  | command info name target =>
      exact wellFormed_append (wellFormed_base tags _ clean) (wellFormed_of_nil rfl)
  | list info kind entries =>
      rw [Block.everywhere, Bool.and_eq_true] at clean
      refine wellFormed_append (wellFormed_append (wellFormed_base tags _ clean.1) ?_)
        (wellFormed_bundleEntries bundle)
      exact wellFormed_cons (wellFormed_of_nil rfl)
        (wellFormed_parts rfl (wellFormed_items tags info bundle 0 serial entries clean.2))
  | descriptions info entries =>
      rw [Block.everywhere, Bool.and_eq_true] at clean
      exact wellFormed_append (wellFormed_base tags _ clean.1)
        (wellFormed_parts rfl (wellFormed_descriptions tags info serial entries clean.2))
  | table info rows =>
      refine wellFormed_append (wellFormed_base tags _ clean) (wellFormed_parts rfl ?_)
      refine wellFormed_list fun value listed => ?_
      obtain ⟨row, -, rfl⟩ := List.mem_map.mp listed
      exact wellFormed_rowValue tags info row
  | enclosure kind info children =>
      rw [Block.everywhere, Bool.and_eq_true] at clean
      exact wellFormed_append (wellFormed_base tags _ clean.1)
        (wellFormed_parts rfl (wellFormed_blocks tags none serial children clean.2))
  | quote info attribution citation children =>
      rw [Block.everywhere, Bool.and_eq_true] at clean
      refine wellFormed_append (wellFormed_base tags _ clean.1) ?_
      exact wellFormed_cons
        (wellFormed_parts rfl (wellFormed_blocks tags none serial children clean.2))
        (wellFormed_cons (wellFormed_escaped tags rfl) (wellFormed_escaped tags rfl))
  | admonition info kind children =>
      rw [Block.everywhere, Bool.and_eq_true] at clean
      refine wellFormed_append (wellFormed_base tags _ clean.1) ?_
      exact wellFormed_cons
        (wellFormed_parts rfl (wellFormed_blocks tags none serial children clean.2))
        (wellFormed_of_nil rfl)
  | verse info content attribution =>
      rw [Block.everywhere, Bool.and_eq_true] at clean
      refine wellFormed_append (wellFormed_base tags _ clean.1) ?_
      exact wellFormed_cons (wellFormed_content tags rfl clean.2)
        (wellFormed_cons (wellFormed_of_nil rfl) (wellFormed_escaped tags rfl))

/-- All markup in the contexts of a sequence is well formed. -/
theorem wellFormed_blocks (tags : renderer.WritesTags format) (bundle : Option Callout.Bundle)
    (serial : UInt32) (bs : List Block) (clean : Block.everywhereAll Inline.noPassthroughAll bs) :
    (Value.list (renderer.blocks bundle serial bs).1).WellFormed format := by
  match bs with
  | [] => exact wellFormed_of_nil rfl
  | first :: rest =>
      rw [Block.everywhereAll, Bool.and_eq_true] at clean
      exact wellFormed_list_cons (wellFormed_block tags _ _ first clean.1)
        (wellFormed_blocks tags _ _ rest clean.2)

theorem wellFormed_items (tags : renderer.WritesTags format) (info : Meta)
    (bundle : Option Callout.Bundle) (position : Nat) (serial : UInt32)
    (entries : List (ListItem Block))
    (clean : Block.everywhereItems Inline.noPassthroughAll entries) :
    (Value.list (renderer.items info bundle position serial entries).1).WellFormed format := by
  match entries with
  | [] => exact wellFormed_of_nil rfl
  | ⟨marker, content, children⟩ :: rest =>
      rw [Block.everywhereItems, Bool.and_eq_true, Bool.and_eq_true] at clean
      refine wellFormed_list_cons ?_ (wellFormed_items tags info bundle _ _ rest clean.2.2)
      refine wellFormed_cons (wellFormed_of_nil rfl) ?_
      refine wellFormed_cons (wellFormed_content tags rfl clean.1) ?_
      refine wellFormed_cons (wellFormed_of_nil rfl) ?_
      exact wellFormed_cons
        (wellFormed_parts rfl (wellFormed_blocks tags none serial children clean.2.1))
        (wellFormed_of_nil rfl)

theorem wellFormed_descriptions (tags : renderer.WritesTags format) (info : Meta) (serial : UInt32)
    (entries : List (DescriptionItem Block))
    (clean : Block.everywhereDescriptions Inline.noPassthroughAll entries) :
    (Value.list (renderer.descriptions info serial entries).1).WellFormed format := by
  match entries with
  | [] => exact wellFormed_of_nil rfl
  | ⟨terms, description, children⟩ :: rest =>
      rw [Block.everywhereDescriptions, Bool.and_eq_true, Bool.and_eq_true,
        Bool.and_eq_true] at clean
      refine wellFormed_list_cons ?_ (wellFormed_descriptions tags info _ rest clean.2.2.2)
      refine wellFormed_cons (wellFormed_terms tags _ clean.1) ?_
      refine wellFormed_cons (wellFormed_of_nil rfl) ?_
      refine wellFormed_cons (wellFormed_content tags rfl clean.2.1) ?_
      exact wellFormed_cons (wellFormed_of_nil rfl)
        (wellFormed_parts rfl (wellFormed_blocks tags none serial children clean.2.2.1))

end

/-! ## Documents -/

theorem wellFormed_footnoteValue (tags : renderer.WritesTags format)
    {definition : Footnote.Definition} (clean : Inline.noPassthroughAll definition.content) :
    (renderer.footnoteValue definition).WellFormed format :=
  wellFormed_content tags rfl clean

/-- The markup of a context is that of its title, its blocks and its footnotes. -/
theorem documentMarkups_context (document : Document) :
    (renderer.context document).documentMarkups =
      Inline.markupAll renderer.dialect none (Footnote.resolveDocument document).document.title ::
        ((Value.list (renderer.blocks none 0
            (Footnote.resolveDocument document).document.blocks).1).markups ++
          ((Value.list ((Footnote.resolveDocument document).definitions.map
            renderer.footnoteValue)).markups ++ [])) := rfl

theorem title_noPassthrough {document : Document} (clean : document.noPassthrough) :
    Inline.noPassthroughAll document.title := by
  unfold Document.noPassthrough Document.everywhere at clean
  rw [Bool.and_eq_true] at clean
  unfold Document.title
  cases header : document.header with
  | none => rfl
  | some heading =>
      rw [header] at clean
      exact clean.1

/-- **The markup of a document without passthroughs is well formed.**  This is for both tag
formats, for every resolver and every navigation payload, with cells read as text. -/
theorem markups_wellFormed (format : TagFormat) (resolve : Resolver) (navigation : Value)
    {document : Document} (clean : document.noPassthrough) :
    ∀ text ∈ ((((ofBackend format.backend).withResolver resolve).withNavigation navigation).context
      document).documentMarkups, Fragment format text := by
  have tags : (((ofBackend format.backend).withResolver resolve).withNavigation
      navigation).WritesTags format := ⟨rfl, rfl⟩
  obtain ⟨resolved, definitions⟩ := Footnote.noPassthrough_resolveDocument clean
  intro text inside
  rw [documentMarkups_context, List.append_nil, List.mem_cons, List.mem_append] at inside
  rcases inside with title | block | footnote
  · rw [title]
    exact fragment_markupAll tags.dialect none _ (title_noPassthrough resolved)
  · rw [Document.noPassthrough, Document.everywhere, Bool.and_eq_true] at resolved
    exact wellFormed_blocks tags none 0 _ resolved.2 text block
  · refine wellFormed_list (fun value listed => ?_) text footnote
    obtain ⟨definition, known, rfl⟩ := List.mem_map.mp listed
    exact wellFormed_footnoteValue tags (definitions definition known)

namespace Example

/-- Reserved characters in a text and in a target. -/
def reserved : Document :=
  Document.empty.withBlock
    (.paragraph .empty
      [.ofStyled .strong [.ofText "a<b"], .crossReference (.ofRaw "c&d") [] .unknown])

/-- A resolver whose answer would close the attribute and the tag that it stands in. -/
def closing : Resolver := fun _ _ => some "\"><i>"

theorem reserved_wellFormed :
    (((ofBackend .html).withResolver closing).context reserved).documentMarkups =
        ["", "", "<strong>a&lt;b</strong><a href=\"&quot;&gt;&lt;i&gt;\">c&amp;d</a>"] ∧
      ∀ text ∈ (((ofBackend .html).withResolver closing).context reserved).documentMarkups,
        Fragment .html text :=
  ⟨by decide, markups_wellFormed .html closing .null (by decide)⟩

end Example

end Renderer

end Rendition
