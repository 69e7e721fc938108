/-
# Rendition.Proofs.Renderer.Pairs -- callouts stay within their pair

A *pair* is a listing and, directly after it, a callout list one of whose markers
has a number.  Whether two neighbours make a pair depends on nothing else, and a
block belongs to at most one pair, because no block is both a listing and a list.

In the contexts of a sequence of blocks, callouts are found in the lists of pairs
and nowhere else, and the two contexts of a pair agree: they name the same base,
and every anchor in the markup of the listing is the callout of an item of the
list (`Local`).  This holds of every sequence at every depth (`callouts_local`).
-/
import Rendition.Proofs.Callout.Marks
import Rendition.Proofs.Renderer.Callouts

namespace Rendition

set_option autoImplicit false

open Rendition.Callout Rendition.Markup

namespace Block

def listingText? : Block → Option String
  | .listing _ _ text => some text
  | _ => none

/-- The markers of the items of a callout list. -/
def calloutMarkers? : Block → Option (List String)
  | .list _ .callout items => some (items.map (·.marker))
  | _ => none

theorem exists_of_listingText? {b : Block} {text : String} (listing : b.listingText? = some text) :
    ∃ info language, b = .listing info language text := by
  cases b with
  | listing info language body => exact ⟨info, language, by rw [Option.some.inj listing]⟩
  | _ => cases listing

theorem exists_of_calloutMarkers? {b : Block} {markers : List String}
    (list : b.calloutMarkers? = some markers) :
    ∃ info entries, b = .list info .callout entries ∧ entries.map (·.marker) = markers := by
  cases b with
  | list info kind entries =>
      cases kind with
      | callout => exact ⟨info, entries, rfl, Option.some.inj list⟩
      | unordered | ordered => cases list
  | _ => cases list

end Block

namespace Renderer

/-- Two neighbours that make a pair: a listing with a text at a position of a sequence, and after
it a callout list with markers, some of which has a number. -/
structure Pair (blocks : List Block) (position : Nat) (text : String) (markers : List String) :
    Prop where
  listing : blocks[position]?.bind Block.listingText? = some text
  list : blocks[position + 1]?.bind Block.calloutMarkers? = some markers
  numbered : ∃ marker ∈ markers, (markerOrdinal? marker).isSome

/-- Whether a pair ends at a position. -/
def EndsPair (blocks : List Block) (position : Nat) : Prop :=
  ∃ before text markers, position = before + 1 ∧ Pair blocks before text markers

/-- Whether a marker of a list has a number. -/
def Numbers (markers : List String) (ordinal : Nat) : Prop :=
  ∃ marker ∈ markers, markerOrdinal? marker = some ordinal

/-- The contexts of a pair: the base is that of the list; each item carries the callout of its
marker; the listing has the base if it has a mark of the list, and then anchors; and wherever
there are anchors in its markup, they are callouts of items. -/
structure Linked (backend : Backend) (text : String) (markers : List String)
    (listing list : Value) (base : String) : Prop where
  based : list.get? "callout_base" = some (.string base)
  items : List.Forall₂ (Value.Explained base) markers list.items
  same : ∀ shown, listing.get? "callout_base" = some shown → shown = .string base
  marked : (listing.get? "callout_base").isSome ↔
    ∃ ordinal, Marks text ordinal ∧ Numbers markers ordinal
  anchored : ∀ format : TagFormat, backend = format.backend →
    (listing.get? "callout_base").isSome →
    ∃ markup, listing.get? "callout_markup" = some (.string markup) ∧ anchorIds format markup ≠ []
  anchors : ∀ format : TagFormat, backend = format.backend →
    ∀ field ∈ ["markup", "callout_markup"], ∀ markup,
      listing.get? field = some (.string markup) → ∀ id ∈ anchorIds format markup,
        ∃ item ∈ list.items, item.calloutId? = some (.string id)

/-- The contexts of a sequence whose callouts are local: at every position, items carry callouts
if and only if a pair ends there; the context has a base if and only if a pair ends there, or one
begins there and its listing has a mark of its list; and the contexts of each pair are linked. -/
structure Local (backend : Backend) (blocks : List Block) (values : List Value) : Prop where
  explains_iff : ∀ position value, values[position]? = some value →
    ((∃ item ∈ value.items, item.HasCallout) ↔ EndsPair blocks position)
  based_iff : ∀ position value, values[position]? = some value →
    ((value.get? "callout_base").isSome ↔
      EndsPair blocks position ∨ ∃ text markers, Pair blocks position text markers ∧
        ∃ ordinal, Marks text ordinal ∧ Numbers markers ordinal)
  linked : ∀ position text markers, Pair blocks position text markers →
    ∃ listing list base, values[position]? = some listing ∧ values[position + 1]? = some list ∧
      Linked backend text markers listing list base

/-! ## Pairs -/

/-- At most one pair begins at a position. -/
theorem Pair.unique {blocks : List Block} {position : Nat} {text other : String}
    {markers others : List String} (pair : Pair blocks position text markers)
    (same : Pair blocks position other others) : text = other ∧ markers = others :=
  ⟨Option.some.inj (pair.listing.symm.trans same.listing),
    Option.some.inj (pair.list.symm.trans same.list)⟩

theorem pair_succ_iff {b : Block} {rest : List Block} {position : Nat} {text : String}
    {markers : List String} :
    Pair (b :: rest) (position + 1) text markers ↔ Pair rest position text markers :=
  ⟨fun ⟨listing, list, numbered⟩ => ⟨listing, list, numbered⟩,
    fun ⟨listing, list, numbered⟩ => ⟨listing, list, numbered⟩⟩

/-- A bundle is made of markers if and only if one of them has a number. -/
theorem ofMarkers?_eq_some_iff {markers : List String} {serial : UInt32} {bundle : Bundle} :
    Bundle.ofMarkers? markers serial = some bundle ↔
      (∃ marker ∈ markers, (markerOrdinal? marker).isSome) ∧
        bundle = ⟨serial, markers.map markerOrdinal?⟩ := by
  have unnumbered : (markers.map markerOrdinal?).all Option.isNone = true ↔
      ¬ ∃ marker ∈ markers, (markerOrdinal? marker).isSome := by
    simp only [List.all_map, List.all_eq_true, Function.comp_apply, not_exists, not_and,
      Option.isNone_iff_eq_none, Option.not_isSome_iff_eq_none]
  unfold Bundle.ofMarkers?
  dsimp only
  split_ifs with all
  · exact iff_of_false (by simp) fun known => unnumbered.mp all known.1
  · rw [Option.some.injEq, and_iff_right (not_not.mp (mt unnumbered.mpr all)), eq_comm]

/-- A block opens a bundle if and only if it begins a pair. -/
theorem pairing?_eq_some_iff {serial : UInt32} {first : Block} {rest : List Block}
    {bundle : Bundle} :
    pairing? serial first rest = some bundle ↔
      ∃ text markers, Pair (first :: rest) 0 text markers ∧
        bundle = ⟨serial + 1, markers.map markerOrdinal?⟩ := by
  constructor
  · intro opened
    unfold pairing? at opened
    split at opened
    · obtain ⟨numbered, rfl⟩ := ofMarkers?_eq_some_iff.mp opened
      exact ⟨_, _, ⟨rfl, rfl, numbered⟩, rfl⟩
    · cases opened
  · rintro ⟨text, markers, ⟨listing, list, numbered⟩, rfl⟩
    obtain ⟨info, language, rfl⟩ := Block.exists_of_listingText? listing
    cases rest with
    | nil => cases list
    | cons second rest =>
        obtain ⟨outer, entries, rfl, rfl⟩ := Block.exists_of_calloutMarkers? list
        exact ofMarkers?_eq_some_iff.mpr ⟨numbered, rfl⟩

theorem pairing?_of_calloutMarkers? {serial : UInt32} {b : Block} {rest : List Block}
    {markers : List String} (list : b.calloutMarkers? = some markers) :
    pairing? serial b rest = none := by
  obtain ⟨info, entries, rfl, -⟩ := Block.exists_of_calloutMarkers? list
  rfl

theorem numbers_iff {bundle : Bundle} {markers : List String} {ordinal : Nat}
    (fits : bundle.ordinals = markers.map markerOrdinal?) :
    bundle.has ordinal = true ↔ Numbers markers ordinal := by
  simp [Bundle.has, fits, Numbers]

/-! ## The walk -/

variable (renderer : Renderer)

/-- The walk goes on with what the first block opened. -/
theorem exists_blocks_cons (bundle : Option Bundle) (serial : UInt32) (first : Block)
    (rest : List Block) :
    ∃ start next, (renderer.blocks bundle serial (first :: rest)).1 =
      (renderer.block ((pairing? serial first rest).or bundle) start first).1 ::
        (renderer.blocks (pairing? serial first rest) next rest).1 :=
  ⟨_, _, rfl⟩

/-- The blocks of a pair are rendered with one bundle, that of the markers. -/
theorem blocks_of_pair (bundle : Option Bundle) (serial : UInt32) {bs : List Block}
    {position : Nat} {text : String} {markers : List String}
    (pair : Pair bs position text markers) :
    ∃ shared listing list start next, shared.ordinals = markers.map markerOrdinal? ∧
      listing.listingText? = some text ∧ list.calloutMarkers? = some markers ∧
      (renderer.blocks bundle serial bs).1[position]? =
        some (renderer.block (some shared) start listing).1 ∧
      (renderer.blocks bundle serial bs).1[position + 1]? =
        some (renderer.block (some shared) next list).1 := by
  induction position generalizing bs bundle serial with
  | zero =>
      match bs, pair with
      | [], pair => cases pair.listing
      | [_], pair => cases pair.list
      | first :: second :: rest, pair =>
          have opened : pairing? serial first (second :: rest) =
              some ⟨serial + 1, markers.map markerOrdinal?⟩ :=
            pairing?_eq_some_iff.mpr ⟨text, markers, pair, rfl⟩
          obtain ⟨start, middle, values⟩ :=
            exists_blocks_cons renderer bundle serial first (second :: rest)
          obtain ⟨next, last, others⟩ :=
            exists_blocks_cons renderer (some ⟨serial + 1, markers.map markerOrdinal?⟩) middle
              second rest
          rw [opened] at values
          rw [pairing?_of_calloutMarkers? pair.list] at others
          refine ⟨⟨serial + 1, markers.map markerOrdinal?⟩, first, second, start, next, rfl,
            pair.listing, pair.list, ?_, ?_⟩
          · rw [values]
            rfl
          · rw [values, others]
            rfl
  | succ position ih =>
      cases bs with
      | nil => cases pair.listing
      | cons first rest =>
          obtain ⟨start, next, values⟩ := exists_blocks_cons renderer bundle serial first rest
          rw [values]
          exact ih (pairing? serial first rest) next (pair_succ_iff.mp pair)

/-- A block outside all pairs is rendered without a bundle. -/
theorem block_of_alone (bundle : Option Bundle) (serial : UInt32) {bs : List Block}
    {position : Nat} {value : Value} (outer : position = 0 → bundle = none)
    (ends : ¬ EndsPair bs position) (begins : ¬ ∃ text markers, Pair bs position text markers)
    (shown : (renderer.blocks bundle serial bs).1[position]? = some value) :
    ∃ start b, value = (renderer.block none start b).1 := by
  induction position generalizing bs bundle serial with
  | zero =>
      cases bs with
      | nil => cases shown
      | cons first rest =>
          obtain ⟨start, next, values⟩ := exists_blocks_cons renderer bundle serial first rest
          have closed : pairing? serial first rest = none := by
            refine Option.eq_none_iff_forall_ne_some.mpr fun opened same => begins ?_
            obtain ⟨text, markers, pair, -⟩ := pairing?_eq_some_iff.mp same
            exact ⟨text, markers, pair⟩
          rw [values, closed, outer rfl] at shown
          exact ⟨start, first, (Option.some.inj shown).symm⟩
  | succ position ih =>
      cases bs with
      | nil => cases shown
      | cons first rest =>
          obtain ⟨start, next, values⟩ := exists_blocks_cons renderer bundle serial first rest
          rw [values] at shown
          refine ih (pairing? serial first rest) next ?_ ?_ ?_ shown
          · rintro rfl
            refine Option.eq_none_iff_forall_ne_some.mpr fun opened same => ends ?_
            obtain ⟨text, markers, pair, -⟩ := pairing?_eq_some_iff.mp same
            exact ⟨0, text, markers, rfl, pair⟩
          · rintro ⟨before, text, markers, rfl, pair⟩
            exact ends ⟨before + 1, text, markers, rfl, pair_succ_iff.mpr pair⟩
          · rintro ⟨text, markers, pair⟩
            exact begins ⟨text, markers, pair_succ_iff.mpr pair⟩

/-! ## The contexts of a pair -/

theorem calloutBase_listing (bundle : Bundle) (serial : UInt32) (info : Meta)
    (language : Option String) (body : String) :
    (renderer.block (some bundle) serial (.listing info language body)).1.get? "callout_base" =
      (annotate? renderer.backend bundle body).map fun _ => .string bundle.base := by
  rw [block, listingEntries]
  cases annotate? renderer.backend bundle body with
  | none => rfl
  | some annotated => cases renderer.backend <;> rfl

theorem calloutMarkup_listing (bundle : Bundle) (serial : UInt32) (info : Meta)
    (language : Option String) (body : String) {format : TagFormat}
    (tags : renderer.backend = format.backend) :
    (renderer.block (some bundle) serial (.listing info language body)).1.get? "callout_markup" =
      (annotate? format.backend bundle body).map .string := by
  rw [block, listingEntries, tags]
  cases annotate? format.backend bundle body with
  | none => rfl
  | some annotated => cases format <;> rfl

theorem markup_listing (bundle : Bundle) (serial : UInt32) (info : Meta)
    (language : Option String) (body : String) {format : TagFormat}
    (tags : renderer.backend = format.backend) :
    (renderer.block (some bundle) serial (.listing info language body)).1.get? "markup" =
      some (.string (verbatim format.backend body)) := by
  rw [block, listingEntries, tags]
  cases annotate? format.backend bundle body with
  | none => rfl
  | some annotated => cases format <;> rfl

theorem items_of_listing (bundle : Bundle) (serial : UInt32) (info : Meta)
    (language : Option String) (body : String) :
    (renderer.block (some bundle) serial (.listing info language body)).1.items = [] := by
  rw [block, listingEntries]
  cases annotate? renderer.backend bundle body with
  | none => rfl
  | some annotated => cases renderer.backend <;> rfl

/-- The contexts of a listing and the list after it are linked if they share a bundle. -/
theorem linked_pair {bundle : Bundle} {first second : Block} {text : String}
    {markers : List String} (fits : bundle.ordinals = markers.map markerOrdinal?)
    (listing : first.listingText? = some text) (list : second.calloutMarkers? = some markers)
    (start next : UInt32) :
    Linked renderer.backend text markers (renderer.block (some bundle) start first).1
      (renderer.block (some bundle) next second).1 bundle.base := by
  obtain ⟨info, language, rfl⟩ := Block.exists_of_listingText? listing
  obtain ⟨outer, entries, rfl, rfl⟩ := Block.exists_of_calloutMarkers? list
  have explained := explained_items renderer outer bundle 0 next entries fits
  refine ⟨rfl, explained, ?_, ?_, ?_, ?_⟩
  · intro shown carried
    rw [calloutBase_listing, Option.map_eq_some_iff] at carried
    obtain ⟨-, -, same⟩ := carried
    exact same.symm
  · rw [calloutBase_listing, Option.isSome_map, isSome_annotate?_iff]
    simp only [numbers_iff fits]
  · intro format tags carried
    rw [calloutBase_listing, Option.isSome_map, tags] at carried
    obtain ⟨annotated, found⟩ := Option.isSome_iff_exists.mp carried
    refine ⟨annotated, ?_, ?_⟩
    · rw [calloutMarkup_listing renderer bundle start info language text tags, found]
      rfl
    · rw [anchorIds_of_annotate? found, ne_eq, List.map_eq_nil_iff]
      exact ordinals_ne_nil_iff.mpr (isSome_annotate?_iff.mp carried)
  · intro format tags field either markup shown id inside
    rcases List.mem_cons.mp either with rfl | either
    · rw [markup_listing renderer bundle start info language text tags] at shown
      cases shown
      rw [anchorIds_verbatim] at inside
      cases inside
    · rw [List.mem_singleton.mp either,
        calloutMarkup_listing renderer bundle start info language text tags,
        Option.map_eq_some_iff] at shown
      obtain ⟨annotated, found, same⟩ := shown
      cases same
      -- the number of a mark is that of a marker, whose item has the same id
      rw [anchorIds_of_annotate? found] at inside
      obtain ⟨ordinal, marked, rfl⟩ := List.mem_map.mp inside
      obtain ⟨marker, listed, value⟩ := (numbers_iff fits).mp (has_of_mem_ordinals marked)
      obtain ⟨item, inside, known⟩ := exists_right_of_mem explained listed
      exact ⟨item, inside, by rw [known.calloutId?_eq, value]; rfl⟩

theorem Linked.exists_hasCallout {backend : Backend} {text : String} {markers : List String}
    {listing list : Value} {base : String}
    (linked : Linked backend text markers listing list base)
    (numbered : ∃ marker ∈ markers, (markerOrdinal? marker).isSome) :
    ∃ item ∈ list.items, item.HasCallout := by
  obtain ⟨marker, listed, ordinal⟩ := numbered
  obtain ⟨item, inside, known⟩ := exists_right_of_mem linked.items listed
  exact ⟨item, inside, known.hasCallout_iff.mpr ordinal⟩

/-! ## Sequences -/

/-- What the contexts of a pair are, in a sequence that the walk begins without a bundle. -/
theorem linked_of_pair (serial : UInt32) {bs : List Block} {position : Nat} {text : String}
    {markers : List String} (pair : Pair bs position text markers) :
    ∃ listing list base, (renderer.blocks none serial bs).1[position]? = some listing ∧
      (renderer.blocks none serial bs).1[position + 1]? = some list ∧ listing.items = [] ∧
      Linked renderer.backend text markers listing list base := by
  obtain ⟨shared, first, second, start, next, fits, listing, list, shown, follows⟩ :=
    blocks_of_pair renderer none serial pair
  refine ⟨_, _, _, shown, follows, ?_, linked_pair renderer fits listing list start next⟩
  obtain ⟨info, language, rfl⟩ := Block.exists_of_listingText? listing
  exact items_of_listing renderer shared start info language text

/-- How a context stands among the pairs of its sequence, and what it shows there. -/
inductive Standing (blocks : List Block) (position : Nat) (value : Value) : Prop where
  | second (ends : EndsPair blocks position)
      (carried : ∃ item ∈ value.items, item.HasCallout)
      (based : (value.get? "callout_base").isSome)
  | first {text : String} {markers : List String} (ends : ¬ EndsPair blocks position)
      (bare : value.items = []) (pair : Pair blocks position text markers)
      (marked : (value.get? "callout_base").isSome ↔
        ∃ ordinal, Marks text ordinal ∧ Numbers markers ordinal)
  | alone (ends : ¬ EndsPair blocks position)
      (begins : ¬ ∃ text markers, Pair blocks position text markers)
      (plain : value.get? "callout_base" = none)
      (bare : ∀ item ∈ value.items, ¬ item.HasCallout)

/-- Every context of a sequence is the first or the second of a pair, or stands alone. -/
theorem standing_of_shown (serial : UInt32) {bs : List Block} {position : Nat} {value : Value}
    (shown : (renderer.blocks none serial bs).1[position]? = some value) :
    Standing bs position value := by
  by_cases ends : EndsPair bs position
  · obtain ⟨before, text, markers, rfl, pair⟩ := ends
    obtain ⟨listing, list, base, -, follows, -, linked⟩ := linked_of_pair renderer serial pair
    rw [follows] at shown
    cases shown
    refine .second ⟨before, text, markers, rfl, pair⟩ (linked.exists_hasCallout pair.numbered) ?_
    rw [linked.based]
    rfl
  · by_cases begins : ∃ text markers, Pair bs position text markers
    · obtain ⟨text, markers, pair⟩ := begins
      obtain ⟨listing, list, base, first, -, bare, linked⟩ := linked_of_pair renderer serial pair
      rw [first] at shown
      cases shown
      exact .first ends bare pair linked.marked
    · obtain ⟨start, b, rfl⟩ :=
        block_of_alone renderer none serial (fun _ => rfl) ends begins shown
      obtain ⟨plain, bare⟩ := block_alone renderer start b
      exact .alone ends begins plain bare

/-- The contexts of every sequence that is begun without a bundle are local. -/
theorem local_blocks (serial : UInt32) (bs : List Block) :
    Local renderer.backend bs (renderer.blocks none serial bs).1 := by
  refine ⟨fun position value shown => ?_, fun position value shown => ?_, ?_⟩
  · cases standing_of_shown renderer serial shown with
    | second ends carried _ => exact iff_of_true carried ends
    | first ends bare => exact iff_of_false (by simp [bare]) ends
    | alone ends _ _ bare =>
        exact iff_of_false (fun ⟨item, inside, carried⟩ => bare item inside carried) ends
  · cases standing_of_shown renderer serial shown with
    | second ends _ based => exact iff_of_true based (.inl ends)
    | first ends _ pair marked =>
        rw [or_iff_right ends, marked]
        constructor
        · exact fun known => ⟨_, _, pair, known⟩
        · rintro ⟨other, others, same, known⟩
          obtain ⟨rfl, rfl⟩ := pair.unique same
          exact known
    | alone ends begins plain _ =>
        rw [or_iff_right ends, plain]
        exact iff_of_false Bool.false_ne_true
          fun ⟨text, markers, pair, _⟩ => begins ⟨text, markers, pair⟩
  · intro position text markers pair
    obtain ⟨listing, list, base, first, follows, -, linked⟩ := linked_of_pair renderer serial pair
    exact ⟨listing, list, base, first, follows, linked⟩

end Renderer

/-! ## Revisions -/

namespace Revision

variable {σ : Type} {revise : Revision σ}

theorem markers_items (entries : List (ListItem Block)) (state : σ) :
    (revise.items entries state).1.map (·.marker) = entries.map (·.marker) := by
  induction entries generalizing state with
  | nil => rfl
  | cons entry rest ih => exact congrArg (entry.marker :: ·) (ih _)

theorem listingText?_block (b : Block) (state : σ) :
    (revise.block b state).1.listingText? = b.listingText? := by
  cases b <;> rfl

theorem calloutMarkers?_block (b : Block) (state : σ) :
    (revise.block b state).1.calloutMarkers? = b.calloutMarkers? := by
  cases b with
  | list info kind entries =>
      cases kind with
      | callout => exact congrArg some (markers_items entries _)
      | unordered | ordered => rfl
  | _ => rfl

/-- A revision keeps the pairs. -/
theorem pair_blocks_iff (bs : List Block) (state : σ) {position : Nat} {text : String}
    {markers : List String} :
    Renderer.Pair (revise.blocks bs state).1 position text markers ↔
      Renderer.Pair bs position text markers := by
  have texts : (revise.blocks bs state).1[position]?.bind Block.listingText? =
      bs[position]?.bind Block.listingText? := by
    obtain ⟨before, same⟩ := getElem?_blocks revise bs state position
    simp only [same, Option.bind_map, Function.comp_def, listingText?_block]
  have lists : (revise.blocks bs state).1[position + 1]?.bind Block.calloutMarkers? =
      bs[position + 1]?.bind Block.calloutMarkers? := by
    obtain ⟨before, same⟩ := getElem?_blocks revise bs state (position + 1)
    simp only [same, Option.bind_map, Function.comp_def, calloutMarkers?_block]
  constructor
  · rintro ⟨listing, list, numbered⟩
    exact ⟨texts ▸ listing, lists ▸ list, numbered⟩
  · rintro ⟨listing, list, numbered⟩
    exact ⟨texts ▸ listing, lists ▸ list, numbered⟩

/-- Contexts that are local for a revised sequence are local for the sequence. -/
theorem local_of_blocks {backend : Backend} (bs : List Block) (state : σ) (values : List Value)
    (held : Renderer.Local backend (revise.blocks bs state).1 values) :
    Renderer.Local backend bs values := by
  obtain ⟨explains_iff, based_iff, linked⟩ := held
  simp only [Renderer.EndsPair, pair_blocks_iff] at explains_iff based_iff linked
  exact ⟨explains_iff, based_iff, linked⟩

end Revision

/-- **Callouts are local to their pairs**, in every sequence of blocks at every depth of a
document, for every backend. -/
theorem Renderer.callouts_local (renderer : Renderer) (document : Document) :
    ∃ values, (renderer.context document).parts? "blocks" = some values ∧
      Throughout (Local renderer.backend) document.blocks values :=
  throughout_context (local_blocks renderer) Revision.local_of_blocks document

end Rendition
