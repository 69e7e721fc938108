/-
# Rendition.Proofs.Renderer.Projection -- contexts without their markup

Most of a context is the same whoever renders it.  What a backend writes is in
fields of its own, and `Value.withoutMarkup` removes them from every map: the names
of the backend and of the templates, the markup fields, the title of a block (that
of a document is plain text), and the text of a listing with callouts, in which
LaTeX shows them.  Maps that no backend writes, such as attributes and the index,
can be left out of the removal, so that more is kept.

Two values are `Alike` if they are the same without markup.  Maps are compared
entry by entry; which fields are removed depends on the map as a whole, so the
entries are compared under their `owner`.
-/
import Rendition.Proofs.Callout.Marks
import Rendition.Renderer.Root

namespace Rendition

set_option autoImplicit false

namespace Value

/-- The fields that hold markup or name a backend, in whatever map they stand. -/
def backendFields : List String :=
  ["backend", "template", "title_markup", "block_title", "content", "terms", "description",
    "markup", "callout_markup", "attribution", "citetitle"]

/-- The fields whose maps no backend writes. -/
def foreignFields : List String := ["attributes", "meta", "index", "navigation"]

/-- The kind of a block, read off the entries of its context. -/
def blockKind? (entries : List (String × Value)) : Option String :=
  (entries.lookup "kind").bind string?

/-- Whether the entries are those of a listing that carries callouts. -/
def carriesCallouts (entries : List (String × Value)) : Bool :=
  blockKind? entries == some "listing" && (entries.lookup "callout_base").isSome

/-- Whether a field of a map with these entries depends on the backend. -/
def dependsOnBackend (entries : List (String × Value)) (key : String) : Bool :=
  backendFields.contains key || (key == "title" && (blockKind? entries).isSome) ||
    (key == "text" && carriesCallouts entries)

mutual

/-- The value without the fields that depend on the backend.  If `deep`, they are removed from
every map, and otherwise only from the maps that backends write. -/
def withoutMarkup (deep : Bool) : Value → Value
  | .map entries => .map (entriesWithoutMarkup deep (dependsOnBackend entries) entries)
  | .list items => .list (itemsWithoutMarkup deep items)
  | .string text => .string text
  | .bool value => .bool value
  | .int value => .int value
  | .null => .null

def itemsWithoutMarkup (deep : Bool) : List Value → List Value
  | [] => []
  | value :: rest => value.withoutMarkup deep :: itemsWithoutMarkup deep rest

def entriesWithoutMarkup (deep : Bool) (removed : String → Bool) :
    List (String × Value) → List (String × Value)
  | [] => []
  | (key, value) :: rest =>
      let others := entriesWithoutMarkup deep removed rest
      if removed key then others
      else if foreignFields.contains key && ! deep then (key, value) :: others
      else (key, value.withoutMarkup deep) :: others

end

variable {deep : Bool}

/-- Nothing else is removed: any other field is found as before, with its own markup removed unless
it is left as it is. -/
theorem lookup_entriesWithoutMarkup (removed : String → Bool) (entries : List (String × Value))
    (key : String) :
    (entriesWithoutMarkup deep removed entries).lookup key =
      if removed key then none
      else (entries.lookup key).map fun value =>
        if foreignFields.contains key && ! deep then value else value.withoutMarkup deep := by
  induction entries with
  | nil => simp [entriesWithoutMarkup]
  | cons entry rest ih =>
      obtain ⟨name, value⟩ := entry
      by_cases same : key = name
      · subst same
        by_cases hidden : removed key = true
        · simpa [entriesWithoutMarkup, hidden] using ih
        · by_cases whole : (foreignFields.contains key && ! deep) = true
          · simp only [entriesWithoutMarkup, hidden, whole, if_true, List.lookup_cons_self]
            simp
          · simp only [entriesWithoutMarkup, hidden, whole, List.lookup_cons_self]
            simp
      · have skipped : (key == name) = false := by simpa using same
        rw [List.lookup_cons, skipped, ← ih]
        simp only [entriesWithoutMarkup]
        split
        · rfl
        · split <;> rw [List.lookup_cons, skipped]

/-! ## Values -/

variable (deep) in
/-- Two values that are the same without markup. -/
def Alike (first second : Value) : Prop := first.withoutMarkup deep = second.withoutMarkup deep

theorem alike_list_cons {first second : Value} {rest others : List Value}
    (head : Alike deep first second) (tail : Alike deep (.list rest) (.list others)) :
    Alike deep (.list (first :: rest)) (.list (second :: others)) := by
  unfold Alike at head tail ⊢
  simp only [withoutMarkup, list.injEq] at tail
  simp only [withoutMarkup, itemsWithoutMarkup, head, tail]

theorem alike_list_map {α : Type} {first second : α → Value} (parts : List α)
    (each : ∀ part, Alike deep (first part) (second part)) :
    Alike deep (.list (parts.map first)) (.list (parts.map second)) := by
  induction parts with
  | nil => rfl
  | cons part rest ih => exact alike_list_cons (each part) ih

/-! ## Entries -/

variable (deep) in
/-- Entries that are the same without markup, as entries of maps from which the fields are removed
that depend on the backend among those of `owner`. -/
def AlikeIn (owner first second : List (String × Value)) : Prop :=
  entriesWithoutMarkup deep (dependsOnBackend owner) first =
    entriesWithoutMarkup deep (dependsOnBackend owner) second

variable {owner : List (String × Value)}

theorem dependsOnBackend_of_mem {key : String} (known : key ∈ backendFields) :
    dependsOnBackend owner key = true := by
  have contained : backendFields.contains key = true := List.contains_iff_mem.mpr known
  unfold dependsOnBackend
  rw [contained, Bool.true_or, Bool.true_or]

theorem dependsOnBackend_text (carried : carriesCallouts owner = true) :
    dependsOnBackend owner "text" = true := by
  unfold dependsOnBackend
  rw [carried]
  rfl

/-- Which fields are removed from a map depends on its kind and on whether it has callouts. -/
theorem dependsOnBackend_congr {first second : List (String × Value)}
    (kind : blockKind? first = blockKind? second)
    (callouts : carriesCallouts first = carriesCallouts second) :
    dependsOnBackend first = dependsOnBackend second := by
  funext key
  unfold dependsOnBackend
  rw [kind, callouts]

/-- Maps are alike if their kinds, their callouts and their entries are. -/
theorem alike_map {first second : List (String × Value)}
    (kind : blockKind? first = blockKind? second)
    (callouts : carriesCallouts first = carriesCallouts second)
    (entries : AlikeIn deep first first second) : Alike deep (.map first) (.map second) := by
  unfold Alike
  unfold AlikeIn at entries
  simp only [withoutMarkup, ← dependsOnBackend_congr kind callouts, entries]

/-- Maps that are not the contexts of blocks. -/
theorem alike_map_of_no_kind {first second : List (String × Value)}
    (kind : first.lookup "kind" = none) (other : second.lookup "kind" = none)
    (entries : AlikeIn deep first first second) : Alike deep (.map first) (.map second) := by
  have unknown : blockKind? first = none := by rw [blockKind?, kind, Option.bind_none]
  have otherUnknown : blockKind? second = none := by rw [blockKind?, other, Option.bind_none]
  refine alike_map ?_ ?_ entries
  · rw [unknown, otherUnknown]
  · unfold carriesCallouts
    rw [unknown, otherUnknown]
    rfl

namespace AlikeIn

theorem refl (entries : List (String × Value)) : AlikeIn deep owner entries entries := rfl

/-- An entry that both have. -/
theorem same {first second : List (String × Value)} (entry : String × Value)
    (rest : AlikeIn deep owner first second) :
    AlikeIn deep owner (entry :: first) (entry :: second) := by
  unfold AlikeIn at rest ⊢
  simp only [entriesWithoutMarkup, rest]

/-- An entry that is removed. -/
theorem drop {first second : List (String × Value)} {key : String} {value : Value}
    (hidden : dependsOnBackend owner key = true) (rest : AlikeIn deep owner first second) :
    AlikeIn deep owner ((key, value) :: first) second := by
  unfold AlikeIn at rest ⊢
  simp only [entriesWithoutMarkup, hidden, if_true, rest]

/-- Entries under a field that is removed. -/
theorem removed {first second : List (String × Value)} {key : String} {value other : Value}
    (hidden : dependsOnBackend owner key = true) (rest : AlikeIn deep owner first second) :
    AlikeIn deep owner ((key, value) :: first) ((key, other) :: second) := by
  have dropped : AlikeIn deep owner ((key, other) :: second) first := drop hidden rest.symm
  exact drop hidden dropped.symm

/-- Entries under a field of backends. -/
theorem backend {first second : List (String × Value)} {key : String} {value other : Value}
    (known : key ∈ backendFields) (rest : AlikeIn deep owner first second) :
    AlikeIn deep owner ((key, value) :: first) ((key, other) :: second) :=
  removed (dependsOnBackend_of_mem known) rest

/-- Entries under a field that is looked into. -/
theorem parts {first second : List (String × Value)} {key : String} {value other : Value}
    (own : foreignFields.contains key = false) (alike : Alike deep value other)
    (rest : AlikeIn deep owner first second) :
    AlikeIn deep owner ((key, value) :: first) ((key, other) :: second) := by
  unfold AlikeIn at rest ⊢
  unfold Alike at alike
  simp only [entriesWithoutMarkup, own, Bool.false_and, Bool.false_eq_true, if_false, alike, rest]

end AlikeIn

end Value

namespace Renderer

open Value

variable {deep : Bool} {first second : Renderer}

/-! ## Listings -/

/-- The annotated text of a listing, if it has a mark of its bundle. -/
def annotation? (renderer : Renderer) (text : String) (bundle : Option Callout.Bundle) :
    Option String :=
  bundle.bind (Callout.annotate? renderer.backend · text)

/-- Whether a listing is annotated does not depend on the renderer. -/
theorem isSome_annotation?_congr (first second : Renderer) (text : String)
    (bundle : Option Callout.Bundle) :
    (first.annotation? text bundle).isSome = (second.annotation? text bundle).isSome := by
  cases bundle with
  | none => rfl
  | some bundle =>
      unfold annotation?
      rw [Option.bind_some, Option.bind_some, Bool.eq_iff_iff, Callout.isSome_annotate?_iff,
        Callout.isSome_annotate?_iff]

/-- A listing that is not annotated keeps its text, and has no callouts. -/
theorem listingEntries_of_none {renderer : Renderer} {text : String}
    {bundle : Option Callout.Bundle} (language : Option String)
    (plain : renderer.annotation? text bundle = none) :
    renderer.listingEntries language text bundle =
      [("language", .ofText? language), ("text", .string text),
        ("markup", .string (Callout.verbatim renderer.backend text))] := by
  cases bundle with
  | none => rfl
  | some bundle =>
      unfold annotation? at plain
      rw [Option.bind_some] at plain
      unfold listingEntries
      simp only [plain]

/-- Of a listing that is annotated, the language and the base of the bundle are left, in this order
for every backend. -/
theorem listingEntries_of_some (deep : Bool) {renderer : Renderer} {text marked : String}
    {bundle : Option Callout.Bundle} (language : Option String)
    (annotated : renderer.annotation? text bundle = some marked) :
    ∃ opened, bundle = some opened ∧
      ((renderer.listingEntries language text bundle).lookup "callout_base").isSome = true ∧
      ∀ owner, dependsOnBackend owner "text" = true →
        AlikeIn deep owner (renderer.listingEntries language text bundle)
          [("language", .ofText? language), ("callout_base", .string opened.base)] := by
  obtain ⟨opened, rfl, found⟩ := Option.bind_eq_some_iff.mp annotated
  refine ⟨opened, rfl, ?_⟩
  unfold listingEntries
  simp only [found]
  cases renderer.backend with
  | html | docBook =>
      refine ⟨rfl, ?_⟩
      intro owner hidden
      apply AlikeIn.same
      apply AlikeIn.drop hidden
      apply AlikeIn.drop (dependsOnBackend_of_mem (by decide))
      apply AlikeIn.same
      exact AlikeIn.drop (dependsOnBackend_of_mem (by decide)) (.refl _)
  | latex =>
      refine ⟨rfl, ?_⟩
      intro owner hidden
      apply AlikeIn.same
      apply AlikeIn.same
      apply AlikeIn.drop hidden
      exact AlikeIn.drop (dependsOnBackend_of_mem (by decide)) (.refl _)

/-! ## Blocks -/

/-- The context of a block is its base and what its kind adds; only listings can carry callouts. -/
theorem carriesCallouts_base (renderer : Renderer) (b : Block) (title : List Inline)
    (added : Entries) :
    carriesCallouts (renderer.base b title ++ added) =
      (b.kind == "listing" && (added.lookup "callout_base").isSome) := rfl

/-- Two contexts of a block are alike if what is added to their bases is, and if both or neither
carry callouts. -/
theorem alike_of_added (b : Block) (title : List Inline) {added other : Entries}
    (callouts : (b.kind == "listing" && (added.lookup "callout_base").isSome) =
      (b.kind == "listing" && (other.lookup "callout_base").isSome))
    (alike : AlikeIn deep (first.base b title ++ added) added other) :
    Alike deep (.map (first.base b title ++ added)) (.map (second.base b title ++ other)) := by
  refine alike_map rfl callouts ?_
  have markup : dependsOnBackend (first.base b title ++ added) "title" = true := rfl
  -- the template and the title differ; kind, id, metadata and the plain title do not
  apply AlikeIn.same
  apply AlikeIn.backend (by decide)
  apply AlikeIn.same
  apply AlikeIn.same
  apply AlikeIn.removed markup
  apply AlikeIn.same
  exact alike

/-- Of blocks that are no listings, the same fields are removed whatever is added. -/
theorem alike_of_base (b : Block) (title : List Inline) {added other : Entries}
    (kind : (b.kind == "listing") = false)
    (alike : AlikeIn deep (first.base b title ++ added) added other) :
    Alike deep (.map (first.base b title ++ added)) (.map (second.base b title ++ other)) := by
  refine alike_of_added b title ?_ alike
  rw [kind, Bool.false_and, Bool.false_and]

/-- Listings differ in markup and in the text that LaTeX changes. -/
theorem alike_listing (info : Meta) (language : Option String) (body : String)
    (bundle : Option Callout.Bundle) :
    Alike deep
      (.map (first.base (.listing info language body) info.title ++
        first.listingEntries language body bundle))
      (.map (second.base (.listing info language body) info.title ++
        second.listingEntries language body bundle)) := by
  have same := isSome_annotation?_congr first second body bundle
  cases annotated : first.annotation? body bundle with
  | none =>
      have other : second.annotation? body bundle = none := by
        rw [annotated] at same
        exact Option.isNone_iff_eq_none.mp (by simpa using same.symm)
      rw [listingEntries_of_none language annotated, listingEntries_of_none language other]
      refine alike_of_added _ _ rfl ?_
      exact .same _ (.same _ (.backend (by decide) (.refl _)))
  | some marked =>
      obtain ⟨otherMarked, other⟩ : ∃ text, second.annotation? body bundle = some text := by
        rw [annotated] at same
        exact Option.isSome_iff_exists.mp same.symm
      obtain ⟨opened, rfl, base, left⟩ := listingEntries_of_some deep language annotated
      obtain ⟨_, again, otherBase, right⟩ := listingEntries_of_some deep language other
      cases again
      refine alike_of_added _ _ ?_ ?_
      · rw [base, otherBase]
      · -- LaTeX has shown the callouts in the text, so it is removed for all backends
        have hidden : dependsOnBackend (first.base (.listing info language body) info.title ++
            first.listingEntries language body (some opened)) "text" = true := by
          refine dependsOnBackend_text ?_
          rw [carriesCallouts_base, base]
          rfl
        exact (left _ hidden).trans (right _ hidden).symm

theorem alike_cellValue (cells : first.cells = second.cells) (info : Meta) (cell : TableCell) :
    Alike deep (first.cellValue info cell) (second.cellValue info cell) := by
  unfold cellValue
  rw [cells]
  exact alike_map_of_no_kind rfl rfl (.backend (by decide) (.refl _))

theorem alike_rowValue (cells : first.cells = second.cells) (info : Meta) (row : TableRow) :
    Alike deep (first.rowValue info row) (second.rowValue info row) := by
  refine alike_map_of_no_kind rfl rfl (.same _ (.parts rfl ?_ (.refl _)))
  exact alike_list_map row.cells fun cell => alike_cellValue cells info cell

mutual

/-- Two walks over a block agree on its context without markup, and on the serial number that they
have reached after it: the bundles of later blocks have it in their bases, which are kept. -/
theorem alike_block (cells : first.cells = second.cells) (bundle : Option Callout.Bundle)
    (serial : UInt32) (b : Block) :
    Alike deep (first.block bundle serial b).1 (second.block bundle serial b).1 ∧
      (first.block bundle serial b).2 = (second.block bundle serial b).2 := by
  cases b with
  | paragraph info content =>
      refine ⟨alike_of_base _ _ rfl ?_, rfl⟩
      exact .backend (by decide) (.refl _)
  | heading info level title =>
      refine ⟨alike_of_base (.heading info level title) title rfl ?_, rfl⟩
      exact .backend (by decide) (.refl _)
  | «section» info level title children =>
      obtain ⟨shown, last⟩ := alike_blocks cells none serial children
      refine ⟨alike_of_base (.section info level title children) title rfl ?_, last⟩
      apply AlikeIn.backend (by decide)
      apply AlikeIn.same
      apply AlikeIn.same
      exact .parts rfl shown (.refl _)
  | listing info language body => exact ⟨alike_listing info language body bundle, rfl⟩
  | literal info body =>
      refine ⟨alike_of_base _ _ rfl ?_, rfl⟩
      exact .same _ (.backend (by decide) (.refl _))
  | math info formula =>
      refine ⟨alike_of_base _ _ rfl ?_, rfl⟩
      exact .same _ (.same _ (.backend (by decide) (.refl _)))
  | command info name target => exact ⟨alike_of_base _ _ rfl (.refl _), rfl⟩
  | list info kind entries =>
      obtain ⟨shown, last⟩ := alike_items cells info bundle 0 serial entries
      refine ⟨alike_of_base (.list info kind entries) info.title rfl ?_, last⟩
      exact .same _ (.parts rfl shown (.refl _))
  | descriptions info entries =>
      obtain ⟨shown, last⟩ := alike_descriptions cells info serial entries
      exact ⟨alike_of_base _ _ rfl (.parts rfl shown (.refl _)), last⟩
  | table info rows =>
      refine ⟨alike_of_base _ _ rfl (.parts rfl ?_ (.refl _)), rfl⟩
      exact alike_list_map rows fun row => alike_rowValue cells info row
  | enclosure kind info children =>
      obtain ⟨shown, last⟩ := alike_blocks cells none serial children
      have other : (kind.name == "listing") = false := by cases kind <;> rfl
      exact ⟨alike_of_base _ _ other (.parts rfl shown (.refl _)), last⟩
  | quote info attribution citation children =>
      obtain ⟨shown, last⟩ := alike_blocks cells none serial children
      refine ⟨alike_of_base _ _ rfl ?_, last⟩
      apply AlikeIn.parts rfl shown
      apply AlikeIn.backend (by decide)
      exact .backend (by decide) (.refl _)
  | admonition info kind children =>
      obtain ⟨shown, last⟩ := alike_blocks cells none serial children
      exact ⟨alike_of_base _ _ rfl (.parts rfl shown (.refl _)), last⟩
  | verse info content attribution =>
      refine ⟨alike_of_base _ _ rfl ?_, rfl⟩
      apply AlikeIn.backend (by decide)
      apply AlikeIn.same
      exact .backend (by decide) (.refl _)

/-- Two renderers show a sequence alike and take the same serial numbers. -/
theorem alike_blocks (cells : first.cells = second.cells) (bundle : Option Callout.Bundle)
    (serial : UInt32) (bs : List Block) :
    Alike deep (.list (first.blocks bundle serial bs).1)
        (.list (second.blocks bundle serial bs).1) ∧
      (first.blocks bundle serial bs).2 = (second.blocks bundle serial bs).2 := by
  match bs with
  | [] => exact ⟨rfl, rfl⟩
  | b :: rest =>
      obtain ⟨head, next⟩ := alike_block cells ((pairing? serial b rest).or bundle)
        (if (pairing? serial b rest).isSome then serial + 1 else serial) b
      simp only [blocks]
      rw [next]
      obtain ⟨tail, last⟩ := alike_blocks cells (pairing? serial b rest) _ rest
      exact ⟨alike_list_cons head tail, last⟩

theorem alike_items (cells : first.cells = second.cells) (info : Meta)
    (bundle : Option Callout.Bundle) (position : Nat) (serial : UInt32)
    (entries : List (ListItem Block)) :
    Alike deep (.list (first.items info bundle position serial entries).1)
        (.list (second.items info bundle position serial entries).1) ∧
      (first.items info bundle position serial entries).2 =
        (second.items info bundle position serial entries).2 := by
  match entries with
  | [] => exact ⟨rfl, rfl⟩
  | ⟨marker, content, children⟩ :: rest =>
      obtain ⟨shown, next⟩ := alike_blocks cells none serial children
      simp only [items]
      rw [next]
      obtain ⟨tail, last⟩ := alike_items cells info bundle (position + 1) _ rest
      refine ⟨alike_list_cons (alike_map_of_no_kind rfl rfl ?_) tail, last⟩
      apply AlikeIn.same
      apply AlikeIn.backend (by decide)
      apply AlikeIn.same
      exact .parts rfl shown (.refl _)

theorem alike_descriptions (cells : first.cells = second.cells) (info : Meta) (serial : UInt32)
    (entries : List (DescriptionItem Block)) :
    Alike deep (.list (first.descriptions info serial entries).1)
        (.list (second.descriptions info serial entries).1) ∧
      (first.descriptions info serial entries).2 = (second.descriptions info serial entries).2 := by
  match entries with
  | [] => exact ⟨rfl, rfl⟩
  | ⟨terms, description, children⟩ :: rest =>
      obtain ⟨shown, next⟩ := alike_blocks cells none serial children
      simp only [descriptions]
      rw [next]
      obtain ⟨tail, last⟩ := alike_descriptions cells info _ rest
      refine ⟨alike_list_cons (alike_map_of_no_kind rfl rfl ?_) tail, last⟩
      apply AlikeIn.backend (by decide)
      apply AlikeIn.same
      apply AlikeIn.backend (by decide)
      apply AlikeIn.same
      exact .parts rfl shown (.refl _)

end

/-! ## Documents -/

theorem alike_footnoteValue (definition : Footnote.Definition) :
    Alike deep (first.footnoteValue definition) (second.footnoteValue definition) :=
  alike_map_of_no_kind rfl rfl (.same _ (.backend (by decide) (.refl _)))

def withFormat (renderer : Renderer) (backend : Backend) (resolve : Resolver) : Renderer :=
  { renderer with backend, resolve }

/-- **The plain part of a context does not depend on the backend or the resolver.**  Without the
markup, the contexts of a document for any two backends and resolvers are equal, whether or not
the markup fields are removed from the maps of attributes and the index too. -/
theorem withoutMarkup_context (renderer : Renderer) (backend other : Backend)
    (resolve otherwise : Resolver) (document : Document) (deep : Bool) :
    ((renderer.withFormat backend resolve).context document).withoutMarkup deep =
      ((renderer.withFormat other otherwise).context document).withoutMarkup deep := by
  have cells : (renderer.withFormat backend resolve).cells =
      (renderer.withFormat other otherwise).cells := rfl
  refine alike_map_of_no_kind rfl rfl ?_
  apply AlikeIn.backend (by decide)
  -- both renderers number the footnotes alike, so attributes and title are the same
  apply AlikeIn.same
  apply AlikeIn.same
  apply AlikeIn.backend (by decide)
  apply AlikeIn.parts rfl (alike_blocks cells none 0 _).1
  apply AlikeIn.parts rfl (alike_list_map _ alike_footnoteValue)
  exact .refl _

namespace Example

/-- A listing with a callout, and the list that explains it. -/
def explained : Document :=
  (Document.empty.withBlock (.listing .empty none "a <1>")).withBlock
    (.list .empty .callout [⟨"<1>", [.ofText "b"], []⟩])

/-- The text of the first block of a document, as a backend shows it. -/
def shownText? (backend : Backend) (document : Document) : Option String :=
  (((ofBackend backend).context document).getPath? ["blocks", "0", "text"]).bind Value.string?

-- the text of such a listing does depend on the backend
example : shownText? .html explained = some "a <1>" ∧
    shownText? .latex explained = some "a (1)" := by decide +kernel

end Example

end Renderer

end Rendition
