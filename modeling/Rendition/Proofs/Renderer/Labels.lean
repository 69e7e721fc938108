/-
# Rendition.Proofs.Renderer.Labels -- contexts do not show labels

A renderer never reads the key of a footnote, and of a number only that which
the numbering has set.  Of spans it makes one use: a cross-reference hands its
place, or that of the block around it, to the dialect as a hint.  DocBook and
LaTeX ignore the hint and HTML hands it on to the resolver.

So settled labels do not show in a context if hints are ignored or spans are kept
(`Dialect.Overlooks`), and together with `resolveDocument_relabel` a document
keeps its context under any relabelling that keeps different keys different
(`context_relabel`).  Two consequences are stated of pairs of documents: spans
carry no meaning (`context_withoutSpans`), and keys matter up to equality while
the numbers that are written in a document do not matter (`context_rekeyed`).
-/
import Rendition.Proofs.Footnote.Relabel
import Rendition.Renderer.Root

namespace Rendition

set_option autoImplicit false

/-- A dialect that writes cross-references without regard to their place. -/
def Dialect.IgnoresHints (dialect : Dialect) : Prop :=
  ∀ (target : Target) (hint other : Option Span) (content : String),
    dialect.crossReference target hint content = dialect.crossReference target other content

/-- A resolver that finds addresses without regard to the place of the cross-reference. -/
def Resolver.IgnoresHints (resolve : Resolver) : Prop :=
  ∀ (target : Target) (hint other : Option Span), resolve target hint = resolve target other

theorem Resolver.ignoresHints_none : Resolver.none.IgnoresHints := fun _ _ _ => rfl

/-- Only HTML asks the resolver, so only for HTML does it matter whether the resolver looks at
hints. -/
theorem Backend.ignoresHints_dialect (backend : Backend) {resolve : Resolver}
    (ignores : backend = .html → resolve.IgnoresHints) :
    (backend.dialect resolve).IgnoresHints := by
  intro target hint other content
  cases backend with
  | docBook | latex => rfl
  | html =>
      have address : resolve target hint = resolve target other := ignores rfl target hint other
      simp only [Backend.dialect, Html.dialect, Html.crossReference, address]

/-- A dialect that writes the same at a place after spans are changed and the place is moved: it
ignores hints, or neither happens. -/
def Dialect.Overlooks (dialect : Dialect) (labels : Relabelling) (place moved : Option Span) :
    Prop :=
  dialect.IgnoresHints ∨ labels.span = id ∧ moved = place

section Markup

variable {dialect : Dialect} {labels : Relabelling} {place moved : Option Span}

theorem Dialect.Overlooks.crossReference (overlooks : dialect.Overlooks labels place moved)
    (target : Target) (span : Span) (content : String) :
    dialect.crossReference target ((labels.span span).known?.or moved) content =
      dialect.crossReference target (span.known?.or place) content := by
  obtain ignores | ⟨kept, rfl⟩ := overlooks
  · exact ignores _ _ _ _
  · rw [kept, id]

/-- What overlooks a change of spans overlooks that the place is moved. -/
theorem Dialect.Overlooks.identity (overlooks : dialect.Overlooks labels place moved) :
    dialect.Overlooks .identity place moved :=
  overlooks.imp_right fun kept => ⟨rfl, kept.2⟩

/-! ## Inline content -/

namespace Inline

mutual

/-- Keys and spans leave no trace in the markup of a node. -/
theorem markup_relabel (overlooks : dialect.Overlooks labels place moved) (inline : Inline) :
    (inline.relabel labels.settled).markup dialect moved = inline.markup dialect place := by
  cases inline with
  | styled style content _ =>
      have inner := markupAll_relabelAll overlooks content
      exact congrArg (dialect.styled style) inner
  | crossReference target content span =>
      have inner := markupAll_relabelAll overlooks content
      show dialect.crossReference target ((labels.span span).known?.or moved)
          (markupAll dialect moved (relabelAll labels.settled content)) = _
      rw [inner]
      exact overlooks.crossReference target span _
  | link target content _ =>
      have inner := markupAll_relabelAll overlooks content
      cases content with
      | nil => rfl
      | cons first rest => exact congrArg (dialect.link target) inner
  | footnote content key id _ =>
      have inner := markupAll_relabelAll overlooks content
      cases content with
      | nil => cases id <;> rfl
      | cons first rest => exact congrArg (dialect.footnoteDefinition id) inner
  | text | math | passthrough | command | indexTerm => rfl

theorem markupAll_relabelAll (overlooks : dialect.Overlooks labels place moved)
    (content : List Inline) :
    markupAll dialect moved (relabelAll labels.settled content) =
      markupAll dialect place content := by
  match content with
  | [] => rfl
  | inline :: rest =>
      simp only [relabelAll, markupAll, markup_relabel overlooks inline,
        markupAll_relabelAll overlooks rest]

end

/-- The markup of content without regard to labels does not depend on where the content stands. -/
theorem markupAll_moved (overlooks : dialect.Overlooks labels place moved)
    (content : List Inline) :
    markupAll dialect moved content = markupAll dialect place content := by
  have same := markupAll_relabelAll overlooks.identity content
  have kept : relabelAll Relabelling.identity.settled content = content :=
    relabelAll_identity content
  rwa [kept] at same

variable (labels) in
mutual

/-- Plain text does not depend on labels. -/
theorem plain_relabel (inline : Inline) : (inline.relabel labels).plain = inline.plain := by
  cases inline with
  | styled _ content _ =>
      have inner := plainAll_relabelAll content
      simp only [relabel, plain, inner]
  | link _ content _ | crossReference _ content _ =>
      have inner := plainAll_relabelAll content
      cases content with
      | nil => rfl
      | cons first rest => exact inner
  | text | math | passthrough | command | footnote | indexTerm => rfl

theorem plainAll_relabelAll (content : List Inline) :
    plainAll (relabelAll labels content) = plainAll content := by
  match content with
  | [] => rfl
  | inline :: rest =>
      simp only [relabelAll, plainAll, plain_relabel inline, plainAll_relabelAll rest]

end

end Inline

end Markup

namespace Index

variable (labels : Relabelling)

mutual

/-- Index terms do not depend on labels. -/
theorem terms_relabel (inline : Inline) : terms (inline.relabel labels) = terms inline := by
  cases inline with
  | styled _ content _ | link _ content _ | crossReference _ content _
  | footnote content _ _ _ =>
      exact termsAll_relabelAll content
  | text | math | passthrough | command | indexTerm => rfl

theorem termsAll_relabelAll (content : List Inline) :
    termsAll (Inline.relabelAll labels content) = termsAll content := by
  match content with
  | [] => rfl
  | inline :: rest =>
      simp only [Inline.relabelAll, termsAll, terms_relabel inline, termsAll_relabelAll rest]

end

/-- The index of a document does not depend on its labels. -/
theorem collect_relabel (document : Document) :
    collect (document.relabel labels) = collect document := by
  unfold collect
  rw [Document.passages_relabel, List.flatMap_map]
  simp only [termsAll_relabelAll]

end Index

/-! ## Blocks -/

namespace Block

variable (labels : Relabelling)

theorem kind_relabel (block : Block) : (block.relabel labels).kind = block.kind := by
  cases block <;> rfl

theorem info_relabel_settled (block : Block) :
    (block.relabel labels.settled).info = block.info.relabel labels.settled := by
  cases block <;> rfl

theorem markers_relabelItems (items : List (ListItem Block)) :
    (relabelItems labels items).map (·.marker) = items.map (·.marker) := by
  induction items with
  | nil => rfl
  | cons item rest ih => simp only [relabelItems, List.map_cons, ih]

end Block

namespace Renderer

variable {renderer : Renderer} {labels : Relabelling}

variable (renderer labels) in
/-- A renderer that writes the same after spans are changed. -/
def Overlooks : Prop := renderer.dialect.IgnoresHints ∨ labels.span = id

theorem Overlooks.place (overlooks : renderer.Overlooks labels) (info : Meta) :
    renderer.dialect.Overlooks labels info.span.known?
      (info.relabel labels.settled).span.known? := by
  refine overlooks.imp_right fun kept => ⟨kept, ?_⟩
  simp only [Meta.relabel, Relabelling.settled, kept, id]

theorem Overlooks.noPlace (overlooks : renderer.Overlooks labels) :
    renderer.dialect.Overlooks labels none none :=
  overlooks.imp_right fun kept => ⟨kept, rfl⟩

theorem Overlooks.markup (overlooks : renderer.Overlooks labels) (info : Meta)
    (content : List Inline) :
    renderer.markup (info.relabel labels.settled).span.known?
        (Inline.relabelAll labels.settled content) =
      renderer.markup info.span.known? content :=
  congrArg Value.string (Inline.markupAll_relabelAll (overlooks.place info) content)

theorem plain_relabelAll (labels : Relabelling) (content : List Inline) :
    Value.plain (Inline.relabelAll labels content) = Value.plain content :=
  congrArg Value.string (Inline.plainAll_relabelAll labels content)

/-- What every block has does not depend on labels. -/
theorem Overlooks.base (overlooks : renderer.Overlooks labels) (b : Block) (title : List Inline) :
    renderer.base (b.relabel labels.settled) (Inline.relabelAll labels.settled title) =
      renderer.base b title := by
  have shown := overlooks.markup b.info title
  unfold Renderer.base
  rw [Block.kind_relabel, Block.info_relabel_settled, shown, plain_relabelAll]
  rfl

theorem Overlooks.headingBase (overlooks : renderer.Overlooks labels) (b : Block)
    (heading : List Inline) :
    renderer.headingBase (b.relabel labels.settled) (Inline.relabelAll labels.settled heading) =
      renderer.headingBase b heading := by
  have shown := overlooks.markup b.info b.info.title
  unfold Renderer.headingBase
  rw [overlooks.base, Block.info_relabel_settled, Meta.title_relabel, shown, plain_relabelAll]

theorem Overlooks.rowValue (overlooks : renderer.Overlooks labels) (info : Meta) (row : TableRow) :
    renderer.rowValue (info.relabel labels.settled) row = renderer.rowValue info row := by
  have each : ∀ cell, renderer.cellValue (info.relabel labels.settled) cell =
      renderer.cellValue info cell := by
    intro cell
    have shown := Inline.markupAll_moved (overlooks.place info) (renderer.cells cell.text)
    simp only [Renderer.cellValue, Renderer.markup, shown]
  unfold Renderer.rowValue
  rw [funext each]

/-- Whether two blocks make a pair does not depend on labels. -/
theorem pairing?_relabel (labels : Relabelling) (serial : UInt32) (b : Block) (rest : List Block) :
    pairing? serial (b.relabel labels) (Block.relabelAll labels rest) = pairing? serial b rest := by
  cases b with
  | listing =>
      cases rest with
      | nil => rfl
      | cons next rest =>
          cases next with
          | list _ kind entries =>
              cases kind with
              | callout =>
                  have markers := Block.markers_relabelItems labels entries
                  simp only [Block.relabelAll, Block.relabel, pairing?, markers]
              | unordered | ordered => rfl
          | _ => rfl
  | _ => rfl

mutual

/-- A block has the same context after it is relabelled, and the last serial number is the same. -/
theorem Overlooks.block (overlooks : renderer.Overlooks labels) (bundle : Option Callout.Bundle)
    (serial : UInt32) (b : Block) :
    renderer.block bundle serial (b.relabel labels.settled) = renderer.block bundle serial b := by
  have own := overlooks.base b b.info.title
  cases b with
  | paragraph info content | verse info content attribution =>
      have shown := overlooks.markup info content
      simp only [Block.relabel, Block.info] at own ⊢
      simp only [Renderer.block, Meta.title_relabel, own, shown, plain_relabelAll]
  | heading info level title =>
      have own := overlooks.headingBase (.heading info level title) title
      simp only [Block.relabel] at own ⊢
      simp only [Renderer.block, own]
  | «section» info level title children =>
      have own := overlooks.headingBase (.section info level title children) title
      have inner := overlooks.blocks none serial children
      simp only [Block.relabel] at own ⊢
      simp only [Renderer.block, own, inner]
  | listing | literal | command =>
      simp only [Block.relabel, Block.info] at own ⊢
      simp only [Renderer.block, Meta.title_relabel, own]
  | math =>
      simp only [Block.relabel, Block.info] at own ⊢
      simp only [Renderer.block, Meta.title_relabel, own]
      rfl
  | list info kind entries =>
      have inner := overlooks.items info bundle 0 serial entries
      simp only [Block.relabel, Block.info] at own ⊢
      simp only [Renderer.block, Meta.title_relabel, own, inner]
  | descriptions info entries =>
      have inner := overlooks.descriptions info serial entries
      simp only [Block.relabel, Block.info] at own ⊢
      simp only [Renderer.block, Meta.title_relabel, own, inner]
  | table info rows =>
      -- relabelling a table keeps numbers, which settled labels do anyway
      have each := funext (overlooks.rowValue info)
      have again : labels.settled.settled = labels.settled := rfl
      simp only [Block.relabel, Block.info, again] at own ⊢
      simp only [Renderer.block, Meta.title_relabel, own, each]
  | enclosure _ _ children | quote _ _ _ children | admonition _ _ children =>
      have inner := overlooks.blocks none serial children
      simp only [Block.relabel, Block.info] at own ⊢
      simp only [Renderer.block, Meta.title_relabel, own, inner]

/-- The contexts of a sequence do not depend on labels. -/
theorem Overlooks.blocks (overlooks : renderer.Overlooks labels) (bundle : Option Callout.Bundle)
    (serial : UInt32) (bs : List Block) :
    renderer.blocks bundle serial (Block.relabelAll labels.settled bs) =
      renderer.blocks bundle serial bs := by
  match bs with
  | [] => rfl
  | b :: rest =>
      have paired := pairing?_relabel labels.settled serial b rest
      simp only [Block.relabelAll, Renderer.blocks, paired, overlooks.block _ _ b,
        overlooks.blocks _ _ rest]

theorem Overlooks.items (overlooks : renderer.Overlooks labels) (info : Meta)
    (bundle : Option Callout.Bundle) (position : Nat) (serial : UInt32)
    (entries : List (ListItem Block)) :
    renderer.items (info.relabel labels.settled) bundle position serial
        (Block.relabelItems labels.settled entries) =
      renderer.items info bundle position serial entries := by
  match entries with
  | [] => rfl
  | ⟨marker, content, children⟩ :: rest =>
      have shown := overlooks.markup info content
      have inner := overlooks.blocks none serial children
      simp only [Block.relabelItems, Renderer.items, shown, plain_relabelAll, inner,
        overlooks.items info bundle _ _ rest]

theorem Overlooks.descriptions (overlooks : renderer.Overlooks labels) (info : Meta)
    (serial : UInt32) (entries : List (DescriptionItem Block)) :
    renderer.descriptions (info.relabel labels.settled) serial
        (Block.relabelDescriptions labels.settled entries) =
      renderer.descriptions info serial entries := by
  match entries with
  | [] => rfl
  | ⟨terms, description, children⟩ :: rest =>
      have shown := overlooks.markup info
      have inner := overlooks.blocks none serial children
      simp only [Block.relabelDescriptions, Renderer.descriptions, List.map_map,
        Function.comp_def, shown, plain_relabelAll, inner, overlooks.descriptions info _ rest]

end

/-! ## Documents -/

/-- **Labels do not show.**  A relabelling that keeps different keys different, and whose change of
spans the renderer overlooks, leaves the context of a document as it is. -/
theorem context_relabel {document : Document} (apart : labels.KeepsApart document.footnoteKeys)
    (overlooks : renderer.Overlooks labels) :
    renderer.context (document.relabel labels) = renderer.context document := by
  have shown : ∀ content, renderer.markup none (Inline.relabelAll labels.settled content) =
      renderer.markup none content := by
    intro content
    exact congrArg Value.string (Inline.markupAll_relabelAll overlooks.noPlace content)
  have notes : ∀ definition : Footnote.Definition,
      renderer.footnoteValue (definition.relabel labels.settled) =
        renderer.footnoteValue definition := by
    intro definition
    simp only [footnoteValue, Footnote.Definition.relabel, shown, plain_relabelAll]
  have blocks := overlooks.blocks none 0 (Footnote.resolveDocument document).document.blocks
  unfold context
  rw [Footnote.resolveDocument_relabel apart]
  simp only [Footnote.Resolved.relabel, Document.attributes_relabel, Document.blocks_relabel,
    Document.title_relabel, Index.collect_relabel, shown, plain_relabelAll, blocks, List.map_map,
    Function.comp_def, notes]

end Renderer

/-! ### Spans -/

/-- The relabelling that forgets where nodes stand. -/
def Relabelling.withoutSpans : Relabelling := ⟨id, id, fun _ => .unknown⟩

/-- A document with all spans unknown. -/
def Document.withoutSpans (document : Document) : Document := document.relabel .withoutSpans

def Footnote.Resolved.withoutSpans (resolved : Resolved) : Resolved :=
  resolved.relabel .withoutSpans

theorem Relabelling.keepsApart_withoutSpans (keys : List String) :
    Relabelling.withoutSpans.KeepsApart keys :=
  fun _ _ _ _ same => same

/-- Numbering commutes with forgetting spans. -/
theorem Footnote.resolveDocument_withoutSpans (document : Document) :
    resolveDocument document.withoutSpans = (resolveDocument document).withoutSpans :=
  resolveDocument_relabel (Relabelling.keepsApart_withoutSpans _)

/-- **Spans carry no meaning.**  Two documents that differ in spans only have the same context,
unless an HTML renderer has a resolver that looks at hints.  They are numbered alike, up to spans,
and have the same index before and after that. -/
theorem Renderer.context_withoutSpans {first second : Document}
    (same : first.withoutSpans = second.withoutSpans) :
    (∀ renderer : Renderer, (renderer.backend = .html → renderer.resolve.IgnoresHints) →
        renderer.context first = renderer.context second) ∧
      (Footnote.resolveDocument first).withoutSpans =
        (Footnote.resolveDocument second).withoutSpans ∧
      Index.collect first = Index.collect second ∧
      Index.collect (Footnote.resolveDocument first).document =
        Index.collect (Footnote.resolveDocument second).document := by
  have resolved : (Footnote.resolveDocument first).withoutSpans =
      (Footnote.resolveDocument second).withoutSpans := by
    rw [← Footnote.resolveDocument_withoutSpans, same, Footnote.resolveDocument_withoutSpans]
  have index : ∀ document : Document,
      Index.collect document.withoutSpans = Index.collect document :=
    Index.collect_relabel .withoutSpans
  refine ⟨?_, resolved, ?_, ?_⟩
  · intro renderer ignores
    have overlooks : renderer.Overlooks .withoutSpans :=
      Or.inl (renderer.backend.ignoresHints_dialect ignores)
    have forgotten : ∀ document : Document,
        renderer.context document.withoutSpans = renderer.context document :=
      fun _ => context_relabel (Relabelling.keepsApart_withoutSpans _) overlooks
    rw [← forgotten first, same, forgotten second]
  · rw [← index first, same, index second]
  · have numbered := congrArg (fun resolved : Footnote.Resolved => resolved.document) resolved
    calc Index.collect (Footnote.resolveDocument first).document
        = Index.collect (Footnote.resolveDocument first).document.withoutSpans :=
          (index _).symm
      _ = Index.collect (Footnote.resolveDocument second).document.withoutSpans :=
          congrArg Index.collect numbered
      _ = Index.collect (Footnote.resolveDocument second).document := index _

namespace Renderer.Example

/-- A paragraph of one row that refers to `there` from inside a footnote. -/
def referring (row : UInt64) : Document :=
  Document.empty.withBlock (.paragraph { Meta.empty with span := .onRow row 0 9 }
    [.footnote [.crossReference (.ofRaw "there") [] (.onRow row 3 8)] (some "a") none .unknown])

/-- A resolver that answers with the row and column of its hint. -/
def placeAddress : Resolver := fun _ hint => hint.map Span.text

/-- The content of the first block in a context. -/
def firstContent? (context : Value) : Option String :=
  (context.getPath? ["blocks", "0", "content"]).bind Value.string?

/-- Without a resolver the row does not show; a resolver that looks at hints shows it. -/
theorem referring_context :
    (referring 1).withoutSpans = (referring 2).withoutSpans ∧
      (ofBackend .html).context (referring 1) = (ofBackend .html).context (referring 2) ∧
      firstContent? (((ofBackend .html).withResolver placeAddress).context (referring 1)) ≠
        firstContent? (((ofBackend .html).withResolver placeAddress).context (referring 2)) := by
  have same : (referring 1).withoutSpans = (referring 2).withoutSpans := rfl
  have contexts := (context_withoutSpans same).1 (ofBackend .html)
    fun _ => Resolver.ignoresHints_none
  exact ⟨same, contexts, by decide +kernel⟩

end Renderer.Example

/-! ### Keys and numbers -/

namespace Relabelling

/-- The relabelling that renames keys. -/
def ofKeys (rename : String → String) : Relabelling := ⟨rename, id, id⟩

/-- The relabelling that also removes all numbers. -/
def unnumbered (labels : Relabelling) : Relabelling := { labels with number := fun _ => none }

end Relabelling

/-- **Keys matter only up to equality**, and numbers that are written in a document do not matter.
If a document is another one under new keys, different for different keys, and with any numbers
outside of tables, then it is resolved to what the other is resolved to under the new keys, and it
has the same context. -/
theorem Renderer.context_rekeyed {rename : String → String} {first second : Document}
    (apart : (Relabelling.ofKeys rename).KeepsApart first.footnoteKeys)
    (same : second.relabel Relabelling.identity.unnumbered =
      first.relabel (Relabelling.ofKeys rename).unnumbered) :
    Footnote.resolveDocument second =
        (Footnote.resolveDocument first).relabel (.ofKeys rename) ∧
      ∀ renderer : Renderer, renderer.context second = renderer.context first := by
  have kept : Relabelling.identity.unnumbered.KeepsApart second.footnoteKeys :=
    fun _ _ _ _ equal => equal
  have renamed : (Relabelling.ofKeys rename).unnumbered.KeepsApart first.footnoteKeys := apart
  constructor
  · calc Footnote.resolveDocument second
        = (Footnote.resolveDocument second).relabel .identity :=
          (Footnote.Resolved.relabel_identity _).symm
      _ = Footnote.resolveDocument (second.relabel Relabelling.identity.unnumbered) :=
          (Footnote.resolveDocument_relabel kept).symm
      _ = Footnote.resolveDocument (first.relabel (Relabelling.ofKeys rename).unnumbered) := by
          rw [same]
      _ = (Footnote.resolveDocument first).relabel (.ofKeys rename) :=
          Footnote.resolveDocument_relabel renamed
  · intro renderer
    calc renderer.context second
        = renderer.context (second.relabel Relabelling.identity.unnumbered) :=
          (context_relabel kept (.inr rfl)).symm
      _ = renderer.context (first.relabel (Relabelling.ofKeys rename).unnumbered) := by rw [same]
      _ = renderer.context first := context_relabel renamed (.inr rfl)

namespace Renderer.Example

/-- A definer of one key that holds the definer of another, and a further mention of each; with
numbers that were written before, which are wrong. -/
def keyed (outer inner : String) (stale : Option UInt32) : Document :=
  Document.empty.withBlock (.paragraph .empty
    [.footnote [.ofText "x", .footnote [.ofText "y"] (some inner) stale .unknown] (some outer) none
        .unknown,
      .footnote [] (some inner) stale .unknown, .footnote [] (some outer) stale .unknown])

/-- The exchange of `a` and `b`, which also takes other keys to `a`. -/
def exchange (key : String) : String := if key = "a" then "b" else "a"

theorem keyed_context :
    (Relabelling.ofKeys exchange).KeepsApart (keyed "a" "b" none).footnoteKeys ∧
      Footnote.resolveDocument (keyed "b" "a" (some 7)) =
        (Footnote.resolveDocument (keyed "a" "b" none)).relabel (.ofKeys exchange) ∧
      (ofBackend .latex).context (keyed "b" "a" (some 7)) =
        (ofBackend .latex).context (keyed "a" "b" none) := by
  have apart : (Relabelling.ofKeys exchange).KeepsApart (keyed "a" "b" none).footnoteKeys := by
    decide
  have same : (keyed "b" "a" (some 7)).relabel Relabelling.identity.unnumbered =
      (keyed "a" "b" none).relabel (Relabelling.ofKeys exchange).unnumbered := rfl
  obtain ⟨resolved, contexts⟩ := context_rekeyed apart same
  exact ⟨apart, resolved, contexts (ofBackend .latex)⟩

end Renderer.Example

end Rendition
