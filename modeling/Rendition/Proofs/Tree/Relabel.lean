/-
# Rendition.Proofs.Tree.Relabel -- documents with other labels

A *label* is what a node carries besides its content: the key and the number of a
footnote, and the span of a node, of metadata or of a header.  A `Relabelling`
changes every label of a document and nothing else.

Titles of tables are no passages, so no revision reaches them and a number that
is written there is shown as it stands.  A relabelling therefore leaves the
numbers in titles of tables alone.  Everywhere else numbers are replaced when the
footnotes are resolved; what remains of a relabelling after that is its `settled`
form, which changes keys and spans only.

If a revision gives settled labels to what it makes of a relabelled passage, it
does so with a relabelled document (`Settles.document_relabel`).
-/
import Rendition.Proofs.Footnote.Mention

namespace Rendition

set_option autoImplicit false

/-- A change of the keys and numbers of footnotes and of all spans. -/
structure Relabelling where
  key : String → String
  number : Option UInt32 → Option UInt32
  span : Span → Span

namespace Relabelling

def identity : Relabelling := ⟨id, id, id⟩

/-- The relabelling without its change of numbers. -/
def settled (labels : Relabelling) : Relabelling := { labels with number := id }

end Relabelling

/-! ## Relabelled content -/

mutual

/-- A node with its labels changed, and those of all nodes in it. -/
def Inline.relabel (labels : Relabelling) : Inline → Inline
  | .text body span => .text body (labels.span span)
  | .styled style content span =>
      .styled style (Inline.relabelAll labels content) (labels.span span)
  | .link target content span =>
      .link target (Inline.relabelAll labels content) (labels.span span)
  | .crossReference target content span =>
      .crossReference target (Inline.relabelAll labels content) (labels.span span)
  | .math formula display span => .math formula display (labels.span span)
  | .passthrough body span => .passthrough body (labels.span span)
  | .command named span => .command named (labels.span span)
  | .footnote content key number span =>
      .footnote (Inline.relabelAll labels content) (key.map labels.key) (labels.number number)
        (labels.span span)
  | .indexTerm terms visible span => .indexTerm terms visible (labels.span span)

def Inline.relabelAll (labels : Relabelling) : List Inline → List Inline
  | [] => []
  | inline :: rest => inline.relabel labels :: Inline.relabelAll labels rest

end

def Footnote.Mention.relabel (labels : Relabelling) (mention : Mention) : Mention where
  key := mention.key.map labels.key
  id := labels.number mention.id
  content := Inline.relabelAll labels mention.content

def Meta.relabel (labels : Relabelling) (info : Meta) : Meta :=
  { info with title := Inline.relabelAll labels info.title, span := labels.span info.span }

mutual

/-- A block with its labels changed; the numbers in the title of a table stay. -/
def Block.relabel (labels : Relabelling) : Block → Block
  | .paragraph info content =>
      .paragraph (info.relabel labels) (Inline.relabelAll labels content)
  | .heading info level title =>
      .heading (info.relabel labels) level (Inline.relabelAll labels title)
  | .section info level title blocks =>
      .section (info.relabel labels) level (Inline.relabelAll labels title)
        (Block.relabelAll labels blocks)
  | .listing info language text => .listing (info.relabel labels) language text
  | .literal info text => .literal (info.relabel labels) text
  | .math info formula => .math (info.relabel labels) formula
  | .command info name target => .command (info.relabel labels) name target
  | .list info kind items => .list (info.relabel labels) kind (Block.relabelItems labels items)
  | .descriptions info items =>
      .descriptions (info.relabel labels) (Block.relabelDescriptions labels items)
  | .table info rows => .table (info.relabel labels.settled) rows
  | .enclosure kind info blocks =>
      .enclosure kind (info.relabel labels) (Block.relabelAll labels blocks)
  | .quote info attribution citation blocks =>
      .quote (info.relabel labels) attribution citation (Block.relabelAll labels blocks)
  | .admonition info kind blocks =>
      .admonition (info.relabel labels) kind (Block.relabelAll labels blocks)
  | .verse info content attribution =>
      .verse (info.relabel labels) (Inline.relabelAll labels content) attribution

def Block.relabelAll (labels : Relabelling) : List Block → List Block
  | [] => []
  | block :: rest => block.relabel labels :: Block.relabelAll labels rest

def Block.relabelItems (labels : Relabelling) : List (ListItem Block) → List (ListItem Block)
  | [] => []
  | ⟨marker, content, blocks⟩ :: rest =>
      ⟨marker, Inline.relabelAll labels content, Block.relabelAll labels blocks⟩ ::
        Block.relabelItems labels rest

def Block.relabelDescriptions (labels : Relabelling) :
    List (DescriptionItem Block) → List (DescriptionItem Block)
  | [] => []
  | ⟨terms, description, blocks⟩ :: rest =>
      ⟨terms.map (Inline.relabelAll labels), Inline.relabelAll labels description,
          Block.relabelAll labels blocks⟩ ::
        Block.relabelDescriptions labels rest

end

def Header.relabel (labels : Relabelling) (header : Header) : Header where
  title := Inline.relabelAll labels header.title
  span := labels.span header.span

def Document.relabel (labels : Relabelling) (document : Document) : Document where
  attributes := document.attributes
  header := document.header.map (Header.relabel labels)
  blocks := Block.relabelAll labels document.blocks

/-! ## What a relabelling keeps -/

variable (labels : Relabelling)

@[simp] theorem Meta.title_relabel (info : Meta) :
    (info.relabel labels).title = Inline.relabelAll labels info.title := rfl

namespace Inline

@[simp] theorem isEmpty_relabelAll (content : List Inline) :
    (relabelAll labels content).isEmpty = content.isEmpty := by
  cases content <;> rfl

mutual

/-- The mentions of a relabelled node are its mentions, relabelled. -/
theorem mentions_relabel (inline : Inline) :
    (inline.relabel labels).mentions = inline.mentions.map (·.relabel labels) := by
  cases inline with
  | styled _ content _ | link _ content _ | crossReference _ content _ =>
      exact mentionsAll_relabelAll content
  | footnote content key id span =>
      have inner := mentionsAll_relabelAll content
      simp only [relabel, mentions, inner, List.map_append, List.map_singleton,
        Footnote.Mention.relabel]
  | text | math | passthrough | command | indexTerm => rfl

theorem mentionsAll_relabelAll (content : List Inline) :
    mentionsAll (relabelAll labels content) =
      (mentionsAll content).map (·.relabel labels) := by
  match content with
  | [] => rfl
  | inline :: rest =>
      simp only [relabelAll, mentionsAll, List.map_append, mentions_relabel inline,
        mentionsAll_relabelAll rest]

end

mutual

/-- Nothing is changed by the relabelling that changes nothing. -/
theorem relabel_identity (inline : Inline) : inline.relabel .identity = inline := by
  cases inline with
  | styled _ content _ | link _ content _ | crossReference _ content _ =>
      have inner := relabelAll_identity content
      simp only [relabel, inner]
      rfl
  | footnote content key id span =>
      have inner := relabelAll_identity content
      have same : key.map Relabelling.identity.key = key := Option.map_id'
      simp only [relabel, inner, same]
      rfl
  | text | math | passthrough | command | indexTerm => rfl

theorem relabelAll_identity (content : List Inline) :
    relabelAll .identity content = content := by
  match content with
  | [] => rfl
  | inline :: rest => simp only [relabelAll, relabel_identity inline, relabelAll_identity rest]

end

end Inline

theorem Meta.relabel_identity (info : Meta) : info.relabel .identity = info := by
  unfold Meta.relabel
  rw [Inline.relabelAll_identity]
  rfl

namespace Block

mutual

theorem relabel_identity (block : Block) : block.relabel .identity = block := by
  cases block with
  | paragraph | heading | verse =>
      simp only [relabel, Meta.relabel_identity, Inline.relabelAll_identity]
  | «section» _ _ _ children =>
      simp only [relabel, Meta.relabel_identity, Inline.relabelAll_identity,
        relabelAll_identity children]
  | listing | literal | math | command => simp only [relabel, Meta.relabel_identity]
  | list _ _ items => simp only [relabel, Meta.relabel_identity, relabelItems_identity items]
  | descriptions _ items =>
      simp only [relabel, Meta.relabel_identity, relabelDescriptions_identity items]
  | table info rows =>
      have same : info.relabel Relabelling.identity.settled = info := info.relabel_identity
      simp only [relabel, same]
  | enclosure _ _ children | quote _ _ _ children | admonition _ _ children =>
      simp only [relabel, Meta.relabel_identity, relabelAll_identity children]

theorem relabelAll_identity (blocks : List Block) : relabelAll .identity blocks = blocks := by
  match blocks with
  | [] => rfl
  | block :: rest => simp only [relabelAll, relabel_identity block, relabelAll_identity rest]

theorem relabelItems_identity (items : List (ListItem Block)) :
    relabelItems .identity items = items := by
  match items with
  | [] => rfl
  | ⟨_, _, children⟩ :: rest =>
      simp only [relabelItems, Inline.relabelAll_identity, relabelAll_identity children,
        relabelItems_identity rest]

theorem relabelDescriptions_identity (items : List (DescriptionItem Block)) :
    relabelDescriptions .identity items = items := by
  match items with
  | [] => rfl
  | ⟨terms, _, children⟩ :: rest =>
      have each : terms.map (Inline.relabelAll .identity) = terms :=
        List.map_id'' Inline.relabelAll_identity terms
      simp only [relabelDescriptions, each, Inline.relabelAll_identity,
        relabelAll_identity children, relabelDescriptions_identity rest]

end

mutual

/-- The passages of a relabelled block are its passages, relabelled. -/
theorem passages_relabel (block : Block) :
    (block.relabel labels).passages = block.passages.map (Inline.relabelAll labels) := by
  cases block with
  | «section» _ _ _ children | enclosure _ _ children | quote _ _ _ children
  | admonition _ _ children =>
      have inner := passagesAll_relabelAll children
      simp only [relabel, passages, inner, List.map_cons, Meta.relabel]
  | list _ _ items =>
      have inner := passagesOfItems_relabelItems items
      simp only [relabel, passages, inner, List.map_cons, Meta.relabel]
  | descriptions _ items =>
      have inner := passagesOfDescriptions_relabelDescriptions items
      simp only [relabel, passages, inner, List.map_cons, Meta.relabel]
  | paragraph | heading | verse | listing | literal | math | command | table => rfl

theorem passagesAll_relabelAll (blocks : List Block) :
    passagesAll (relabelAll labels blocks) =
      (passagesAll blocks).map (Inline.relabelAll labels) := by
  match blocks with
  | [] => rfl
  | block :: rest =>
      simp only [relabelAll, passagesAll, passages_relabel block, passagesAll_relabelAll rest,
        List.map_append]

theorem passagesOfItems_relabelItems (items : List (ListItem Block)) :
    passagesOfItems (relabelItems labels items) =
      (passagesOfItems items).map (Inline.relabelAll labels) := by
  match items with
  | [] => rfl
  | ⟨_, _, children⟩ :: rest =>
      simp only [relabelItems, passagesOfItems, passagesAll_relabelAll children,
        passagesOfItems_relabelItems rest, List.map_cons, List.map_append]

theorem passagesOfDescriptions_relabelDescriptions (items : List (DescriptionItem Block)) :
    passagesOfDescriptions (relabelDescriptions labels items) =
      (passagesOfDescriptions items).map (Inline.relabelAll labels) := by
  match items with
  | [] => rfl
  | ⟨_, _, children⟩ :: rest =>
      simp only [relabelDescriptions, passagesOfDescriptions, passagesAll_relabelAll children,
        passagesOfDescriptions_relabelDescriptions rest, List.map_cons, List.map_append]

end

end Block

namespace Document

theorem relabel_identity (document : Document) : document.relabel .identity = document := by
  have header : document.header.map (Header.relabel .identity) = document.header := by
    cases document.header with
    | none => rfl
    | some header =>
        have title := Inline.relabelAll_identity header.title
        simp only [Option.map_some, Header.relabel, title]
        rfl
  unfold relabel
  rw [header, Block.relabelAll_identity]

@[simp] theorem attributes_relabel (document : Document) :
    (document.relabel labels).attributes = document.attributes := rfl

@[simp] theorem blocks_relabel (document : Document) :
    (document.relabel labels).blocks = Block.relabelAll labels document.blocks := rfl

theorem title_relabel (document : Document) :
    (document.relabel labels).title = Inline.relabelAll labels document.title := by
  unfold title relabel
  cases document.header <;> rfl

theorem passages_relabel (document : Document) :
    (document.relabel labels).passages = document.passages.map (Inline.relabelAll labels) := by
  have blocks := Block.passagesAll_relabelAll labels document.blocks
  unfold passages relabel
  cases document.header with
  | none => simp only [Option.map_none, blocks]
  | some header => simp only [Option.map_some, Header.relabel, blocks, List.map_cons]

/-- A relabelled document mentions what the document mentions, under other labels. -/
theorem mentions_relabel (document : Document) :
    (document.relabel labels).mentions = document.mentions.map (·.relabel labels) := by
  unfold mentions
  simp only [passages_relabel, List.flatMap_map, Inline.mentionsAll_relabelAll, List.map_flatMap]

end Document

/-! ## Revisions -/

namespace Revision

variable {σ : Type} (revise : Revision σ)

/-- A revision that makes of a relabelled passage what it makes of the passage, with settled
labels. -/
def Settles : Prop := ∀ (passage : List Inline) (state : σ),
  revise (Inline.relabelAll labels passage) state =
    (Inline.relabelAll labels.settled (revise passage state).1, (revise passage state).2)

variable {labels revise}

theorem Settles.info (settles : Settles labels revise) (info : Meta) (state : σ) :
    revise.info (info.relabel labels) state =
      ((revise.info info state).1.relabel labels.settled, (revise.info info state).2) := by
  have title := settles info.title state
  simp only [Revision.info, Meta.relabel, title]
  rfl

/-- A revision that settles passages settles a list of them. -/
theorem Settles.all (settles : Settles labels revise) (passages : List (List Inline))
    (state : σ) :
    revise.all (passages.map (Inline.relabelAll labels)) state =
      ((revise.all passages state).1.map (Inline.relabelAll labels.settled),
        (revise.all passages state).2) := by
  induction passages generalizing state with
  | nil => rfl
  | cons passage rest ih =>
      have first := settles passage state
      have others := ih (revise passage state).2
      simp only [List.map_cons, Revision.all, first, others]

mutual

/-- A revision that settles passages settles a block. -/
theorem Settles.block (settles : Settles labels revise) (b : Block) (state : σ) :
    revise.block (b.relabel labels) state =
      ((revise.block b state).1.relabel labels.settled, (revise.block b state).2) := by
  cases b with
  | paragraph info content | verse info content attribution =>
      have meta_ := settles.info info state
      have content := settles content (revise.info info state).2
      simp only [Block.relabel, Revision.block, meta_, content]
  | heading info level title =>
      have meta_ := settles.info info state
      have title := settles title (revise.info info state).2
      simp only [Block.relabel, Revision.block, meta_, title]
  | «section» info level title children =>
      have meta_ := settles.info info state
      have heading := settles title (revise.info info state).2
      have children := settles.blocks children (revise title (revise.info info state).2).2
      simp only [Block.relabel, Revision.block, meta_, heading, children]
  | listing info | literal info | math info | command info =>
      have meta_ := settles.info info state
      simp only [Block.relabel, Revision.block, meta_]
  | list info kind entries =>
      have meta_ := settles.info info state
      have entries := settles.items entries (revise.info info state).2
      simp only [Block.relabel, Revision.block, meta_, entries]
  | descriptions info entries =>
      have meta_ := settles.info info state
      have entries := settles.descriptions entries (revise.info info state).2
      simp only [Block.relabel, Revision.block, meta_, entries]
  | table info rows => rfl
  | enclosure _ info children | quote info _ _ children | admonition info _ children =>
      have meta_ := settles.info info state
      have children := settles.blocks children (revise.info info state).2
      simp only [Block.relabel, Revision.block, meta_, children]

theorem Settles.blocks (settles : Settles labels revise) (bs : List Block) (state : σ) :
    revise.blocks (Block.relabelAll labels bs) state =
      (Block.relabelAll labels.settled (revise.blocks bs state).1,
        (revise.blocks bs state).2) := by
  match bs with
  | [] => rfl
  | b :: rest =>
      have first := settles.block b state
      have others := settles.blocks rest (revise.block b state).2
      simp only [Block.relabelAll, Revision.blocks, first, others]

theorem Settles.items (settles : Settles labels revise) (entries : List (ListItem Block))
    (state : σ) :
    revise.items (Block.relabelItems labels entries) state =
      (Block.relabelItems labels.settled (revise.items entries state).1,
        (revise.items entries state).2) := by
  match entries with
  | [] => rfl
  | ⟨marker, content, children⟩ :: rest =>
      have first := settles content state
      have children := settles.blocks children (revise content state).2
      have others := settles.items rest
      simp only [Block.relabelItems, Revision.items, first, children, others]

theorem Settles.descriptions (settles : Settles labels revise)
    (entries : List (DescriptionItem Block)) (state : σ) :
    revise.descriptions (Block.relabelDescriptions labels entries) state =
      (Block.relabelDescriptions labels.settled (revise.descriptions entries state).1,
        (revise.descriptions entries state).2) := by
  match entries with
  | [] => rfl
  | ⟨terms, description, children⟩ :: rest =>
      have named := settles.all terms state
      have described := settles description (revise.all terms state).2
      have children := settles.blocks children
      have others := settles.descriptions rest
      simp only [Block.relabelDescriptions, Revision.descriptions, named, described, children,
        others]

end

/-- A revision that settles relabelled passages settles relabelled documents. -/
theorem Settles.document_relabel (settles : Settles labels revise) (d : Document) (state : σ) :
    revise.document (d.relabel labels) state =
      ((revise.document d state).1.relabel labels.settled, (revise.document d state).2) := by
  unfold Revision.document Document.relabel
  cases header : d.header with
  | none =>
      have children := settles.blocks d.blocks state
      simp only [Option.map_none, children]
  | some h =>
      have title := settles h.title state
      have children := settles.blocks d.blocks (revise h.title state).2
      simp only [Option.map_some, Header.relabel, title, children]
      rfl

end Revision

end Rendition
