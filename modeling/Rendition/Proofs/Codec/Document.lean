/-
# Rendition.Proofs.Codec.Document -- documents are read back from their JSON

The decoder of documents undoes the encoder on every tree.  The reader of JSON
undoes the printer on every encoded tree that is not too deep for it, since the
numbers in the tree are levels, footnote numbers and places in the source
(`Document.ofText?_text`).  So a document is known by its JSON and, at any depth,
by the text of its JSON (`Document.roundTrip`).

Attributes are read by setting one after the other.  Their keys are distinct, so
no setting moves an earlier one and the order is kept (`Attributes.ofList_entries`).
-/
import Rendition.Codec.Block
import Rendition.Proofs.Codec.Inline

namespace Rendition

set_option autoImplicit false

open Json

/-! ## Attributes and metadata -/

namespace Attributes

/-- Entries under different names are set one behind the other. -/
theorem entries_foldl_insert {entries : List (String × String)} {attributes : Attributes}
    (nodup : ((attributes.entries ++ entries).map Prod.fst).Nodup) :
    (entries.foldl (fun attributes entry => attributes.insert entry.1 entry.2) attributes).entries =
      attributes.entries ++ entries := by
  induction entries generalizing attributes with
  | nil => exact (List.append_nil _).symm
  | cons entry rest ih =>
      obtain ⟨key, value⟩ := entry
      have fresh : attributes.entries.filter (·.1 != key) = attributes.entries := by
        rw [List.filter_eq_self]
        intro other inside
        rw [List.map_append, List.nodup_append] at nodup
        simpa using nodup.2.2 other.1 (List.mem_map_of_mem inside) key (by simp)
      have grown : (attributes.insert key value).entries =
          attributes.entries ++ [(key, value)] := by
        rw [entries_insert, fresh]
      rw [List.foldl_cons, ih (by rw [grown, List.append_assoc]; exact nodup), grown,
        List.append_assoc]
      rfl

theorem ext_entries {first second : Attributes} (same : first.entries = second.entries) :
    first = second := by
  cases first
  cases second
  cases same
  rfl

/-- Attributes have each name once, so that setting their entries in order gives them back. -/
theorem ofList_entries (attributes : Attributes) : ofList attributes.entries = attributes :=
  ext_entries (entries_foldl_insert attributes.nodup)

theorem ofJson?_toJson (attributes : Attributes) :
    ofJson? attributes.toJson = some attributes := by
  have entries : (attributes.entries.map fun entry => (entry.1, Json.string entry.2)).mapM
      (fun member => do return (member.1, ← member.2.string?)) = some attributes.entries := by
    induction attributes.entries with
    | nil => rfl
    | cons entry rest ih =>
        rw [List.map_cons, List.mapM_cons]
        exact read_bind ih
  refine (read_bind entries).trans ?_
  rw [ofList_entries]
  rfl

theorem isNatural_toJson (attributes : Attributes) : attributes.toJson.isNatural := by
  rw [toJson, isNatural]
  induction attributes.entries with
  | nil => rfl
  | cons entry rest ih => exact ih

end Attributes

namespace Meta

/-- A member that is there is read; its default does not matter. -/
theorem defaulted?_read {α : Type} {decode : Json → Option α} {json part : Json} {key : String}
    {default value : α} (found : json.field? key = some part) (same : decode part = some value) :
    json.defaulted? decode key default = some value := by
  unfold defaulted?
  rw [found]
  exact same

theorem ofJson?_toJson (info : Meta) : ofJson? info.toJson = some info := by
  refine (read_bind (optional?_string rfl)).trans ?_
  refine (read_bind (defaulted?_read rfl (strings?_ofStrings info.roles))).trans ?_
  refine (read_bind (defaulted?_read rfl (strings?_ofStrings info.options))).trans ?_
  refine (read_bind (defaulted?_read rfl info.attributes.ofJson?_toJson)).trans ?_
  refine (read_bind (defaulted?_read rfl (Inline.listOfJson?_listToJson info.title))).trans ?_
  exact read_bind (defaulted?_read rfl info.span.ofJson?_toJson)

theorem isNatural_toJson (info : Meta) : info.toJson.isNatural := by
  simp only [toJson, isNatural, isNaturalMembers, isNatural_text, isNatural_ofStrings,
    Attributes.isNatural_toJson, Inline.isNatural_listToJson, Span.isNatural_toJson, Bool.and_true]

end Meta

/-! ## Kinds and tables -/

theorem ListKind.ofName?_name (kind : ListKind) : ListKind.ofName? kind.name = some kind := by
  cases kind <;> rfl

theorem Admonition.ofName?_name (kind : Admonition) : Admonition.ofName? kind.name = some kind := by
  cases kind <;> rfl

theorem Enclosure.ofTag?_tag (kind : Enclosure) : Enclosure.ofTag? kind.tag = some kind := by
  cases kind <;> rfl

theorem TableCell.ofJson?_toJson (cell : TableCell) :
    TableCell.ofJson? cell.toJson = some cell := by
  rw [ofJson?, field?_bind rfl (string?_string cell.text)]
  exact read_bind (optional?_string rfl)

theorem TableCell.isNatural_toJson (cell : TableCell) : cell.toJson.isNatural := by
  simp only [toJson, isNatural, isNaturalMembers, isNatural_text, Bool.and_true]

theorem TableRow.ofJson?_toJson (row : TableRow) : TableRow.ofJson? row.toJson = some row := by
  rw [ofJson?, field?_bind rfl (bool?_bool row.header)]
  exact field?_bind rfl (listOf?_map TableCell.ofJson?_toJson row.cells)

theorem TableRow.isNatural_toJson (row : TableRow) : row.toJson.isNatural := by
  simp only [toJson, isNatural, isNaturalMembers, isNaturalAll_map TableCell.isNatural_toJson,
    Bool.and_true]

/-! ## Blocks -/

namespace Block

open Inline

mutual

theorem ofJson?_toJson (block : Block) : ofJson? block.toJson = some block := by
  cases block with
  | paragraph info content =>
      rw [toJson, ofJson?, field?_bind rfl info.ofJson?_toJson]
      exact field?_bind rfl (listOfJson?_listToJson content)
  | heading info level title =>
      rw [toJson, ofJson?, field?_bind rfl info.ofJson?_toJson]
      refine (field?_bind rfl (uint8?_ofNat level)).trans ?_
      exact field?_bind rfl (listOfJson?_listToJson title)
  | «section» info level title blocks =>
      rw [toJson, ofJson?, field?_bind rfl info.ofJson?_toJson]
      refine (field?_bind rfl (uint8?_ofNat level)).trans ?_
      refine (field?_bind rfl (listOfJson?_listToJson title)).trans ?_
      exact read_bind (nested?_read rfl (listOf?_toJsonAll blocks))
  | listing info language body =>
      rw [toJson, ofJson?, field?_bind rfl info.ofJson?_toJson]
      refine (read_bind (optional?_string rfl)).trans ?_
      exact field?_bind rfl (string?_string body)
  | literal info body =>
      rw [toJson, ofJson?, field?_bind rfl info.ofJson?_toJson]
      exact field?_bind rfl (string?_string body)
  | math info formula =>
      rw [toJson, ofJson?, field?_bind rfl info.ofJson?_toJson]
      refine (field?_bind rfl (string?_string formula.form.tag)).trans ?_
      refine (read_bind formula.form.ofTag?_tag).trans ?_
      exact field?_bind rfl (string?_string formula.body)
  | command info name target =>
      rw [toJson, ofJson?, field?_bind rfl info.ofJson?_toJson]
      refine (field?_bind rfl (string?_string name)).trans ?_
      exact field?_bind rfl (string?_string target)
  | list info kind items =>
      rw [toJson, ofJson?, field?_bind rfl info.ofJson?_toJson]
      refine (field?_bind rfl (string?_string kind.name)).trans ?_
      refine (read_bind kind.ofName?_name).trans ?_
      exact read_bind (nested?_read rfl (listOf?_toJsonItems items))
  | descriptions info items =>
      rw [toJson, ofJson?, field?_bind rfl info.ofJson?_toJson]
      exact read_bind (nested?_read rfl (listOf?_toJsonDescriptions items))
  | table info rows =>
      rw [toJson, ofJson?, field?_bind rfl info.ofJson?_toJson]
      exact field?_bind rfl (listOf?_map TableRow.ofJson?_toJson rows)
  | enclosure kind info blocks =>
      rw [toJson, ofJson?, field?_bind rfl info.ofJson?_toJson]
      simp only [Enclosure.ofTag?_tag]
      exact read_bind (nested?_read rfl (listOf?_toJsonAll blocks))
  | quote info attribution citation blocks =>
      rw [toJson, ofJson?, field?_bind rfl info.ofJson?_toJson]
      refine (read_bind (optional?_string rfl)).trans ?_
      refine (read_bind (optional?_string rfl)).trans ?_
      exact read_bind (nested?_read rfl (listOf?_toJsonAll blocks))
  | admonition info kind blocks =>
      rw [toJson, ofJson?, field?_bind rfl info.ofJson?_toJson]
      refine (field?_bind rfl (string?_string kind.name)).trans ?_
      refine (read_bind kind.ofName?_name).trans ?_
      exact read_bind (nested?_read rfl (listOf?_toJsonAll blocks))
  | verse info content attribution =>
      rw [toJson, ofJson?, field?_bind rfl info.ofJson?_toJson]
      refine (field?_bind rfl (listOfJson?_listToJson content)).trans ?_
      exact read_bind (optional?_string rfl)

theorem listOf?_toJsonAll (blocks : List Block) :
    (Json.array (toJsonAll blocks)).listOf? ofJson? = some blocks := by
  match blocks with
  | [] => rfl
  | block :: rest =>
      exact listOf?_cons (ofJson?_toJson block) (listOf?_toJsonAll rest)

/-- The decoder of items as a block calls it, on the items as they are written. -/
theorem listOf?_toJsonItems (items : List (ListItem Block)) :
    (Json.array (toJsonItems items)).listOf? (fun item => do
      return ListItem.mk (← (← item.field? "marker").string?)
        (← Inline.listOfJson? (← item.field? "content"))
        (← item.nested? "blocks" fun element _ => ofJson? element)) = some items := by
  match items with
  | [] => rfl
  | ⟨marker, content, blocks⟩ :: rest =>
      refine listOf?_cons ?_ (listOf?_toJsonItems rest)
      refine (field?_bind rfl (string?_string marker)).trans ?_
      refine (field?_bind rfl (listOfJson?_listToJson content)).trans ?_
      exact read_bind (nested?_read rfl (listOf?_toJsonAll blocks))

theorem listOf?_toJsonDescriptions (items : List (DescriptionItem Block)) :
    (Json.array (toJsonDescriptions items)).listOf? (fun item => do
            return DescriptionItem.mk (← (← item.field? "terms").listOf? Inline.listOfJson?)
              (← Inline.listOfJson? (← item.field? "description"))
              (← item.nested? "blocks" fun element _ => ofJson? element)) = some items := by
  match items with
  | [] => rfl
  | ⟨terms, description, blocks⟩ :: rest =>
      refine listOf?_cons ?_ (listOf?_toJsonDescriptions rest)
      refine (field?_bind rfl (listOf?_map listOfJson?_listToJson terms)).trans ?_
      refine (field?_bind rfl (listOfJson?_listToJson description)).trans ?_
      exact read_bind (nested?_read rfl (listOf?_toJsonAll blocks))

end

theorem isNatural_level (level : UInt8) : (Json.ofNat level.toNat).isNatural :=
  isNatural_ofNat (Nat.lt_trans level.toNat_lt (by decide))

mutual

theorem isNatural_toJson (block : Block) : block.toJson.isNatural := by
  cases block with
  | paragraph | listing | literal | math | command | verse =>
      simp only [toJson, isNatural, isNaturalMembers, Meta.isNatural_toJson, isNatural_text,
        isNatural_listToJson, Bool.and_true]
  | heading info level title =>
      simp only [toJson, isNatural, isNaturalMembers, Meta.isNatural_toJson, isNatural_level,
        isNatural_listToJson, Bool.and_true]
  | «section» info level title blocks =>
      simp only [toJson, isNatural, isNaturalMembers, Meta.isNatural_toJson, isNatural_level,
        isNatural_listToJson, isNaturalAll_toJsonAll blocks, Bool.and_true]
  | list info kind items =>
      simp only [toJson, isNatural, isNaturalMembers, Meta.isNatural_toJson,
        isNaturalAll_toJsonItems items, Bool.and_true]
  | descriptions info items =>
      simp only [toJson, isNatural, isNaturalMembers, Meta.isNatural_toJson,
        isNaturalAll_toJsonDescriptions items, Bool.and_true]
  | table info rows =>
      simp only [toJson, isNatural, isNaturalMembers, Meta.isNatural_toJson,
        isNaturalAll_map TableRow.isNatural_toJson, Bool.and_true]
  | enclosure _ _ blocks | quote _ _ _ blocks | admonition _ _ blocks =>
      simp only [toJson, isNatural, isNaturalMembers, Meta.isNatural_toJson, isNatural_text,
        isNaturalAll_toJsonAll blocks, Bool.and_true]

theorem isNaturalAll_toJsonAll (blocks : List Block) : isNaturalAll (toJsonAll blocks) := by
  match blocks with
  | [] => rfl
  | block :: rest =>
      simp only [toJsonAll, isNaturalAll, isNatural_toJson block, isNaturalAll_toJsonAll rest,
        Bool.and_true]

theorem isNaturalAll_toJsonItems (items : List (ListItem Block)) :
    isNaturalAll (toJsonItems items) := by
  match items with
  | [] => rfl
  | ⟨marker, content, blocks⟩ :: rest =>
      simp only [toJsonItems, isNaturalAll, isNatural, isNaturalMembers, isNatural_listToJson,
        isNaturalAll_toJsonAll blocks, isNaturalAll_toJsonItems rest, Bool.and_true]

theorem isNaturalAll_toJsonDescriptions (items : List (DescriptionItem Block)) :
    isNaturalAll (toJsonDescriptions items) := by
  match items with
  | [] => rfl
  | ⟨terms, description, blocks⟩ :: rest =>
      simp only [toJsonDescriptions, isNaturalAll, isNatural, isNaturalMembers,
        isNatural_listToJson, isNaturalAll_map isNatural_listToJson,
        isNaturalAll_toJsonAll blocks, isNaturalAll_toJsonDescriptions rest, Bool.and_true]

end

end Block

/-! ## Documents -/

theorem Header.ofJson?_toJson (header : Header) : Header.ofJson? header.toJson = some header := by
  rw [ofJson?, field?_bind rfl (Inline.listOfJson?_listToJson header.title)]
  exact field?_bind rfl header.span.ofJson?_toJson

theorem Header.isNatural_toJson (header : Header) : header.toJson.isNatural := by
  simp only [toJson, isNatural, isNaturalMembers, Inline.isNatural_listToJson,
    Span.isNatural_toJson, Bool.and_true]

namespace Document

theorem ofJson?_toJson (document : Document) : ofJson? document.toJson = some document := by
  rw [ofJson?, field?_bind rfl document.attributes.ofJson?_toJson]
  refine (read_bind (optional?_ofOption rfl (fun _ => Json.noConfusion)
    Header.ofJson?_toJson)).trans ?_
  exact field?_bind rfl (Block.listOf?_toJsonAll document.blocks)

theorem isNatural_toJson (document : Document) : document.toJson.isNatural := by
  simp only [toJson, isNatural, isNaturalMembers, Attributes.isNatural_toJson,
    isNatural_ofOption Header.isNatural_toJson, Block.isNaturalAll_toJsonAll, Bool.and_true]

/-- The document that a text describes, if it is no deeper than `Json.maxDepth`. -/
def ofText? (text : String) : Option Document := (Json.read? Json.maxDepth text).bind ofJson?

/-- The text of a document is read back exactly if the reader has room for its depth. -/
theorem ofText?_text (document : Document) :
    ofText? document.toJson.text =
      if document.toJson.depth ≤ Json.maxDepth then some document else none := by
  rw [ofText?, read?_text document.isNatural_toJson]
  by_cases fits : document.toJson.depth ≤ Json.maxDepth
  · rw [if_pos fits, if_pos fits]
    exact document.ofJson?_toJson
  · rw [if_neg fits, if_neg fits]
    rfl

/-- **Every document is read back from its JSON**, whatever its depth, and from the text of its
JSON as deep as texts are read.  No two documents have the same JSON, nor the same text. -/
theorem roundTrip :
    (∀ document : Document, ofJson? document.toJson = some document) ∧
    (∀ document : Document, document.toJson.depth ≤ Json.maxDepth →
      ofText? document.toJson.text = some document) ∧
    (∀ first second : Document, first.toJson = second.toJson → first = second) ∧
    ∀ first second : Document, first.toJson.text = second.toJson.text → first = second := by
  have fromJson : ∀ first second : Document, first.toJson = second.toJson → first = second := by
    intro first second same
    have read := first.ofJson?_toJson
    rw [same, second.ofJson?_toJson] at read
    exact (Option.some.inj read).symm
  refine ⟨ofJson?_toJson, ?_, fromJson, ?_⟩
  · intro document fits
    rw [ofText?_text, if_pos fits]
  · intro first second same
    exact fromJson first second
      (eq_of_text_eq first.isNatural_toJson second.isNatural_toJson same)

namespace Example

def nested : Document where
  attributes := .empty
  header := none
  blocks := [.enclosure .openBlock .empty
    [.enclosure .openBlock .empty [.paragraph .empty [.text "x" .unknown]]]]

/-- Each of the two open blocks takes three of the fifteen levels. -/
theorem nested_roundTrip :
    nested.toJson.depth ≤ Json.maxDepth ∧ ofText? nested.toJson.text = some nested :=
  ⟨by decide, roundTrip.2.1 nested (by decide)⟩

end Example

end Document

end Rendition
