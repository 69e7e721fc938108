/-
# Rendition.Proofs.Codec.Inline -- inline content is read back from its JSON

A decoder reads one part of an object after the other.  Each part that was
written is found under its key and read back (`Json.field?_bind`), an optional
part also when it is absent (`Json.optional?_ofOption`), so the proof for a kind
of node is the list of its parts.  `Inline.ofJson?_toJson` goes by recursion on
the node.

The numbers in a tree are those of spans and footnotes; 64 bits hold them
(`Inline.isNatural_toJson`).
-/
import Rendition.Codec.Inline
import Rendition.Proofs.Json.RoundTrip

namespace Rendition

set_option autoImplicit false

/-! ## Parts of an object -/

namespace Json

/-- A decoder goes on with the value of the part that was read. -/
theorem read_bind {α β : Type} {read : Option α} {value : α} {next : α → Option β}
    (same : read = some value) : (read >>= next) = next value := by
  rw [same]
  rfl

/-- A decoder goes on with the value of a member that was found and read. -/
theorem field?_bind {α β : Type} {json part : Json} {key : String} {decode : Json → Option α}
    {value : α} {next : α → Option β} (found : json.field? key = some part)
    (same : decode part = some value) :
    (json.field? key >>= fun part => decode part >>= next) = next value := by
  rw [read_bind found, read_bind same]

/-- A number below the bound of its type is read back. -/
theorem natural?_ofNat {n bound : Nat} (small : n < bound) :
    (ofNat n).natural? bound = some n := by
  simp [ofNat, natural?, small]

theorem uint64?_ofNat (n : UInt64) : (ofNat n.toNat).uint64? = some n := by
  rw [uint64?, natural?_ofNat n.toNat_lt, Option.map_some, UInt64.ofNat_toNat]

theorem uint32?_ofNat (n : UInt32) : (ofNat n.toNat).uint32? = some n := by
  rw [uint32?, natural?_ofNat n.toNat_lt, Option.map_some, UInt32.ofNat_toNat]

theorem uint8?_ofNat (n : UInt8) : (ofNat n.toNat).uint8? = some n := by
  rw [uint8?, natural?_ofNat n.toNat_lt, Option.map_some, UInt8.ofNat_toNat]

theorem string?_string (s : String) : (string s).string? = some s := rfl

theorem bool?_bool (b : Bool) : (bool b).bool? = some b := rfl

theorem listOf?_cons {α : Type} {decode : Json → Option α} {first : Json} {rest : List Json}
    {value : α} {values : List α} (head : decode first = some value)
    (tail : (array rest).listOf? decode = some values) :
    (array (first :: rest)).listOf? decode = some (value :: values) := by
  show (first :: rest).mapM decode = _
  rw [List.mapM_cons, read_bind head]
  exact read_bind tail

/-- A list is read back if each of its elements is. -/
theorem listOf?_map {α : Type} {decode : Json → Option α} {encode : α → Json}
    (inverse : ∀ value, decode (encode value) = some value) (values : List α) :
    (array (values.map encode)).listOf? decode = some values := by
  induction values with
  | nil => rfl
  | cons value rest ih => exact listOf?_cons (inverse value) ih

theorem strings?_ofStrings (values : List String) :
    (ofStrings values).strings? = some values := listOf?_map string?_string values

/-- An absent part is written as null, and no part that is there is. -/
theorem optional?_ofOption {α : Type} {decode : Json → Option α} {encode : α → Json} {json : Json}
    {key : String} {value : Option α} (found : json.field? key = some (ofOption encode value))
    (written : ∀ value, encode value ≠ .null)
    (inverse : ∀ value, decode (encode value) = some value) :
    json.optional? decode key = some value := by
  unfold optional?
  rw [found]
  cases value with
  | none => rfl
  | some value =>
      simp only [ofOption]
      split
      · contradiction
      · rename_i same
        exact absurd (Option.some.inj same) (written value)
      · rename_i part _ same
        rw [← Option.some.inj same, inverse, Option.map_some]

/-- A text that may be missing is written as null and read back as missing. -/
theorem optional?_string {json : Json} {key : String} {text : Option String}
    (found : json.field? key = some (ofOption .string text)) :
    json.optional? string? key = some text :=
  optional?_ofOption found (fun _ => Json.noConfusion) string?_string

theorem nested?_read {α : Type} {decode : Json → Option α} {json part : Json} {key : String}
    {values : List α} (found : json.field? key = some part)
    (same : part.listOf? decode = some values) :
    json.nested? key (fun element _ => decode element) = some values := by
  rw [nested?_eq, found]
  exact same

/-! ### Numbers of parts -/

theorem isNatural_ofNat {n : Nat} (small : n < UInt64.size) : (ofNat n).isNatural := by
  rw [ofNat, isNatural, Bool.and_eq_true, decide_eq_true_iff, decide_eq_true_iff]
  exact ⟨Int.natCast_nonneg n, by omega⟩

theorem isNatural_ofOption {α : Type} {encode : α → Json}
    (natural : ∀ value, (encode value).isNatural) (value : Option α) :
    (ofOption encode value).isNatural := by
  cases value with
  | none => rfl
  | some value => exact natural value

theorem isNaturalAll_map {α : Type} {encode : α → Json}
    (natural : ∀ value, (encode value).isNatural) (values : List α) :
    isNaturalAll (values.map encode) := by
  induction values with
  | nil => rfl
  | cons value rest ih => exact (Bool.and_eq_true ..).mpr ⟨natural value, ih⟩

theorem isNatural_ofStrings (values : List String) : (ofStrings values).isNatural :=
  isNaturalAll_map (fun _ => rfl) values

theorem isNatural_text (text : Option String) : (ofOption .string text).isNatural :=
  isNatural_ofOption (fun _ => rfl) text

end Json

/-! ## Spans and leaves -/

open Json

theorem Location.ofJson?_toJson (location : Location) :
    Location.ofJson? location.toJson = some location := by
  rw [ofJson?, field?_bind rfl (uint64?_ofNat location.offset),
    field?_bind rfl (uint64?_ofNat location.row), field?_bind rfl (uint64?_ofNat location.column)]
  rfl

theorem Location.isNatural_toJson (location : Location) : location.toJson.isNatural := by
  simp only [toJson, isNatural, isNaturalMembers, isNatural_ofNat location.offset.toNat_lt,
    isNatural_ofNat location.row.toNat_lt, isNatural_ofNat location.column.toNat_lt, Bool.and_true]

theorem Span.ofJson?_toJson (span : Span) : Span.ofJson? span.toJson = some span := by
  rw [ofJson?, field?_bind rfl span.start.ofJson?_toJson, field?_bind rfl span.stop.ofJson?_toJson]
  rfl

theorem Span.isNatural_toJson (span : Span) : span.toJson.isNatural := by
  simp only [toJson, isNatural, isNaturalMembers, Location.isNatural_toJson, Bool.and_true]

theorem Target.ofJson?_toJson (target : Target) : Target.ofJson? target.toJson = some target := by
  rw [ofJson?, read_bind (optional?_string rfl), read_bind (optional?_string rfl),
    read_bind (optional?_string rfl), read_bind (optional?_string rfl)]
  rfl

theorem Target.isNatural_toJson (target : Target) : target.toJson.isNatural := by
  simp only [toJson, isNatural, isNaturalMembers, isNatural_text, Bool.and_true]

theorem MathForm.ofTag?_tag (form : MathForm) : MathForm.ofTag? form.tag = some form := by
  cases form <;> rfl

theorem Style.ofTag?_tag (style : Style) : Style.ofTag? style.tag = some style := by
  cases style <;> rfl

/-! ## Nodes -/

namespace Inline

mutual

theorem ofJson?_toJson (inline : Inline) : ofJson? inline.toJson = some inline := by
  cases inline with
  | text body span =>
      rw [toJson, ofJson?, field?_bind rfl span.ofJson?_toJson]
      exact field?_bind rfl (string?_string body)
  | styled style content span =>
      -- the kind is the style itself; all other kinds are told apart after no style was found
      rw [toJson, ofJson?, field?_bind rfl span.ofJson?_toJson]
      simp only [Style.ofTag?_tag]
      exact read_bind (nested?_read rfl (listOf?_toJsonAll content))
  | link target content span =>
      rw [toJson, ofJson?, field?_bind rfl span.ofJson?_toJson]
      refine (field?_bind rfl (string?_string target)).trans ?_
      exact read_bind (nested?_read rfl (listOf?_toJsonAll content))
  | crossReference target content span =>
      rw [toJson, ofJson?, field?_bind rfl span.ofJson?_toJson]
      refine (field?_bind rfl target.ofJson?_toJson).trans ?_
      exact read_bind (nested?_read rfl (listOf?_toJsonAll content))
  | math formula display span =>
      rw [toJson, ofJson?, field?_bind rfl span.ofJson?_toJson]
      refine (field?_bind rfl (string?_string formula.form.tag)).trans ?_
      refine (read_bind formula.form.ofTag?_tag).trans ?_
      refine (field?_bind rfl (string?_string formula.body)).trans ?_
      exact field?_bind rfl (bool?_bool display)
  | passthrough body span =>
      rw [toJson, ofJson?, field?_bind rfl span.ofJson?_toJson]
      exact field?_bind rfl (string?_string body)
  | command named span =>
      rw [toJson, ofJson?, field?_bind rfl span.ofJson?_toJson]
      refine (field?_bind rfl (string?_string named.name)).trans ?_
      refine (read_bind (optional?_string rfl)).trans ?_
      exact field?_bind rfl (string?_string named.body)
  | footnote content key id span =>
      rw [toJson, ofJson?, field?_bind rfl span.ofJson?_toJson]
      refine (read_bind (nested?_read rfl (listOf?_toJsonAll content))).trans ?_
      refine (read_bind (optional?_string rfl)).trans ?_
      exact read_bind (optional?_ofOption rfl (fun _ => Json.noConfusion) uint32?_ofNat)
  | indexTerm terms visible span =>
      rw [toJson, ofJson?, field?_bind rfl span.ofJson?_toJson]
      refine (field?_bind rfl (strings?_ofStrings terms)).trans ?_
      exact field?_bind rfl (bool?_bool visible)

theorem listOf?_toJsonAll (content : List Inline) :
    (Json.array (toJsonAll content)).listOf? ofJson? = some content := by
  match content with
  | [] => rfl
  | inline :: rest => exact listOf?_cons (ofJson?_toJson inline) (listOf?_toJsonAll rest)

end

theorem listOfJson?_listToJson (content : List Inline) :
    listOfJson? (listToJson content) = some content := listOf?_toJsonAll content

mutual

theorem isNatural_toJson (inline : Inline) : inline.toJson.isNatural := by
  cases inline with
  | text | math | passthrough =>
      simp only [toJson, isNatural, isNaturalMembers, Span.isNatural_toJson, Bool.and_true]
  | styled _ content | link _ content =>
      simp only [toJson, isNatural, isNaturalMembers, Span.isNatural_toJson,
        isNaturalAll_toJsonAll content, Bool.and_true]
  | crossReference target content =>
      simp only [toJson, isNatural, isNaturalMembers, Span.isNatural_toJson,
        isNaturalAll_toJsonAll content, target.isNatural_toJson, Bool.and_true]
  | command =>
      simp only [toJson, isNatural, isNaturalMembers, Span.isNatural_toJson, isNatural_text,
        Bool.and_true]
  | footnote content key id =>
      have number : ∀ id : UInt32, (Json.ofNat id.toNat).isNatural := fun id =>
        isNatural_ofNat (Nat.lt_trans id.toNat_lt (by decide))
      simp only [toJson, isNatural, isNaturalMembers, Span.isNatural_toJson, isNatural_text,
        isNaturalAll_toJsonAll content, isNatural_ofOption number, Bool.and_true]
  | indexTerm =>
      simp only [toJson, isNatural, isNaturalMembers, Span.isNatural_toJson, isNatural_ofStrings,
        Bool.and_true]

theorem isNaturalAll_toJsonAll (content : List Inline) : isNaturalAll (toJsonAll content) := by
  match content with
  | [] => rfl
  | inline :: rest =>
      rw [toJsonAll, isNaturalAll, Bool.and_eq_true]
      exact ⟨isNatural_toJson inline, isNaturalAll_toJsonAll rest⟩

end

theorem isNatural_listToJson (content : List Inline) : (listToJson content).isNatural :=
  isNaturalAll_toJsonAll content

end Inline

end Rendition
