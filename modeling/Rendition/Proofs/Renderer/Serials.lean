/-
# Rendition.Proofs.Renderer.Serials -- the ids of callouts never collide

One counter is threaded through the walk of a document, into sections, items and
containers and out again.  Every list that shows callouts takes one number from
it, in the order in which the contexts of the lists stand, and nothing else does:
the bases are `CO1`, `CO2` and so on, without gaps (`takes_blocks`), as long as the
numbers fit in the 32 bits of the counter (`toNat_serialsAfter`).

Ids are made of the number of the list and that of the marker.  Since no number
is written with a dash, an id tells both (`id_inj`), so the callouts of different
lists have different ids, and those of one list share an id only with callouts of
the same number (`callouts_apart`).
-/
import Mathlib.Algebra.Group.Nat.Defs
import Rendition.Proofs.Renderer.Markups
import Rendition.Proofs.Renderer.Pairs

namespace Rendition

set_option autoImplicit false

open Rendition.Callout

/-! ## Contexts -/

namespace Value

mutual

/-- The contexts of a part and of all parts in it, each before its own parts. -/
def contexts : Value → List Value
  | .map entries => .map entries :: contextsOfEntries entries
  | .list items => contextsOfItems items
  | _ => []

def contextsOfItems : List Value → List Value
  | [] => []
  | value :: rest => value.contexts ++ contextsOfItems rest

def contextsOfEntries : List (String × Value) → List Value
  | [] => []
  | (key, value) :: rest =>
      (if partFields.contains key then value.contexts else []) ++ contextsOfEntries rest

end

/-- Whether a context is that of a list that shows callouts. -/
def isCalloutList (value : Value) : Bool :=
  (value.get? "kind").bind string? = some "list" ∧ (value.get? "callout_base").isSome

/-- The lists among the contexts of a value that show callouts. -/
def calloutLists (value : Value) : List Value := value.contexts.filter isCalloutList

/-- The context of a list that shows callouts under a serial number. -/
structure Numbered (serial : Nat) (list : Value) : Prop where
  based : list.get? "callout_base" = some (.string ("CO" ++ serial.repr))
  items : ∀ item ∈ list.items, ∃ marker, item.Explained ("CO" ++ serial.repr) marker

theorem calloutLists_list_cons (value : Value) (rest : List Value) :
    (Value.list (value :: rest)).calloutLists =
      value.calloutLists ++ (Value.list rest).calloutLists :=
  List.filter_append ..

/-- The lists in a context that is none of them itself. -/
theorem calloutLists_of_parts {value : Value} {parts : List Value}
    (same : value.contexts = value :: ((Value.list parts).contexts ++ []))
    (other : value.isCalloutList = false) :
    value.calloutLists = (Value.list parts).calloutLists := by
  rw [calloutLists, same, List.append_nil, List.filter_cons_of_neg (Bool.eq_false_iff.mp other),
    calloutLists]

/-- The lists in a context that is one of them. -/
theorem calloutLists_of_list {value : Value} {parts : List Value}
    (same : value.contexts = value :: ((Value.list parts).contexts ++ []))
    (own : value.isCalloutList = true) :
    value.calloutLists = value :: (Value.list parts).calloutLists := by
  rw [calloutLists, same, List.append_nil, List.filter_cons_of_pos own, calloutLists]

/-- A context without parts that is no list. -/
theorem calloutLists_of_single {value : Value} (same : value.contexts = [value])
    (other : value.isCalloutList = false) : value.calloutLists = [] := by
  rw [calloutLists, same, List.filter_cons_of_neg (Bool.eq_false_iff.mp other), List.filter_nil]

theorem calloutLists_list_eq_nil {values : List Value}
    (each : ∀ value ∈ values, value.calloutLists = []) :
    (Value.list values).calloutLists = [] := by
  induction values with
  | nil => rfl
  | cons value rest ih =>
      rw [calloutLists_list_cons, each value List.mem_cons_self,
        ih fun other inside => each other (List.mem_cons_of_mem _ inside)]
      rfl

end Value

/-! ## Serial numbers -/

namespace Renderer

open Value

/-- The serial numbers that the counter gives after a number. -/
def serialsAfter (serial : UInt32) : Nat → List UInt32
  | 0 => []
  | count + 1 => (serial + 1) :: serialsAfter (serial + 1) count

theorem add_one_add_ofNat (serial : UInt32) (count : Nat) :
    serial + 1 + UInt32.ofNat count = serial + UInt32.ofNat (count + 1) := by
  rw [UInt32.ofNat_add, UInt32.add_assoc, UInt32.add_comm (UInt32.ofNat count)]
  rfl

/-- The counter goes on where it stopped. -/
theorem serialsAfter_add (serial : UInt32) (count more : Nat) :
    serialsAfter serial (count + more) =
      serialsAfter serial count ++ serialsAfter (serial + UInt32.ofNat count) more := by
  induction count generalizing serial with
  | zero =>
      rw [Nat.zero_add]
      show _ = serialsAfter (serial + 0) more
      rw [UInt32.add_zero]
  | succ count ih =>
      rw [Nat.add_right_comm, serialsAfter, ih, serialsAfter, add_one_add_ofNat, List.cons_append]

theorem length_serialsAfter (serial : UInt32) (count : Nat) :
    (serialsAfter serial count).length = count := by
  induction count generalizing serial with
  | zero => rfl
  | succ count ih => rw [serialsAfter, List.length_cons, ih]

/-- Serial numbers that fit in 32 bits follow one another without gaps. -/
theorem toNat_serialsAfter (serial : UInt32) (count : Nat)
    (fits : serial.toNat + count < 2 ^ 32) :
    (serialsAfter serial count).map UInt32.toNat = List.range' (serial.toNat + 1) count := by
  induction count generalizing serial with
  | zero => rfl
  | succ count ih =>
      have next : (serial + 1).toNat = serial.toNat + 1 := by
        rw [UInt32.toNat_add]
        exact Nat.mod_eq_of_lt (by simp; omega)
      rw [serialsAfter, List.map_cons, ih (serial + 1) (by omega), next, List.range'_succ]

/-- A stretch of the walk took the serial numbers from `serial` to `last`, and its lists show them
in their order, after the number that the walk had taken for the first of them, if any. -/
def Takes (taken : List UInt32) (serial last : UInt32) (lists : List Value) : Prop :=
  ∃ count, last = serial + UInt32.ofNat count ∧
    List.Forall₂ (fun number => Numbered number.toNat) (taken ++ serialsAfter serial count) lists

theorem takes_nil (serial : UInt32) : Takes [] serial serial [] :=
  ⟨0, (UInt32.add_zero serial).symm, .nil⟩

/-- Two stretches of a walk take their numbers one after the other. -/
theorem Takes.append {taken : List UInt32} {serial middle last : UInt32}
    {first second : List Value} (left : Takes taken serial middle first)
    (right : Takes [] middle last second) : Takes taken serial last (first ++ second) := by
  obtain ⟨count, rfl, numbered⟩ := left
  obtain ⟨more, rfl, others⟩ := right
  refine ⟨count + more, by rw [UInt32.ofNat_add, UInt32.add_assoc], ?_⟩
  rw [serialsAfter_add, ← List.append_assoc]
  exact List.rel_append numbered others

/-- A list shows the number that was taken before the walk came to it. -/
theorem Takes.own {serial number last : UInt32} {list : Value} {lists : List Value}
    (takes : Takes [] serial last lists) (numbered : Numbered number.toNat list) :
    Takes [number] serial last (list :: lists) := by
  obtain ⟨count, rfl, others⟩ := takes
  exact ⟨count, rfl, .cons numbered others⟩

/-- A number that was taken just before the stretch becomes its first. -/
theorem Takes.next {serial last : UInt32} {lists : List Value}
    (takes : Takes [serial + 1] (serial + 1) last lists) : Takes [] serial last lists := by
  obtain ⟨count, rfl, numbered⟩ := takes
  exact ⟨count + 1, add_one_add_ofNat serial count, numbered⟩

theorem Takes.parts {value : Value} {parts : List Value} {serial last : UInt32}
    (takes : Takes [] serial last (Value.list parts).calloutLists)
    (same : value.contexts = value :: ((Value.list parts).contexts ++ []))
    (other : value.isCalloutList = false) : Takes [] serial last value.calloutLists := by
  rwa [calloutLists_of_parts same other]

/-- A bundle was made of the markers of the callout list that comes next. -/
def Fits (bundle : Option Bundle) (blocks : List Block) : Prop :=
  ∀ known ∈ bundle, ∃ markers, blocks.head?.bind Block.calloutMarkers? = some markers ∧
    known.ordinals = markers.map markerOrdinal?

theorem fits_none (blocks : List Block) : Fits none blocks := fun _ known => nomatch known

theorem eq_none_of_fits {bundle : Option Bundle} {blocks : List Block}
    (fits : Fits bundle blocks) (other : blocks.head?.bind Block.calloutMarkers? = none) :
    bundle = none := by
  refine Option.eq_none_iff_forall_not_mem.mpr fun known inside => ?_
  obtain ⟨markers, list, -⟩ := fits known inside
  rw [other] at list
  cases list

/-! ## The walk -/

variable (renderer : Renderer)

theorem blocks_of_unopened {bundle : Option Bundle} {serial : UInt32} {first : Block}
    {rest : List Block} (opened : pairing? serial first rest = none) :
    renderer.blocks bundle serial (first :: rest) =
      ((renderer.block bundle serial first).1 ::
          (renderer.blocks none (renderer.block bundle serial first).2 rest).1,
        (renderer.blocks none (renderer.block bundle serial first).2 rest).2) := by
  rw [blocks, opened]
  rfl

/-- A block that opens a bundle takes the next number for it. -/
theorem blocks_of_opened {bundle : Option Bundle} {known : Bundle} {serial : UInt32} {first : Block}
    {rest : List Block} (opened : pairing? serial first rest = some known) :
    renderer.blocks bundle serial (first :: rest) =
      ((renderer.block (some known) (serial + 1) first).1 ::
          (renderer.blocks (some known) (renderer.block (some known) (serial + 1) first).2 rest).1,
        (renderer.blocks (some known)
          (renderer.block (some known) (serial + 1) first).2 rest).2) := by
  rw [blocks, opened]
  rfl

theorem calloutLists_table (bundle : Option Bundle) (serial : UInt32) (info : Meta)
    (rows : List TableRow) :
    (renderer.block bundle serial (.table info rows)).1.calloutLists = [] := by
  refine (calloutLists_of_parts rfl rfl).trans (calloutLists_list_eq_nil fun value listed => ?_)
  obtain ⟨row, -, rfl⟩ := List.mem_map.mp listed
  refine (calloutLists_of_parts rfl rfl).trans (calloutLists_list_eq_nil fun cell inside => ?_)
  obtain ⟨content, -, rfl⟩ := List.mem_map.mp inside
  exact calloutLists_of_single rfl rfl

theorem calloutLists_listing (bundle : Option Bundle) (serial : UInt32) (info : Meta)
    (language : Option String) (body : String) :
    (renderer.block bundle serial (.listing info language body)).1.calloutLists = [] := by
  cases bundle with
  | none => exact calloutLists_of_single rfl rfl
  | some bundle =>
      rw [block, listingEntries]
      cases annotate? renderer.backend bundle body with
      | none => exact calloutLists_of_single rfl rfl
      | some annotated => cases renderer.backend <;> exact calloutLists_of_single rfl rfl

/-- The context of a list with a bundle shows the serial number of the bundle. -/
theorem numbered_list {bundle : Bundle} {info : Meta} {kind : ListKind}
    {entries : List (ListItem Block)} (fits : Fits (some bundle) [.list info kind entries])
    (serial : UInt32) :
    Numbered bundle.serial.toNat
      (renderer.block (some bundle) serial (.list info kind entries)).1 := by
  obtain ⟨markers, list, ordinals⟩ := fits bundle rfl
  obtain ⟨other, others, same, rfl⟩ := Block.exists_of_calloutMarkers? list
  cases same
  have explained := explained_items renderer info bundle 0 serial entries ordinals
  refine ⟨rfl, fun item inside => ?_⟩
  obtain ⟨marker, -, known⟩ := exists_left_of_mem explained inside
  exact ⟨marker, known⟩

mutual

/-- A block shows its bundle, if it has one, before the numbers that are taken in it. -/
theorem takes_block (bundle : Option Bundle) (serial : UInt32) (b : Block)
    (fits : Fits bundle [b]) :
    Takes (bundle.toList.map (·.serial)) serial (renderer.block bundle serial b).2
      (renderer.block bundle serial b).1.calloutLists := by
  cases b with
  | «section» _ _ _ children | quote _ _ _ children | admonition _ _ children =>
      obtain rfl := eq_none_of_fits fits rfl
      exact (takes_blocks none serial children (fits_none children)).parts rfl rfl
  | enclosure kind _ children =>
      obtain rfl := eq_none_of_fits fits rfl
      refine (takes_blocks none serial children (fits_none children)).parts rfl ?_
      cases kind <;> rfl
  | list info kind entries =>
      cases bundle with
      | none => exact (takes_items info none 0 serial entries).parts rfl rfl
      | some bundle =>
          have takes := takes_items info (some bundle) 0 serial entries
          rw [calloutLists_of_list rfl rfl]
          exact takes.own (numbered_list renderer fits serial)
  | descriptions info entries =>
      obtain rfl := eq_none_of_fits fits rfl
      exact (takes_descriptions info serial entries).parts rfl rfl
  | table info rows =>
      obtain rfl := eq_none_of_fits fits rfl
      rw [calloutLists_table]
      exact takes_nil serial
  | listing info language body =>
      obtain rfl := eq_none_of_fits fits rfl
      rw [calloutLists_listing]
      exact takes_nil serial
  | _ =>
      obtain rfl := eq_none_of_fits fits rfl
      rw [calloutLists_of_single rfl rfl]
      exact takes_nil serial

/-- A sequence takes its numbers block by block. -/
theorem takes_blocks (bundle : Option Bundle) (serial : UInt32) (bs : List Block)
    (fits : Fits bundle bs) :
    Takes (bundle.toList.map (·.serial)) serial (renderer.blocks bundle serial bs).2
      (Value.list (renderer.blocks bundle serial bs).1).calloutLists := by
  cases bs with
  | nil =>
      obtain rfl := eq_none_of_fits fits rfl
      exact takes_nil serial
  | cons first rest =>
      cases opened : pairing? serial first rest with
      | none =>
          rw [blocks_of_unopened renderer opened, calloutLists_list_cons]
          exact (takes_block bundle serial first fits).append
            (takes_blocks none _ rest (fits_none rest))
      | some known =>
          -- the number is taken at the listing and shown by the list after it
          obtain ⟨text, markers, pair, rfl⟩ := pairing?_eq_some_iff.mp opened
          obtain ⟨info, language, rfl⟩ := Block.exists_of_listingText? pair.listing
          obtain rfl := eq_none_of_fits fits rfl
          have next : Fits (some ⟨serial + 1, markers.map markerOrdinal?⟩) rest := by
            rintro known ⟨⟩
            exact ⟨markers, by rw [List.head?_eq_getElem?]; exact pair.list, rfl⟩
          rw [blocks_of_opened renderer opened, calloutLists_list_cons, calloutLists_listing]
          exact (takes_blocks _ (serial + 1) rest next).next

theorem takes_items (info : Meta) (bundle : Option Bundle) (position : Nat) (serial : UInt32)
    (entries : List (ListItem Block)) :
    Takes [] serial (renderer.items info bundle position serial entries).2
      (Value.list (renderer.items info bundle position serial entries).1).calloutLists := by
  match entries with
  | [] => exact takes_nil serial
  | ⟨_, _, children⟩ :: rest =>
      rw [items, calloutLists_list_cons]
      exact ((takes_blocks none serial children (fits_none children)).parts rfl rfl).append
        (takes_items info bundle (position + 1) _ rest)

theorem takes_descriptions (info : Meta) (serial : UInt32)
    (entries : List (DescriptionItem Block)) :
    Takes [] serial (renderer.descriptions info serial entries).2
      (Value.list (renderer.descriptions info serial entries).1).calloutLists := by
  match entries with
  | [] => exact takes_nil serial
  | ⟨_, _, children⟩ :: rest =>
      rw [descriptions, calloutLists_list_cons]
      exact ((takes_blocks none serial children (fits_none children)).parts rfl rfl).append
        (takes_descriptions info _ rest)

end

theorem calloutLists_context (document : Document) :
    (renderer.context document).calloutLists =
      (Value.list (renderer.blocks none 0
        (Footnote.resolveDocument document).document.blocks).1).calloutLists := by
  have footnotes : (Value.list ((Footnote.resolveDocument document).definitions.map
      renderer.footnoteValue)).calloutLists = [] := by
    refine calloutLists_list_eq_nil fun value listed => ?_
    obtain ⟨definition, -, rfl⟩ := List.mem_map.mp listed
    exact calloutLists_of_single rfl rfl
  have same : (renderer.context document).calloutLists =
      ((Value.list (renderer.blocks none 0
          (Footnote.resolveDocument document).document.blocks).1).contexts ++
        ((Value.list ((Footnote.resolveDocument document).definitions.map
          renderer.footnoteValue)).contexts ++ [])).filter isCalloutList := rfl
  rw [same, List.append_nil, List.filter_append]
  exact (congrArg _ footnotes).trans (List.append_nil _)

end Renderer

/-! ## Ids -/

namespace Callout

theorem toDigits_inj {n m : Nat} (same : Nat.toDigits 10 n = Nat.toDigits 10 m) : n = m := by
  rw [← Nat.ofDigitChars_ten_toDigits (n := n), same, Nat.ofDigitChars_ten_toDigits]

/-- Different serial numbers have different bases. -/
theorem base_inj {serial other : Nat} (same : "CO" ++ serial.repr = "CO" ++ other.repr) :
    serial = other := by
  have digits := congrArg String.toList same
  simp only [String.toList_append, Nat.toList_repr, List.append_cancel_left_eq] at digits
  exact toDigits_inj digits

/-- An id tells the number of the list and that of the marker: the first dash parts them. -/
theorem id_inj {serial other ordinal number : Nat}
    (same : "CO" ++ serial.repr ++ "-" ++ ordinal.repr =
      "CO" ++ other.repr ++ "-" ++ number.repr) : serial = other ∧ ordinal = number := by
  have digital : ∀ n, ∀ c ∈ Nat.toDigits 10 n, c.isDigit = true :=
    fun n c inside => Nat.isDigit_of_mem_toDigits (by decide) (by decide) inside
  have texts : Nat.toDigits 10 serial ++ '-' :: Nat.toDigits 10 ordinal =
      Nat.toDigits 10 other ++ '-' :: Nat.toDigits 10 number := by
    have characters := congrArg String.toList same
    simpa [String.toList_append] using characters
  have first : serial = other := by
    have runs := congrArg (List.takeWhile Char.isDigit) texts
    rw [List.takeWhile_append_of_pos (digital serial),
      List.takeWhile_append_of_pos (digital other)] at runs
    exact toDigits_inj (by simpa using runs)
  subst first
  exact ⟨rfl, toDigits_inj (by simpa using texts)⟩

end Callout

namespace Renderer

open Value

/-- No item of one list has the id of an item of another. -/
def IdsApart (list other : Value) : Prop :=
  ∀ item ∈ list.items, ∀ second ∈ other.items, ∀ id,
    item.calloutId? = some id → second.calloutId? ≠ some id

/-- Two items share an id if and only if their markers have the same number. -/
def SharedByNumber (item second : Value) : Prop :=
  ∃ marker other, item.get? "marker" = some (.string marker) ∧
    second.get? "marker" = some (.string other) ∧
      ((∃ id, item.calloutId? = some id ∧ second.calloutId? = some id) ↔
        ∃ ordinal, markerOrdinal? marker = some ordinal ∧ markerOrdinal? other = some ordinal)

/-- Lists whose callouts do not collide: they are numbered from one on, so that no base occurs
twice; no id occurs in two of them; and within a list an id stands for a number. -/
structure Apart (lists : List Value) : Prop where
  numbered : List.Forall₂ Numbered (List.range' 1 lists.length) lists
  bases : (lists.map (·.get? "callout_base")).Nodup
  between : lists.Pairwise IdsApart
  within : ∀ list ∈ lists, ∀ item ∈ list.items, ∀ second ∈ list.items, SharedByNumber item second

theorem bases_of_numbered {serials : List Nat} {lists : List Value}
    (numbered : List.Forall₂ Numbered serials lists) :
    lists.map (·.get? "callout_base") =
      serials.map fun serial => some (.string ("CO" ++ serial.repr)) := by
  induction numbered with
  | nil => rfl
  | cons first _ ih => rw [List.map_cons, List.map_cons, first.based, ih]

theorem exists_ordinal {serial : Nat} {list item id : Value} (numbered : Numbered serial list)
    (inside : item ∈ list.items) (carried : item.calloutId? = some id) :
    ∃ ordinal : Nat, id = .string ("CO" ++ serial.repr ++ "-" ++ ordinal.repr) := by
  obtain ⟨marker, explained⟩ := numbered.items item inside
  rw [explained.calloutId?_eq, Option.map_eq_some_iff] at carried
  obtain ⟨ordinal, -, rfl⟩ := carried
  exact ⟨ordinal, rfl⟩

/-- Lists with different serial numbers share no id. -/
theorem idsApart_of_numbered {serial other : Nat} {list second : Value}
    (numbered : Numbered serial list) (follows : Numbered other second) (apart : serial ≠ other) :
    IdsApart list second := by
  intro item inside later beside id carried shared
  obtain ⟨ordinal, rfl⟩ := exists_ordinal numbered inside carried
  obtain ⟨number, same⟩ := exists_ordinal follows beside shared
  exact apart (id_inj (Value.string.inj same)).1

theorem pairwise_idsApart {serials : List Nat} {lists : List Value}
    (numbered : List.Forall₂ Numbered serials lists) (distinct : serials.Nodup) :
    lists.Pairwise IdsApart := by
  induction numbered with
  | nil => exact .nil
  | cons first others ih =>
      obtain ⟨new, distinct⟩ := List.nodup_cons.mp distinct
      refine .cons (fun other listed => ?_) (ih distinct)
      obtain ⟨serial, known, follows⟩ := exists_left_of_mem others listed
      exact idsApart_of_numbered first follows fun same => new (same ▸ known)

/-- Within one list ids are told apart by the numbers of the markers. -/
theorem sharedByNumber_of_numbered {serial : Nat} {list item second : Value}
    (numbered : Numbered serial list) (inside : item ∈ list.items)
    (beside : second ∈ list.items) : SharedByNumber item second := by
  obtain ⟨marker, explained⟩ := numbered.items item inside
  obtain ⟨other, follows⟩ := numbered.items second beside
  refine ⟨marker, other, explained.marked, follows.marked, ?_⟩
  rw [explained.calloutId?_eq, follows.calloutId?_eq]
  constructor
  · rintro ⟨id, first, second⟩
    obtain ⟨ordinal, value, rfl⟩ := Option.map_eq_some_iff.mp first
    obtain ⟨number, same, shared⟩ := Option.map_eq_some_iff.mp second
    obtain ⟨-, rfl⟩ := id_inj (Value.string.inj shared)
    exact ⟨number, value, same⟩
  · rintro ⟨ordinal, first, second⟩
    rw [first, second]
    exact ⟨_, rfl, rfl⟩

/-- Lists that are numbered from one on do not collide. -/
theorem apart_of_numbered {lists : List Value} {count : Nat}
    (numbered : List.Forall₂ Numbered (List.range' 1 count) lists) : Apart lists := by
  have length : count = lists.length := by
    rw [← numbered.length_eq, List.length_range']
  refine ⟨length ▸ numbered, ?_, pairwise_idsApart numbered (List.nodup_range' 1),
    fun list listed item inside second beside => ?_⟩
  · rw [bases_of_numbered numbered]
    refine List.pairwise_map.mpr ((List.nodup_range' 1).imp fun apart same => apart ?_)
    exact base_inj (Value.string.inj (Option.some.inj same))
  · obtain ⟨serial, -, known⟩ := exists_left_of_mem numbered listed
    exact sharedByNumber_of_numbered known inside beside

/-- **Callouts never collide**, in the context of any document for any backend, as long as its
lists with callouts are fewer than the counter can number. -/
theorem callouts_apart (renderer : Renderer) (document : Document)
    (few : (renderer.context document).calloutLists.length < 2 ^ 32 - 1) :
    Apart (renderer.context document).calloutLists := by
  rw [calloutLists_context] at few ⊢
  obtain ⟨count, -, numbered⟩ := takes_blocks renderer none 0
    (Footnote.resolveDocument document).document.blocks (fits_none _)
  rw [Option.toList_none, List.map_nil, List.nil_append] at numbered
  have counted := numbered.length_eq
  rw [length_serialsAfter] at counted
  have serials : (serialsAfter 0 count).map UInt32.toNat = List.range' 1 count :=
    toNat_serialsAfter 0 count (by rw [UInt32.toNat_zero]; omega)
  rw [← List.forall₂_map_left_iff, serials] at numbered
  exact apart_of_numbered numbered

namespace Example

/-- A pair in an item of the list of another pair. -/
def nestedPairs : Document :=
  let listing : Block := .listing .empty none "<1>"
  let list (children : List Block) : Block := .list .empty .callout [⟨"1", [], children⟩]
  (Document.empty.withBlock listing).withBlock (list [listing, list []])

/-- The pair in the item is the second of two. -/
theorem nestedPairs_apart :
    ((ofBackend .html).context nestedPairs).calloutLists.length < 2 ^ 32 - 1 ∧
      Apart ((ofBackend .html).context nestedPairs).calloutLists := by
  have two : ((ofBackend .html).context nestedPairs).calloutLists.length = 2 := by decide +kernel
  have few : ((ofBackend .html).context nestedPairs).calloutLists.length < 2 ^ 32 - 1 := by omega
  exact ⟨few, callouts_apart (ofBackend .html) nestedPairs few⟩

example : ((ofBackend .html).context nestedPairs).calloutLists.map (fun list =>
    (list.get? "callout_base").bind string?) = [some "CO1", some "CO2"] := by
  decide +kernel

end Example

end Renderer

end Rendition
