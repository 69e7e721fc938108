/-
# Rendition.Proofs.Callout.Marks -- the marks of a listing and the anchors made of them

A listing is annotated if and only if it has a mark whose number the bundle has
(`isSome_annotate?_iff`).  Marks are found from the front, but a listing is cut at all
its marks, so none is missed.

The markup of an annotated listing is read back as a reader of the format would
look for anchors: wherever one opens, its id is what stands before the next quote
(`anchorIds`).  The anchors are then those of the marks and no others, because the
text between the marks cannot open a tag (`anchorIds_of_annotate?`).  A mark makes its
anchor each time it stands in the listing, so anchors have different ids exactly where
marks have different numbers (`nodup_anchorIds_iff`).
-/
import Mathlib.Data.List.Nodup
import Mathlib.Tactic.SplitIfs
import Rendition.Proofs.Callout.Cut
import Rendition.Proofs.Markup.Fragment

namespace Rendition.Callout

set_option autoImplicit false

open Rendition.Text Rendition.Markup

/-! ## Marks -/

/-- A stretch of text that holds a mark with a number: somewhere in it, digits in angle brackets
that are read as the number. -/
def MarksIn (cs : List Char) (ordinal : Nat) : Prop :=
  ∃ before digits after, cs = before ++ '<' :: (digits ++ '>' :: after) ∧ digits ≠ [] ∧
    digits.all isDecimalDigit ∧ ordinalOf? digits = some ordinal

/-- A listing that has a mark with a number. -/
def Marks (text : String) (ordinal : Nat) : Prop := MarksIn text.toList ordinal

def Piece.ordinal? : Piece → Option Nat
  | .char _ => none
  | .mark ordinal => some ordinal

/-- The numbers of the marks of a listing that a bundle has. -/
def ordinals (bundle : Bundle) (cs : List Char) : List Nat :=
  (pieces bundle cs).filterMap Piece.ordinal?

/-- The marks that a bundle has are those whose numbers it has. -/
theorem not_unmarked_iff {bundle : Bundle} {cs : List Char} :
    ¬ Unmarked bundle cs ↔ ∃ ordinal, MarksIn cs ordinal ∧ bundle.has ordinal = true := by
  constructor
  · intro marked
    simp only [Unmarked, not_forall, not_not] at marked
    obtain ⟨before, mark, after, stands⟩ := marked
    rw [mark.source_append] at stands
    exact ⟨mark.ordinal, ⟨before, mark.digits, after, stands, mark.nonempty, mark.digital,
      mark.value⟩, mark.known⟩
  · rintro ⟨ordinal, ⟨before, digits, after, stands, nonempty, digital, value⟩, known⟩ unmarked
    let mark : Mark bundle := ⟨digits, ordinal, nonempty, digital, value, known⟩
    exact unmarked before mark after (by rw [stands, mark.source_append])

/-- The numbers of the marks of a listing are those of the parts it is cut into, in order. -/
theorem ordinals_of_cut {bundle : Bundle} {cs front : List Char}
    {parts : List (Mark bundle × List Char)} (same : pieces bundle cs = piecesOf front parts) :
    ordinals bundle cs = parts.map fun part => part.1.ordinal := by
  have letters : ∀ cs : List Char, (cs.map Piece.char).filterMap Piece.ordinal? = [] := by
    intro cs
    simp [Piece.ordinal?]
  have marks : ∀ parts : List (Mark bundle × List Char),
      (piecesOf [] parts).filterMap Piece.ordinal? = parts.map fun part => part.1.ordinal := by
    intro parts
    induction parts with
    | nil => rfl
    | cons part parts ih => simpa [piecesOf, Piece.ordinal?, letters] using ih
  rw [ordinals, same, piecesOf, List.filterMap_append, letters, List.nil_append, ← marks]
  rfl

theorem has_of_mem_ordinals {bundle : Bundle} {cs : List Char} {ordinal : Nat}
    (inside : ordinal ∈ ordinals bundle cs) : bundle.has ordinal = true := by
  obtain ⟨front, parts, -, same⟩ := exists_cut bundle cs
  rw [ordinals_of_cut same] at inside
  obtain ⟨part, -, rfl⟩ := List.mem_map.mp inside
  exact part.1.known

/-- The marks that are found from the front are all there are. -/
theorem ordinals_ne_nil_iff {bundle : Bundle} {cs : List Char} :
    ordinals bundle cs ≠ [] ↔ ∃ ordinal, MarksIn cs ordinal ∧ bundle.has ordinal = true := by
  obtain ⟨front, parts, cut, same⟩ := exists_cut bundle cs
  rw [← not_unmarked_iff, ← cut.isEmpty_iff, ordinals_of_cut same]
  simp

/-- A listing is annotated if and only if one of its marks has a number of the bundle. -/
theorem isSome_annotate?_iff {backend : Backend} {bundle : Bundle} {text : String} :
    (annotate? backend bundle text).isSome ↔
      ∃ ordinal, Marks text ordinal ∧ bundle.has ordinal = true := by
  obtain ⟨front, parts, cut, same⟩ := exists_cut bundle text.toList
  unfold Marks
  rw [annotate?_of_cut same, ← not_unmarked_iff, ← cut.isEmpty_iff]
  split_ifs with unmarked <;> simp [unmarked]

/-! ## Anchors -/

/-- How an anchor of a callout begins, up to its id. -/
def anchorOpening : TagFormat → List Char
  | .html => ['<', 'a', ' ', 'i', 'd', '=', '\x22']
  | .docBook => ['<', 'c', 'o', ' ', 'x', 'm', 'l', ':', 'i', 'd', '=', '\x22']

/-- The ids of the anchors in a stretch of markup, read up to the quote. -/
def anchorIdsIn (format : TagFormat) : List Char → List String
  | [] => []
  | c :: cs =>
      if (anchorOpening format).isPrefixOf (c :: cs) then
        String.ofList (((c :: cs).drop (anchorOpening format).length).takeWhile (· != '\x22')) ::
          anchorIdsIn format cs
      else anchorIdsIn format cs

def anchorIds (format : TagFormat) (markup : String) : List String :=
  anchorIdsIn format markup.toList

/-- Whether no anchor opens in a stretch, whatever follows it. -/
def clear (format : TagFormat) : List Char → Bool
  | [] => true
  | c :: cs =>
      ! (anchorOpening format).isPrefixOf (c :: cs) &&
        ! (c :: cs).isPrefixOf (anchorOpening format) && clear format cs

variable {format : TagFormat}

theorem anchorOpening_eq (format : TagFormat) :
    ∃ tail, anchorOpening format = '<' :: tail ∧ '<' ∉ tail := by
  cases format with
  | html => exact ⟨_, rfl, by decide⟩
  | docBook => exact ⟨_, rfl, by decide⟩

/-- No anchor is found in a clear stretch, nor one that begins there. -/
theorem anchorIdsIn_append_of_clear {stretch : List Char} (cleared : clear format stretch)
    (rest : List Char) : anchorIdsIn format (stretch ++ rest) = anchorIdsIn format rest := by
  induction stretch with
  | nil => rfl
  | cons c cs ih =>
      simp only [clear, Bool.and_eq_true, Bool.not_eq_true', Bool.eq_false_iff, ne_eq,
        List.isPrefixOf_iff_prefix] at cleared
      obtain ⟨⟨longer, shorter⟩, under⟩ := cleared
      have closed : ¬ anchorOpening format <+: c :: (cs ++ rest) := by
        intro opens
        rcases List.prefix_or_prefix_of_prefix opens (List.prefix_append (c :: cs) rest) with h | h
        · exact longer h
        · exact shorter h
      rw [List.cons_append, anchorIdsIn, if_neg (by rwa [List.isPrefixOf_iff_prefix]), ih under]

theorem clear_of_notMem {stretch : List Char} (absent : '<' ∉ stretch) : clear format stretch := by
  obtain ⟨tail, opening, -⟩ := anchorOpening_eq format
  induction stretch with
  | nil => rfl
  | cons c cs ih =>
      rw [List.mem_cons, not_or] at absent
      simp [clear, opening, List.isPrefixOf, ih absent.2, absent.1, Ne.symm absent.1]

theorem anchorIdsIn_append_of_notMem {stretch : List Char} (absent : '<' ∉ stretch)
    (rest : List Char) : anchorIdsIn format (stretch ++ rest) = anchorIdsIn format rest :=
  anchorIdsIn_append_of_clear (clear_of_notMem absent) rest

/-- Text that could stand in an attribute value opens no tag and ends at no quote. -/
theorem notMem_of_literal {text : String} (literal : Literal format isValueChar text) :
    '<' ∉ text.toList ∧ '\x22' ∉ text.toList := by
  induction literal with
  | empty => exact ⟨List.not_mem_nil, List.not_mem_nil⟩
  | char allowed _ ih =>
      rw [isValueChar_iff, isTextChar_iff] at allowed
      simp only [String.toList_append, String.toList_singleton, List.mem_append,
        List.mem_singleton, not_or]
      exact ⟨⟨Ne.symm allowed.1.1, ih.1⟩, Ne.symm allowed.2, ih.2⟩
  | @reference name _ known _ ih =>
      have entity : ∀ name ∈ format.references,
          '<' ∉ ("&" ++ name ++ ";").toList ∧ '\x22' ∉ ("&" ++ name ++ ";").toList := by
        cases format <;> decide
      rw [String.toList_append, List.mem_append, List.mem_append, not_or, not_or]
      exact ⟨⟨(entity name known).1, ih.1⟩, (entity name known).2, ih.2⟩

/-- Escaped text holds no angle bracket and so no anchor. -/
theorem anchorIdsIn_append_of_literal {text : String} (literal : Literal format isValueChar text)
    (rest : List Char) : anchorIdsIn format (text.toList ++ rest) = anchorIdsIn format rest :=
  anchorIdsIn_append_of_notMem (notMem_of_literal literal).1 rest

/-- An anchor is found where it opens, and its id is read up to the quote. -/
theorem anchorIdsIn_anchorOpening {id : String} (literal : Literal format isValueChar id)
    (rest : List Char) :
    anchorIdsIn format (anchorOpening format ++ (id.toList ++ '\x22' :: rest)) =
      id :: anchorIdsIn format rest := by
  obtain ⟨tail, opening, absent⟩ := anchorOpening_eq format
  have read : (id.toList ++ '\x22' :: rest).takeWhile (· != '\x22') = id.toList := by
    have plain : ∀ c ∈ id.toList, (c != '\x22') = true := by
      intro c inside
      rw [bne_iff_ne]
      rintro rfl
      exact (notMem_of_literal literal).2 inside
    rw [List.takeWhile_append_of_pos plain]
    simp
  have opens : (anchorOpening format).isPrefixOf
      (anchorOpening format ++ (id.toList ++ '\x22' :: rest)) := by
    rw [List.isPrefixOf_iff_prefix]
    exact List.prefix_append _ _
  have dropped : (anchorOpening format ++ (id.toList ++ '\x22' :: rest)).drop
      (anchorOpening format).length = id.toList ++ '\x22' :: rest := List.drop_left
  have quote : anchorIdsIn format ('\x22' :: rest) = anchorIdsIn format rest :=
    anchorIdsIn_append_of_notMem (by decide : '<' ∉ ['\x22']) rest
  rw [opening, List.cons_append] at opens dropped ⊢
  rw [anchorIdsIn, opening, if_pos opens, dropped, read, String.ofList_toList,
    anchorIdsIn_append_of_notMem absent, anchorIdsIn_append_of_literal literal, quote]

/-! ## The markup of a listing -/

theorem literal_verbatim (text : String) :
    Literal format isValueChar (verbatim format.backend text) := by
  cases format with
  | html => exact literal_html text
  | docBook => exact literal_xml text

theorem literal_id (bundle : Bundle) (ordinal : Nat) :
    Literal format isValueChar (bundle.id ordinal) := by
  have serial : Literal format isValueChar bundle.base :=
    (literal_constant (by decide)).append (literal_repr bundle.serial.toNat)
  exact (serial.append (literal_constant (by decide))).append (literal_repr ordinal)

theorem literal_circled (ordinal : Nat) : Literal format isValueChar (circled ordinal) := by
  unfold circled
  split_ifs with small
  · have allowed : ∀ n ≤ 20, isValueChar (Char.ofNat (0x2460 + n - 1)) := by decide
    exact literal_singleton (allowed ordinal small.2)
  · exact ((literal_constant (by decide)).append (literal_repr ordinal)).append
      (literal_constant (by decide))

/-- A mark is one anchor, with the id of its callout. -/
theorem anchorIdsIn_markMarkup (bundle : Bundle) (ordinal : Nat) (rest : List Char) :
    anchorIdsIn format ((markMarkup format.backend bundle ordinal).toList ++ rest) =
      bundle.id ordinal :: anchorIdsIn format rest := by
  cases format with
  | html =>
      have shape : (markMarkup .html bundle ordinal).toList ++ rest =
          anchorOpening .html ++ ((bundle.id ordinal).toList ++ '\x22' ::
            ("></a><a class=\"conum\" href=\"#".toList ++ ((bundle.id ordinal).toList ++
              ("\" data-value=\"".toList ++ (ordinal.repr.toList ++ ("\">".toList ++
                ((circled ordinal).toList ++ ("</a>".toList ++ rest)))))))) := by
        simp [markMarkup, element, openTag, closeTag, attributesText, anchorOpening,
          String.toList_append]
      rw [TagFormat.backend, shape, anchorIdsIn_anchorOpening (literal_id bundle ordinal),
        anchorIdsIn_append_of_clear (by decide),
        anchorIdsIn_append_of_literal (literal_id bundle ordinal),
        anchorIdsIn_append_of_notMem (by decide),
        anchorIdsIn_append_of_literal (literal_repr ordinal),
        anchorIdsIn_append_of_notMem (by decide),
        anchorIdsIn_append_of_literal (literal_circled ordinal),
        anchorIdsIn_append_of_clear (by decide)]
  | docBook =>
      have shape : (markMarkup .docBook bundle ordinal).toList ++ rest =
          anchorOpening .docBook ++ ((bundle.id ordinal).toList ++ '\x22' ::
            ("/>".toList ++ rest)) := by
        simp [markMarkup, emptyElement, attributesText, anchorOpening, String.toList_append]
      rw [TagFormat.backend, shape, anchorIdsIn_anchorOpening (literal_id bundle ordinal),
        anchorIdsIn_append_of_notMem (by decide)]

/-- The anchors in the markup of pieces are those of its marks, in order. -/
theorem anchorIdsIn_pieces (bundle : Bundle) (parts : List Piece) :
    anchorIdsIn format (String.join (parts.map (·.markup format.backend bundle))).toList =
      (parts.filterMap Piece.ordinal?).map bundle.id := by
  induction parts with
  | nil => rfl
  | cons piece rest ih =>
      rw [List.map_cons, String.join_cons, String.toList_append]
      cases piece with
      | char c =>
          rw [Piece.markup, anchorIdsIn_append_of_literal (literal_verbatim _), ih]
          rfl
      | mark ordinal =>
          rw [Piece.markup, anchorIdsIn_markMarkup, ih]
          rfl

/-- What is written in a listing is no anchor, even if it looks like one. -/
theorem anchorIds_verbatim (format : TagFormat) (text : String) :
    anchorIds format (verbatim format.backend text) = [] := by
  unfold anchorIds
  rw [← List.append_nil (verbatim format.backend text).toList,
    anchorIdsIn_append_of_literal (literal_verbatim text)]
  rfl

/-- **The anchors of an annotated listing are those of its marks**, in their order. -/
theorem anchorIds_of_annotate? {bundle : Bundle} {text annotated : String}
    (found : annotate? format.backend bundle text = some annotated) :
    anchorIds format annotated = (ordinals bundle text.toList).map bundle.id := by
  unfold annotate? at found
  dsimp only at found
  split at found
  · rw [← Option.some.inj found]
    exact anchorIdsIn_pieces bundle _
  · cases found

/-! ## Distinct anchors -/

variable {bundle : Bundle}

/-- Different numbers of a bundle have different ids. -/
theorem Bundle.id_injective (bundle : Bundle) : Function.Injective bundle.id := by
  intro ordinal number same
  have written := congrArg String.toList same
  simp only [Bundle.id, String.toList_append, List.append_cancel_left_eq] at written
  have read := readNatural?_repr ordinal
  rw [written, readNatural?_repr] at read
  exact (Option.some.inj read).symm

/-- The images of a list are distinct exactly if equal images stand at the same place. -/
theorem nodup_map_iff {α β : Type} {f : α → β} {xs : List α} :
    (xs.map f).Nodup ↔ ∀ before x after before' y after', xs = before ++ x :: after →
      xs = before' ++ y :: after' → f x = f y → before = before' := by
  induction xs with
  | nil => simp
  | cons z xs ih =>
      rw [List.map_cons, List.nodup_cons, ih]
      constructor
      · rintro ⟨absent, apart⟩ before x after before' y after' first second same
        cases before with
        | nil =>
            obtain ⟨rfl, rfl⟩ := List.cons.inj first
            cases before' with
            | nil => rfl
            | cons w before' =>
                rw [(List.cons.inj second).2, same] at absent
                simp at absent
        | cons w before =>
            obtain ⟨rfl, rest⟩ := List.cons.inj first
            cases before' with
            | nil =>
                rw [rest, (List.cons.inj second).1, ← same] at absent
                simp at absent
            | cons v before' =>
                obtain ⟨rfl, rest'⟩ := List.cons.inj second
                rw [apart before x after before' y after' rest rest' same]
      · intro apart
        refine ⟨fun inside => ?_, fun before x after before' y after' first second same => ?_⟩
        · obtain ⟨x, member, same⟩ := List.mem_map.mp inside
          obtain ⟨before, after, rfl⟩ := List.append_of_mem member
          cases apart [] z _ (z :: before) x after rfl rfl same.symm
        · have longer := apart (z :: before) x after (z :: before') y after' (by rw [first]; rfl)
            (by rw [second]; rfl) same
          exact (List.cons.inj longer).2

/-- Marks that stand at the same place of a listing come after the same marks. -/
theorem eq_of_sourceOf_eq {parts earlier others : List (Mark bundle × List Char)}
    (first : earlier <+: parts) (second : others <+: parts)
    (same : sourceOf earlier = sourceOf others) : earlier = others := by
  have shorter : ∀ {short long : List (Mark bundle × List Char)}, short <+: long →
      sourceOf short = sourceOf long → short = long := by
    rintro short _ ⟨more, rfl⟩ same
    cases more with
    | nil => rw [List.append_nil]
    | cons part more => simp [sourceOf, Mark.source] at same
  rcases List.prefix_or_prefix_of_prefix first second with before | before
  · exact shorter before same
  · exact (shorter before same.symm).symm

/-- **The anchors of a listing are distinct exactly if its marks are.**  No id is given to two
anchors of an annotated listing if and only if no two marks that stand in it have the same number,
whichever way the numbers are written. -/
theorem nodup_anchorIds_iff {format : TagFormat} {text annotated : String}
    (found : annotate? format.backend bundle text = some annotated) :
    (anchorIds format annotated).Nodup ↔
      ∀ before (mark : Mark bundle) after before' (other : Mark bundle) after',
        text.toList = before ++ (mark.source ++ after) →
          text.toList = before' ++ (other.source ++ after') →
            mark.ordinal = other.ordinal → before = before' := by
  obtain ⟨front, parts, cut, same⟩ := exists_cut bundle text.toList
  rw [anchorIds_of_annotate? found, ordinals_of_cut same, List.map_map, nodup_map_iff]
  constructor
  · intro apart before mark after before' other after' stands stands' number
    obtain ⟨earlier, stretch, later, split, rfl⟩ := cut.complete before mark after stands
    obtain ⟨earlier', stretch', later', split', rfl⟩ := cut.complete before' other after' stands'
    rw [apart earlier (mark, stretch) later earlier' (other, stretch') later' split split'
      (congrArg bundle.id number)]
  · intro apart earlier part later earlier' part' later' split split' id
    have stands : ∀ {earlier part later}, parts = earlier ++ part :: later → text.toList =
        front ++ sourceOf earlier ++ (part.1.source ++ (part.2 ++ sourceOf later)) := by
      rintro earlier part later split
      rw [cut.source_eq, split]
      simp [sourceOf]
    have place := apart _ _ _ _ _ _ (stands split) (stands split') (bundle.id_injective id)
    exact eq_of_sourceOf_eq ⟨_, split.symm⟩ ⟨_, split'.symm⟩ (List.append_cancel_left place)

namespace Example

/-- The callouts 1 and 2 of a list. -/
def explained : Bundle := ⟨1, [some 1, some 2]⟩

theorem distinct_anchors :
    annotate? .docBook explained "<2><1><3>" =
        some "<co xml:id=\"CO1-2\"/><co xml:id=\"CO1-1\"/>&lt;3&gt;" ∧
      ∀ before (mark : Mark explained) after before' (other : Mark explained) after',
        "<2><1><3>".toList = before ++ (mark.source ++ after) →
          "<2><1><3>".toList = before' ++ (other.source ++ after') →
            mark.ordinal = other.ordinal → before = before' := by
  have found : annotate? TagFormat.docBook.backend explained "<2><1><3>" =
      some "<co xml:id=\"CO1-2\"/><co xml:id=\"CO1-1\"/>&lt;3&gt;" := by decide +kernel
  exact ⟨found, (nodup_anchorIds_iff found).mp (by decide +kernel)⟩

/-- A mark that stands twice in a listing gives its id to two anchors. -/
theorem repeated_anchors :
    ∃ html docBook, annotate? .html explained "<1> <1>" = some html ∧
      annotate? .docBook explained "<1> <1>" = some docBook ∧
        ¬ (anchorIds .html html).Nodup ∧ ¬ (anchorIds .docBook docBook).Nodup := by
  let mark := "<a id=\"CO1-1\"></a><a class=\"conum\" href=\"#CO1-1\" data-value=\"1\">①</a>"
  let callout := "<co xml:id=\"CO1-1\"/>"
  have inHtml : annotate? TagFormat.html.backend explained "<1> <1>" =
      some (mark ++ " " ++ mark) := by
    decide +kernel
  have inDocBook : annotate? TagFormat.docBook.backend explained "<1> <1>" =
      some (callout ++ " " ++ callout) := by
    decide +kernel
  refine ⟨_, _, inHtml, inDocBook, ?_, ?_⟩
  · rw [anchorIds_of_annotate? inHtml]
    decide +kernel
  · rw [anchorIds_of_annotate? inDocBook]
    decide +kernel

end Example

end Rendition.Callout
