/-
# Rendition.Proofs.Callout.Cut -- a listing is cut at its marks

The marks of a bundle cut a listing into stretches (`IsCut`): no stretch holds a mark,
and every mark that stands in the listing is one of the cuts.  There is always such a
cut (`exists_cut`): a mark holds no angle bracket but its own two, so no two marks
overlap and none is hidden by a bracket before it (`eq_nil_or_exists_of_mark`).

Annotating writes the stretches as literal text and the marks as their markup, in
their order, and nothing else; a listing without marks is left alone
(`annotation_exact`).
-/
import Mathlib.Data.List.Basic
import Rendition.Callout.Annotate

namespace Rendition.Callout

set_option autoImplicit false

open Rendition.Text Rendition.Markup

/-! ## Reading a mark -/

/-- A mark is one or more decimal digits between angle brackets. -/
theorem readMark?_eq_some_iff {cs digits rest : List Char} :
    readMark? cs = some (digits, rest) ↔
      cs = '<' :: (digits ++ '>' :: rest) ∧ digits ≠ [] ∧ digits.all isDecimalDigit := by
  constructor
  · intro found
    unfold readMark? at found
    split at found
    · rename_i cs
      simp only at found
      split at found
      · rename_i after same
        split at found
        · cases found
        · rename_i nonempty
          cases found
          rw [List.isEmpty_iff] at nonempty
          refine ⟨?_, nonempty, List.all_takeWhile⟩
          rw [← same, List.takeWhile_append_dropWhile]
      · cases found
    · cases found
  · rintro ⟨rfl, nonempty, digital⟩
    have closes : isDecimalDigit '>' = false := by decide
    have digital : ∀ c ∈ digits, isDecimalDigit c = true := List.all_eq_true.mp digital
    simp [readMark?, List.takeWhile_append_of_pos digital, List.dropWhile_append_of_pos digital,
      closes, nonempty]

/-- A mark is read as a number if its digits have a value that the bundle has. -/
theorem readOrdinal?_eq_some_iff {bundle : Bundle} {cs rest : List Char} {ordinal : Nat} :
    readOrdinal? bundle cs = some (ordinal, rest) ↔
      ∃ digits, readMark? cs = some (digits, rest) ∧ ordinalOf? digits = some ordinal ∧
        bundle.has ordinal = true := by
  constructor
  · intro found
    simp only [readOrdinal?, Option.bind_eq_bind, Option.bind_eq_some_iff, Prod.exists] at found
    obtain ⟨digits, after, mark, number, value, known⟩ := found
    split at known
    · rename_i has
      cases known
      exact ⟨digits, mark, value, has⟩
    · cases known
  · rintro ⟨digits, mark, value, has⟩
    simp [readOrdinal?, mark, value, has]

/-! ## Cuts -/

/-- A mark of a bundle as it is written: digits whose number the bundle has. -/
@[ext]
structure Mark (bundle : Bundle) where
  digits : List Char
  ordinal : Nat
  nonempty : digits ≠ []
  digital : digits.all isDecimalDigit
  value : ordinalOf? digits = some ordinal
  known : bundle.has ordinal = true

variable {bundle : Bundle}

def Mark.source (mark : Mark bundle) : List Char := '<' :: (mark.digits ++ ['>'])

/-- Marks as they are written, each with the stretch of text that follows it. -/
def sourceOf (parts : List (Mark bundle × List Char)) : List Char :=
  parts.flatMap fun part => part.1.source ++ part.2

/-- A stretch of text in which no mark of a bundle stands. -/
def Unmarked (bundle : Bundle) (cs : List Char) : Prop :=
  ∀ before (mark : Mark bundle) after, cs ≠ before ++ (mark.source ++ after)

/-- A text cut at all marks of a bundle that stand in it: the stretch before the first mark, and
the marks, each with the stretch that follows it. -/
structure IsCut (bundle : Bundle) (cs front : List Char) (parts : List (Mark bundle × List Char)) :
    Prop where
  source_eq : cs = front ++ sourceOf parts
  unmarked : ∀ stretch ∈ front :: parts.map Prod.snd, Unmarked bundle stretch
  complete : ∀ before mark after, cs = before ++ (mark.source ++ after) →
    ∃ earlier stretch later, parts = earlier ++ (mark, stretch) :: later ∧
      before = front ++ sourceOf earlier

/-! ## Marks that stand in a text -/

theorem Mark.source_append (mark : Mark bundle) (after : List Char) :
    mark.source ++ after = '<' :: (mark.digits ++ '>' :: after) := by
  simp [Mark.source]

/-- A mark at the start of a text is read. -/
theorem Mark.readOrdinal?_append (mark : Mark bundle) (after : List Char) :
    readOrdinal? bundle (mark.source ++ after) = some (mark.ordinal, after) :=
  readOrdinal?_eq_some_iff.mpr ⟨mark.digits,
    readMark?_eq_some_iff.mpr ⟨mark.source_append after, mark.nonempty, mark.digital⟩,
    mark.value, mark.known⟩

/-- What is read at the start of a text is a mark. -/
theorem exists_mark_of_readOrdinal? {cs rest : List Char} {ordinal : Nat}
    (found : readOrdinal? bundle cs = some (ordinal, rest)) :
    ∃ mark : Mark bundle, mark.ordinal = ordinal ∧ cs = mark.source ++ rest := by
  obtain ⟨digits, read, value, known⟩ := readOrdinal?_eq_some_iff.mp found
  obtain ⟨same, nonempty, digital⟩ := readMark?_eq_some_iff.mp read
  let mark : Mark bundle := ⟨digits, ordinal, nonempty, digital, value, known⟩
  exact ⟨mark, rfl, by rw [mark.source_append, same]⟩

/-- Only one mark can stand at the start of a text. -/
theorem Mark.eq_of_source_append {mark other : Mark bundle} {after rest : List Char}
    (same : mark.source ++ after = other.source ++ rest) : mark = other ∧ after = rest := by
  have read : readMark? (mark.source ++ after) = some (mark.digits, after) :=
    readMark?_eq_some_iff.mpr ⟨mark.source_append after, mark.nonempty, mark.digital⟩
  have read' : readMark? (mark.source ++ after) = some (other.digits, rest) :=
    readMark?_eq_some_iff.mpr ⟨same ▸ other.source_append rest, other.nonempty, other.digital⟩
  obtain ⟨digits, rfl⟩ := Prod.mk.inj (Option.some.inj (read.symm.trans read'))
  have value := mark.value
  rw [digits, other.value] at value
  exact ⟨Mark.ext digits (Option.some.inj value).symm, rfl⟩

/-- A mark in a text that starts with a mark is that mark, or stands behind it. -/
theorem eq_nil_or_exists_of_mark {mark other : Mark bundle} {rest before after : List Char}
    (same : mark.source ++ rest = before ++ (other.source ++ after)) :
    before = [] ∨ ∃ middle, before = mark.source ++ middle ∧
      rest = middle ++ (other.source ++ after) := by
  rcases List.append_eq_append_iff.mp same with ⟨middle, behind, rest⟩ | ⟨tail, inside, next⟩
  · exact .inr ⟨middle, behind, rest⟩
  · cases before with
    | nil => exact .inl rfl
    | cons c before =>
        -- the opening bracket of the other mark would be one of the digits or the closing bracket
        obtain ⟨rfl, behind⟩ := List.cons.inj inside
        cases tail with
        | nil => exact .inr ⟨[], by simpa [Mark.source] using behind.symm, by simpa using next.symm⟩
        | cons d tail =>
            obtain ⟨rfl, -⟩ := List.cons.inj next
            have bracket : '<' ∈ mark.digits ++ ['>'] := behind ▸ by simp
            rcases List.mem_append.mp bracket with digit | closing
            · exact absurd (List.all_eq_true.mp mark.digital _ digit) (by decide)
            · exact absurd closing (by decide)

/-! ## Every listing is cut -/

theorem IsCut.nil : IsCut bundle [] [] [] where
  source_eq := rfl
  unmarked stretch inside before mark after same := by
    rw [List.mem_singleton.mp inside] at same
    simp [Mark.source] at same
  complete before mark after same := by simp [Mark.source] at same

/-- A character at which no mark stands belongs to the first stretch. -/
theorem IsCut.char {c : Char} {rest front : List Char} {parts : List (Mark bundle × List Char)}
    (unmarked : readOrdinal? bundle (c :: rest) = none) (cut : IsCut bundle rest front parts) :
    IsCut bundle (c :: rest) (c :: front) parts where
  source_eq := by rw [cut.source_eq, List.cons_append]
  unmarked stretch inside := by
    rcases List.mem_cons.mp inside with rfl | later
    · intro before mark after same
      cases before with
      | nil =>
          rw [cut.source_eq, ← List.cons_append, same, List.nil_append, List.append_assoc,
            mark.readOrdinal?_append] at unmarked
          cases unmarked
      | cons d before =>
          exact cut.unmarked front List.mem_cons_self before mark after (List.cons.inj same).2
    · exact cut.unmarked stretch (List.mem_cons_of_mem _ later)
  complete before mark after same := by
    cases before with
    | nil =>
        rw [same, List.nil_append, mark.readOrdinal?_append] at unmarked
        cases unmarked
    | cons d before =>
        rw [List.cons_append, List.cons.injEq] at same
        obtain ⟨rfl, same⟩ := same
        obtain ⟨earlier, stretch, later, split, place⟩ := cut.complete before mark after same
        exact ⟨earlier, stretch, later, split, by rw [place, List.cons_append]⟩

/-- A mark at the start of a text comes before what the rest of the text is cut into. -/
theorem IsCut.mark {mark : Mark bundle} {rest front : List Char}
    {parts : List (Mark bundle × List Char)} (cut : IsCut bundle rest front parts) :
    IsCut bundle (mark.source ++ rest) [] ((mark, front) :: parts) where
  source_eq := by rw [cut.source_eq]; simp [sourceOf]
  unmarked stretch inside := by
    rcases List.mem_cons.mp inside with rfl | later
    · intro before mark after same
      simp [Mark.source] at same
    · exact cut.unmarked stretch later
  complete before other after same := by
    rcases eq_nil_or_exists_of_mark same with rfl | ⟨middle, rfl, behind⟩
    · obtain ⟨rfl, -⟩ := Mark.eq_of_source_append same
      exact ⟨[], front, parts, rfl, rfl⟩
    · obtain ⟨earlier, stretch, later, rfl, rfl⟩ := cut.complete middle other after behind
      exact ⟨(mark, front) :: earlier, stretch, later, rfl, by simp [sourceOf]⟩

/-- The pieces of a listing that is cut: its characters, and its marks between them. -/
def piecesOf (front : List Char) (parts : List (Mark bundle × List Char)) : List Piece :=
  front.map .char ++ parts.flatMap fun part => .mark part.1.ordinal :: part.2.map .char

/-- Every text is cut at its marks, and its pieces are those of the cut. -/
theorem exists_cut (bundle : Bundle) (cs : List Char) :
    ∃ front parts, IsCut bundle cs front parts ∧ pieces bundle cs = piecesOf front parts := by
  fun_induction pieces bundle cs with
  | case1 cs ordinal rest found ih =>
      obtain ⟨front, parts, cut, same⟩ := ih
      obtain ⟨mark, rfl, rfl⟩ := exists_mark_of_readOrdinal? found
      exact ⟨[], (mark, front) :: parts, cut.mark, by rw [same]; rfl⟩
  | case2 => exact ⟨[], [], .nil, rfl⟩
  | case3 c rest none ih =>
      obtain ⟨front, parts, cut, same⟩ := ih
      exact ⟨c :: front, parts, cut.char none, by rw [same]; rfl⟩

/-! ## The markup of a listing that is cut -/

theorem verbatim_append (backend : Backend) (text more : String) :
    verbatim backend (text ++ more) = verbatim backend text ++ verbatim backend more := by
  cases backend with
  | html => exact substitute_append _ text more
  | docBook => exact substitute_append _ text more
  | latex => rfl

theorem join_markup_char (backend : Backend) (bundle : Bundle) (cs : List Char) :
    String.join ((cs.map Piece.char).map (·.markup backend bundle)) =
      verbatim backend (String.ofList cs) := by
  induction cs with
  | nil => cases backend <;> rfl
  | cons c cs ih =>
      rw [List.map_cons, List.map_cons, String.join_cons, ih, Piece.markup, ← verbatim_append,
        String.singleton_eq_ofList, ← String.ofList_append, List.singleton_append]

/-- What a listing becomes that is cut at its marks. -/
def markupOf (backend : Backend) (front : List Char) (parts : List (Mark bundle × List Char)) :
    String :=
  verbatim backend (String.ofList front) ++
    String.join (parts.map fun part =>
      markMarkup backend bundle part.1.ordinal ++ verbatim backend (String.ofList part.2))

/-- The pieces of a listing that is cut are written as its stretches and marks are. -/
theorem join_markup_piecesOf (backend : Backend) (front : List Char)
    (parts : List (Mark bundle × List Char)) :
    String.join ((piecesOf front parts).map (·.markup backend bundle)) =
      markupOf backend front parts := by
  rw [piecesOf, markupOf, List.map_append, String.join_append, join_markup_char]
  congr 1
  induction parts with
  | nil => rfl
  | cons part parts ih =>
      rw [List.flatMap_cons, List.map_append, String.join_append, ih, List.map_cons,
        String.join_cons, join_markup_char, List.map_cons, String.join_cons, Piece.markup]

/-- There is a mark among the pieces if and only if the cut has parts. -/
theorem any_isMark_piecesOf (front : List Char) (parts : List (Mark bundle × List Char)) :
    (piecesOf front parts).any Piece.isMark = !parts.isEmpty := by
  cases parts with
  | nil => simp [piecesOf, Piece.isMark]
  | cons part parts => simp [piecesOf, Piece.isMark]

/-- A listing without marks is left alone; any other is written stretch by stretch. -/
theorem annotate?_of_cut {text : String} {front : List Char}
    {parts : List (Mark bundle × List Char)}
    (same : pieces bundle text.toList = piecesOf front parts) (backend : Backend) :
    annotate? backend bundle text =
      if parts.isEmpty then none else some (markupOf backend front parts) := by
  simp [annotate?, same, any_isMark_piecesOf, join_markup_piecesOf]

/-- A cut has no parts if and only if no mark stands in the text. -/
theorem IsCut.isEmpty_iff {cs front : List Char} {parts : List (Mark bundle × List Char)}
    (cut : IsCut bundle cs front parts) : parts.isEmpty ↔ Unmarked bundle cs := by
  rw [cut.source_eq]
  cases parts with
  | nil => simpa [sourceOf] using cut.unmarked front List.mem_cons_self
  | cons part parts =>
      refine iff_of_false (by simp) fun unmarked => ?_
      exact unmarked front part.1 (part.2 ++ sourceOf parts) (by simp [sourceOf])

/-- **Annotating replaces all marks of a listing and nothing else.**  The listing is cut at all its
marks.  It is left alone in every format if it has none; otherwise the stretches are escaped and
the marks replaced, in their order. -/
theorem annotation_exact (bundle : Bundle) (text : String) :
    ∃ front parts, IsCut bundle text.toList front parts ∧ ∀ backend,
      (annotate? backend bundle text = none ↔ Unmarked bundle text.toList) ∧
        (¬ Unmarked bundle text.toList →
          annotate? backend bundle text = some (markupOf backend front parts)) := by
  obtain ⟨front, parts, cut, same⟩ := exists_cut bundle text.toList
  refine ⟨front, parts, cut, fun backend => ?_⟩
  rw [annotate?_of_cut same, ← cut.isEmpty_iff]
  constructor
  · split <;> simp_all
  · intro marked
    rw [if_neg marked]

end Rendition.Callout
