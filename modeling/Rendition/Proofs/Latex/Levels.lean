/-
# Rendition.Proofs.Latex.Levels -- the levels of an index entry

The argument of an index entry is read with a double quote and the character after it
as one token, and it is cut at the exclamation marks that no quote takes literally.  A
level is written in LaTeX first and then with its separators quoted, so that it has no
bare separator, whatever stands in it (`tokens_indexLevel`).

So a reader gets back the levels that were written (`readTerms_indexTerm`), and entries that
are written alike have the same terms, up to the white space around them
(`indexTerm_levels`).
-/
import Rendition.Proofs.Latex.Sealed

namespace Rendition

set_option autoImplicit false

open Rendition.Text

namespace Text

variable {mark separator : Char}

/-- What is joined with a bare separator is read part by part. -/
theorem tokens_intercalate (other : separator ≠ mark) {parts : List (List Char)}
    (whole : ∀ part ∈ parts, IsWhole mark part) :
    tokens mark ([separator].intercalate parts) =
      [Token.bare separator].intercalate (parts.map (tokens mark)) := by
  match parts with
  | [] => rfl
  | [part] => simp
  | part :: next :: rest =>
      rw [List.forall_mem_cons] at whole
      have others := tokens_intercalate other whole.2
      rw [List.intercalate_cons_cons, List.append_assoc, List.singleton_append,
        tokens_append whole.1, tokens_cons other, others]
      simp only [List.map_cons, List.intercalate_cons_cons, List.append_assoc,
        List.singleton_append]

theorem mem_intercalate {α : Type} {separator x : α} {parts : List (List α)}
    (inside : x ∈ [separator].intercalate parts) : x = separator ∨ ∃ part ∈ parts, x ∈ part := by
  match parts with
  | [] => exact absurd inside List.not_mem_nil
  | [part] => exact .inr ⟨part, List.mem_singleton_self part, by simpa using inside⟩
  | part :: next :: rest =>
      rw [List.intercalate_cons_cons, List.append_assoc, List.mem_append, List.mem_append,
        List.mem_singleton] at inside
      rcases inside with first | same | later
      · exact .inr ⟨part, List.mem_cons_self, first⟩
      · exact .inl same
      · rcases mem_intercalate later with same | ⟨other, listed, inside⟩
        · exact .inl same
        · exact .inr ⟨other, List.mem_cons_of_mem _ listed, inside⟩

end Text

namespace Latex

/-! ## Reading -/

/-- The argument of an index entry as its levels. -/
def levels (argument : String) : List (List Token) :=
  (tokens '\x22' argument.toList).splitOn (.bare '!')

/-- The text that a level stands for. -/
def levelText (level : List Token) : String := String.ofList (level.map Token.char)

/-! ## One level -/

/-- The token that stands for a character of a level. -/
def levelToken (c : Char) : Token := if c ∈ Escape.indexSeparators then .quoted c else .bare c

theorem char_levelToken (c : Char) : (levelToken c).char = c := by
  unfold levelToken
  split_ifs <;> rfl

/-- Every separator in a level is quoted. -/
theorem separator_notMem_levelTokens {c : Char} (separates : c ∈ Escape.indexSeparators)
    (cs : List Char) : .bare c ∉ cs.map levelToken := by
  rw [List.mem_map]
  rintro ⟨d, -, same⟩
  rw [levelToken] at same
  split_ifs at same with special
  obtain rfl := Token.bare.inj same
  exact special separates

/-- A level is read token by token, whatever quotes it needed. -/
theorem tokens_indexLevel (text : String) :
    tokens '\x22' (Escape.indexLevel text).toList = (Escape.latex text).toList.map levelToken := by
  rw [Escape.indexLevel, toList_substitute]
  induction (Escape.latex text).toList with
  | nil => rfl
  | cons c cs ih =>
      rw [List.flatMap_cons, List.map_cons, ← ih]
      by_cases special : c ∈ Escape.indexSeparators
      · have word : (Escape.indexQuote c).toList = ['\x22', c] := by
          simp only [Escape.indexSeparators, List.mem_cons, List.not_mem_nil, or_false] at special
          rcases special with rfl | rfl | rfl | rfl <;> decide
        rw [word, levelToken, if_pos special]
        exact tokens_mark ..
      · have plain : c ≠ '\x22' := by
          rintro rfl
          exact special (by decide)
        rw [Escape.indexQuote_of_notMem special, String.toList_singleton, levelToken,
          if_neg special]
        exact tokens_cons plain _

/-! ## The whole entry -/

theorem toList_entry (terms : List String) :
    (entry terms).toList =
      ['!'].intercalate (terms.map fun term => (Escape.indexLevel (trimmed term)).toList) := by
  have sign : "!".toList = ['!'] := by decide
  rw [entry, String.toList_intercalate, sign, List.map_map]
  rfl

theorem isWhole_indexLevel (text : String) :
    IsWhole '\x22' (Escape.indexLevel text).toList := by
  rw [IsWhole, tokens_indexLevel]
  exact separator_notMem_levelTokens (by decide) _

/-- Between the levels of an entry stand bare exclamation marks. -/
theorem tokens_entry (terms : List String) :
    tokens '\x22' (entry terms).toList =
      [Token.bare '!'].intercalate
        (terms.map fun term => (Escape.latex (trimmed term)).toList.map levelToken) := by
  have whole : ∀ part ∈ terms.map fun term => (Escape.indexLevel (trimmed term)).toList,
      IsWhole '\x22' part := by
    rw [List.forall_mem_map]
    exact fun term _ => isWhole_indexLevel (trimmed term)
  have other : '!' ≠ '\x22' := by decide
  rw [toList_entry, tokens_intercalate other whole, List.map_map]
  simp only [Function.comp_def, tokens_indexLevel]

/-- An entry is split where its terms were joined and nowhere else. -/
theorem levels_entry {terms : List String} (nonempty : terms ≠ []) :
    levels (entry terms) =
      terms.map fun term => (Escape.latex (trimmed term)).toList.map levelToken := by
  rw [levels, tokens_entry]
  refine List.splitOn_intercalate _ ?_ (by simpa using nonempty)
  rw [List.forall_mem_map]
  exact fun term _ => separator_notMem_levelTokens (by decide) _

/-- An entry has no bare separator but the exclamation marks between its levels. -/
theorem separator_notMem_entry {c : Char} (separates : c ∈ Escape.indexSeparators)
    (other : c ≠ '!') (terms : List String) : c ∉ bareChars '\x22' (entry terms).toList := by
  rw [mem_bareChars_iff, tokens_entry]
  intro inside
  rcases mem_intercalate inside with same | ⟨level, listed, inside⟩
  · exact other (Token.bare.inj same)
  · obtain ⟨term, -, rfl⟩ := List.mem_map.mp listed
    exact separator_notMem_levelTokens separates _ inside

theorem levelText_levelTokens (text : String) : levelText (text.toList.map levelToken) = text := by
  have characters : text.toList.map (Token.char ∘ levelToken) = text.toList :=
    (List.map_congr_left fun c _ => char_levelToken c).trans (List.map_id _)
  rw [levelText, List.map_map, characters, String.ofList_toList]

/-- The levels of an entry stand for its terms, trimmed and written in LaTeX. -/
theorem map_levelText_levels_entry {terms : List String} (nonempty : terms ≠ []) :
    (levels (entry terms)).map levelText = terms.map fun term => Escape.latex (trimmed term) := by
  rw [levels_entry nonempty, List.map_map]
  exact List.map_congr_left fun term _ => levelText_levelTokens _

/-- The whole entry is the argument of the command that is written. -/
theorem firstArgument?_indexTerm (first : String) (rest : List String) (after : String) :
    firstArgument? (indexTerm (first :: rest) ++ after) = some (entry (first :: rest), after) := by
  rw [indexTerm_cons]
  exact (isSealed_entry _).firstArgument?_call (by decide) after

/-- The texts of the levels of an entry; none if there is no entry. -/
def readTerms (markup : String) : List String :=
  ((firstArgument? markup).map fun found => (levels found.1).map levelText).getD []

/-- A reader gets back the terms, trimmed and written in LaTeX. -/
theorem readTerms_indexTerm (terms : List String) :
    readTerms (indexTerm terms) = terms.map fun term => Escape.latex (trimmed term) := by
  cases terms with
  | nil => rfl
  | cons first rest =>
      have read := firstArgument?_indexTerm first rest ""
      rw [String.append_empty] at read
      rw [readTerms, read, Option.map_some, Option.getD_some]
      exact map_levelText_levels_entry (List.cons_ne_nil first rest)

/-- **Index entries keep their terms apart.**  The marks of two lists of terms are the same exactly
if the lists are once every term is trimmed.  The argument of an entry is read whole, with a level
for each term and no bare separator in any of them. -/
theorem indexTerm_levels :
    (∀ terms others : List String,
      indexTerm terms = indexTerm others ↔ terms.map trimmed = others.map trimmed) ∧
      ∀ (first : String) (rest : List String), ∃ argument,
        indexTerm (first :: rest) = call "index" [argument] ∧
        (∀ after, firstArgument? (indexTerm (first :: rest) ++ after) = some (argument, after)) ∧
          (levels argument).length = (first :: rest).length ∧
          (levels argument).map levelText =
            (first :: rest).map (fun term => Escape.latex (trimmed term)) ∧
          '@' ∉ bareChars '\x22' argument.toList ∧ '|' ∉ bareChars '\x22' argument.toList := by
  have map_latex : ∀ terms : List String, (terms.map trimmed).map Escape.latex =
      terms.map fun term => Escape.latex (trimmed term) := fun _ => List.map_map
  refine ⟨fun terms others => ⟨fun same => ?_, fun same => ?_⟩, fun first rest => ?_⟩
  · have read := congrArg readTerms same
    rw [readTerms_indexTerm, readTerms_indexTerm, ← map_latex, ← map_latex] at read
    exact (List.map_inj_right fun _ _ alike => Escape.latex_injective alike).mp read
  · have written : ∀ terms : List String, indexTerm terms =
        if (terms.map trimmed).isEmpty then ""
        else call "index" ["!".intercalate ((terms.map trimmed).map Escape.indexLevel)] := by
      intro terms
      rw [indexTerm, List.isEmpty_map, List.map_map]
      rfl
    rw [written, written, same]
  · refine ⟨entry (first :: rest), indexTerm_cons first rest, firstArgument?_indexTerm first rest,
      ?_, ?_, ?_, ?_⟩
    · rw [levels_entry (by simp), List.length_map]
    · exact map_levelText_levels_entry (List.cons_ne_nil first rest)
    · exact separator_notMem_entry (by decide) (by decide) _
    · exact separator_notMem_entry (by decide) (by decide) _

end Latex

end Rendition
