/-
# Rendition.Proofs.Cell.Canonical -- what a cell can be read as

The nodes of a cell form layers: those of the cell itself, and those that stand
between the delimiters of a formatted text in some layer.  Every layer stands in the
source between what is written before it and what is written after it
(`Inline.Layer`).

No layer holds an empty text or two texts side by side, and every formatted text
keeps the constraints of its delimiters, not only in the text that it was read from
but in the whole cell (`canonical_of_layer`).  What a pair of delimiters encloses is read as
if nothing stood around it; what does stand around it there is its own delimiters, and
those are no characters of words (`exists_of_layer`).
-/
import Mathlib.Data.List.Chain
import Rendition.Proofs.Cell.Formatted

namespace Rendition

set_option autoImplicit false

/-! ## Layers -/

namespace Inline

def isText : Inline → Bool
  | .text .. => true
  | _ => false

/-- Nodes without empty texts, no two texts side by side. -/
structure IsMerged (nodes : List Inline) : Prop where
  texts : ∀ body span, .text body span ∈ nodes → body ≠ ""
  apart : nodes.IsChain fun left right => ¬ (left.isText ∧ right.isText)

/-- The layers of a sequence of nodes, each between what is written before and after it: the
sequence itself, and the content of each formatted text in a layer. -/
inductive Layer (nodes : List Inline) : List Char → List Inline → List Char → Prop where
  | whole : Layer nodes [] nodes []
  | content {front back : List Char} {before after content : List Inline} {style : Style}
      {span : Span} : Layer nodes front (before ++ .styled style content span :: after) back →
      Layer nodes (front ++ (writtenAll before ++ [style.delimiter])) content
        (style.delimiter :: (writtenAll after ++ back))

theorem writtenAll_append (nodes others : List Inline) :
    writtenAll (nodes ++ others) = writtenAll nodes ++ writtenAll others := by
  induction nodes with
  | nil => rfl
  | cons node nodes ih => rw [List.cons_append, writtenAll, writtenAll, ih, List.append_assoc]

/-- A formatted text among nodes is written between its two delimiters. -/
theorem writtenAll_pair (before after content : List Inline) (style : Style) (span : Span) :
    writtenAll (before ++ .styled style content span :: after) =
      writtenAll before ++ style.delimiter ::
        (writtenAll content ++ style.delimiter :: writtenAll after) := by
  rw [writtenAll_append, writtenAll, written]
  simp

end Inline

namespace Cell

open Rendition.Text Rendition.Inline

/-! ## Pairs of delimiters -/

/-- A formatted text as it stands in a source: its delimiters around a text that is not empty,
neither begins nor ends with a blank and does not begin with the delimiter, with no character of a
word on the outer side of either. -/
structure IsPair (source : List Char) (style : Style) (front inside back : List Char) : Prop where
  source_eq : source = front ++ style.delimiter :: (inside ++ style.delimiter :: back)
  solid : IsSolid inside
  opens : inside.head? ≠ some style.delimiter
  before : isWord front.getLast? = false
  after : isWord back.head? = false

/-- A closing delimiter follows no blank, and no character of a word follows it. -/
theorem closes_of_closing? {delimiter before : Char} {cs inside rest : List Char}
    (found : closing? delimiter before cs = some (inside, rest)) :
    (∀ c ∈ (before :: inside).getLast?, isBlank c = false) ∧ isWord rest.head? = false := by
  induction cs generalizing before inside with
  | nil => cases found
  | cons c cs ih =>
      rw [closing?] at found
      split at found
      · rename_i closes
        cases found
        refine ⟨?_, closes.2.2⟩
        rintro c ⟨⟩
        exact closes.2.1
      · obtain ⟨⟨inside, after⟩, further, same⟩ := Option.map_eq_some_iff.mp found
        cases same
        rw [List.getLast?_cons_cons]
        exact ih further

/-- What is read as a pair keeps the constraints, as far as the text that it is read from shows. -/
theorem constrained_of_readPair? {before : Option Char} {cs inside rest : List Char} {style : Style}
    (found : readPair? before cs = some (style, inside, rest)) :
    IsSolid inside ∧ inside.head? ≠ some style.delimiter ∧ isWord before = false ∧
      isWord rest.head? = false := by
  unfold readPair? at found
  split at found
  · obtain ⟨style, known, found⟩ := Option.bind_eq_some_iff.mp found
    split at found
    · cases found
    · rename_i fits
      obtain ⟨⟨inside, after⟩, closed, same⟩ := Option.bind_eq_some_iff.mp found
      cases same
      obtain rfl := delimiter_of_ofDelimiter? known
      obtain ⟨outside, fits⟩ := not_or.mp fits
      obtain ⟨solid, other⟩ := not_or.mp fits
      obtain ⟨last, after⟩ := closes_of_closing? closed
      refine ⟨⟨List.cons_ne_nil _ _, ?_, last⟩, ?_, Bool.eq_false_iff.mpr outside, after⟩
      · rintro c ⟨⟩
        exact Bool.eq_false_iff.mpr solid
      · rw [List.head?_cons, Ne, Option.some.injEq]
        exact other
  · cases found

/-! ## One layer -/

theorem isMerged_prependChar (c : Char) {nodes : List Inline} (merged : IsMerged nodes) :
    IsMerged (prependChar c nodes) := by
  unfold prependChar
  split
  · rename_i body span rest
    refine ⟨fun other place inside => ?_, ?_⟩
    · rcases List.mem_cons.mp inside with same | inside
      · cases same
        simp
      · exact merged.texts other place (List.mem_cons_of_mem _ inside)
    · have apart := merged.apart
      rw [List.isChain_cons] at apart ⊢
      exact apart
  · rename_i foreign
    refine ⟨fun other place inside => ?_, ?_⟩
    · rcases List.mem_cons.mp inside with same | inside
      · cases same
        simp
      · exact merged.texts other place inside
    · rw [List.isChain_cons]
      refine ⟨fun node first both => ?_, merged.apart⟩
      obtain ⟨rest, rfl⟩ := List.head?_eq_some_iff.mp first
      cases node with
      | text body span => exact foreign body span rest rfl
      | _ => exact absurd both.2 (by simp [isText])

/-- The reader merges the characters of a text as it goes. -/
theorem isMerged_parseFrom (before : Option Char) (cs : List Char) :
    IsMerged (parseFrom before cs) := by
  fun_induction parseFrom before cs with
  | case1 before cs style inside rest found _ ih =>
      refine ⟨fun body span member => ?_, List.isChain_cons.mpr ⟨fun _ _ both => ?_, ih.apart⟩⟩
      · rcases List.mem_cons.mp member with same | member
        · cases same
        · exact ih.texts body span member
      · exact absurd both.1 (by simp [isText, ofStyled])
  | case2 => exact ⟨fun _ _ inside => absurd inside List.not_mem_nil, .nil⟩
  | case3 before c rest _ ih => exact isMerged_prependChar c ih

/-- A character in front of nodes makes no formatted text: each stands there without it. -/
theorem exists_of_prependChar_eq {c : Char} {nodes before after content : List Inline}
    {style : Style} {span : Span}
    (same : prependChar c nodes = before ++ .styled style content span :: after) :
    ∃ others, nodes = others ++ .styled style content span :: after ∧
      writtenAll before = c :: writtenAll others := by
  unfold prependChar at same
  cases before with
  | nil => split at same <;> cases same
  | cons node before =>
      split at same
      · rename_i body place rest
        obtain ⟨rfl, rfl⟩ := List.cons.inj same
        exact ⟨.text body place :: before, rfl, by simp [writtenAll, written]⟩
      · obtain ⟨rfl, rfl⟩ := List.cons.inj same
        exact ⟨before, rfl, by simp [writtenAll, written, ofText]⟩

/-- A formatted text among the nodes of a text was read from a text of its own, and keeps the
constraints as far as the text and the character before it show. -/
theorem exists_of_parseFrom_eq {last : Option Char} {cs : List Char}
    {before after content : List Inline} {style : Style} {span : Span}
    (same : parseFrom last cs = before ++ .styled style content span :: after) :
    ∃ inside, content = parseFrom none inside ∧ IsSolid inside ∧
      inside.head? ≠ some style.delimiter ∧
      isWord ((writtenAll before).getLast?.or last) = false ∧
      isWord (writtenAll after).head? = false := by
  fun_induction parseFrom last cs generalizing before with
  | case1 last cs other inside rest found _ ih =>
      cases before with
      | nil =>
          obtain ⟨solid, opens, outside, after⟩ := constrained_of_readPair? found
          cases same
          exact ⟨inside, rfl, solid, opens, outside, by rwa [(parseFrom_written _ rest).2]⟩
      | cons node before =>
          rw [List.cons_append, List.cons.injEq] at same
          obtain ⟨rfl, same⟩ := same
          -- what is written up to here ends with the delimiter of the pair, or after it
          simpa [writtenAll, written, ofStyled, List.getLast?_append, List.getLast?_cons] using
            ih same
  | case2 => simp at same
  | case3 last c rest _ ih =>
      obtain ⟨others, same, written⟩ := exists_of_prependChar_eq same
      simpa [written, List.getLast?_cons] using ih same

/-! ## All layers -/

/-- A layer is what the text between its two sides is read as, and no character of a word stands on
either side. -/
theorem exists_of_layer {text : String} {front back : List Char} {nodes : List Inline}
    (layer : Layer (parse text) front nodes back) :
    ∃ cs, nodes = parseFrom none cs ∧ text.toList = front ++ (cs ++ back) ∧
      isWord front.getLast? = false ∧ isWord back.head? = false := by
  induction layer with
  | whole => exact ⟨text.toList, rfl, by simp, rfl, rfl⟩
  | @content front back before after content style span _ ih =>
      obtain ⟨cs, same, source, -, -⟩ := ih
      obtain ⟨inside, rfl, -⟩ := exists_of_parseFrom_eq same.symm
      refine ⟨inside, rfl, ?_, ?_, ?_⟩
      · rw [source, ← (parseFrom_written none cs).2, ← same, writtenAll_pair,
          (parseFrom_written none inside).2]
        simp
      · rw [← List.append_assoc, List.getLast?_concat]
        exact isWordChar_delimiter style
      · rw [List.head?_cons]
        exact isWordChar_delimiter style

/-- **A cell is read as canonical content.**  Every layer is written in the cell where it stands and
holds text and formatted texts alone, so that every node of the cell is in a layer; no text in it is
empty, no text follows another, and every formatted text has content and stands in the cell as a
pair of delimiters that keeps the constraints. -/
theorem canonical_of_layer {text : String} {front back : List Char} {nodes : List Inline}
    (layer : Layer (parse text) front nodes back) :
    text.toList = front ++ (writtenAll nodes ++ back) ∧ isFormattedAll nodes ∧ IsMerged nodes ∧
      ∀ before style content span after, nodes = before ++ .styled style content span :: after →
        content ≠ [] ∧
          IsPair text.toList style (front ++ writtenAll before) (writtenAll content)
            (writtenAll after ++ back) := by
  obtain ⟨cs, rfl, source, outside, outside'⟩ := exists_of_layer layer
  obtain ⟨formatted, rewritten⟩ := parseFrom_written none cs
  refine ⟨by rw [rewritten, source], formatted, isMerged_parseFrom none cs, ?_⟩
  intro before style content span after same
  obtain ⟨inside, rfl, solid, opens, left, right⟩ := exists_of_parseFrom_eq same
  rw [(parseFrom_written none inside).2]
  refine ⟨fun empty => solid.nonempty ?_, ?_, solid, opens, ?_, ?_⟩
  · rw [← (parseFrom_written none inside).2, empty, writtenAll]
  · rw [source, ← rewritten, same, writtenAll_pair, (parseFrom_written none inside).2]
    simp
  · rw [List.getLast?_append]
    cases last : (writtenAll before).getLast? with
    | none => simpa using outside
    | some c => simpa [last] using left
  · rw [List.head?_append]
    cases first : (writtenAll after).head? with
    | none => simpa using outside'
    | some c => simpa [first] using right

namespace Example

/-- The content of a strong text, and an emphasis that stands in it. -/
theorem nested_canonical :
    Layer (parse "a *_b_ c*") ['a', ' ', '*'] [.ofStyled .emphasis [.ofText "b"], .ofText " c"]
        ['*'] ∧
      IsPair "a *_b_ c*".toList .emphasis ['a', ' ', '*'] ['b'] [' ', 'c', '*'] := by
  have strong : readPair? (some ' ') ['*', '_', 'b', '_', ' ', 'c', '*'] =
      some (.strong, ['_', 'b', '_', ' ', 'c'], []) := by decide
  have emphasis : readPair? none ['_', 'b', '_', ' ', 'c'] =
      some (.emphasis, ['b'], [' ', 'c']) := by decide
  have read : parse "a *_b_ c*" =
      [.ofText "a "] ++
        .styled .strong [.ofStyled .emphasis [.ofText "b"], .ofText " c"] .unknown :: [] := by
    show parseFrom none ['a', ' ', '*', '_', 'b', '_', ' ', 'c', '*'] = _
    rw [parseFrom_char rfl, parseFrom_char rfl, parseFrom_pair strong, parseFrom_pair emphasis,
      parseFrom_char rfl, parseFrom_char rfl, parseFrom_char rfl]
    simp [parseFrom_nil, prependChar, ofText, ofStyled]
  have top : Layer (parse "a *_b_ c*") []
      ([.ofText "a "] ++
        .styled .strong [.ofStyled .emphasis [.ofText "b"], .ofText " c"] .unknown :: []) [] :=
    read ▸ .whole
  have layer : Layer (parse "a *_b_ c*") ['a', ' ', '*']
      [.ofStyled .emphasis [.ofText "b"], .ofText " c"] ['*'] := by
    simpa [writtenAll, written, ofText, Style.delimiter] using top.content
  obtain ⟨-, -, -, pairs⟩ := canonical_of_layer layer
  obtain ⟨-, pair⟩ := pairs [] .emphasis [.ofText "b"] .unknown [.ofText " c"] rfl
  exact ⟨layer, by simpa [writtenAll, written, ofText] using pair⟩

end Example

end Cell

end Rendition
