/-
# Rendition.Proofs.Cell.Formatted -- formatted text is read as it was meant

The canonical way to format text in a cell: words, and formatted texts between the
delimiters of a style, with single spaces between them.  Such an `Item` is canonical
if its words are made of letters and numerals and no formatted text holds its own
delimiter again.

Its spelling is read as its tree (`parse_spelling`).  The first delimiter that closes
a pair is the one that was written to close it, since none stands before it
(`closing?_append`); it follows no blank and is followed by a space or by nothing,
because texts neither begin nor end with a space.  Words and spaces begin no pair, so
neighbouring ones become one text.
-/
import Mathlib.Data.List.Basic
import Rendition.Proofs.Cell.Source
import Rendition.Proofs.Text.Blank

namespace Rendition.Cell

set_option autoImplicit false

open Rendition.Text

/-! ## Formatted text -/

/-- A word, or a formatted text: its first item, and the others, each after a space. -/
inductive Item where
  | word (letters : List Char)
  | pair (style : Style) (first : Item) (others : List Item)

namespace Item

mutual

def spelling : Item → List Char
  | .word letters => letters
  | .pair style first others =>
      style.delimiter :: (first.spelling ++ spellingAfter others ++ [style.delimiter])

/-- Items as they are written after another, each after a space. -/
def spellingAfter : List Item → List Char
  | [] => []
  | item :: rest => ' ' :: (item.spelling ++ spellingAfter rest)

end

mutual

/-- Whether the words of an item are words, and no formatted text in it holds its own delimiter. -/
def isCanonical : Item → Bool
  | .word letters => !letters.isEmpty && letters.all isWordChar
  | .pair style first others =>
      first.isCanonical && areCanonical others &&
        !(first.spelling ++ spellingAfter others).contains style.delimiter

def areCanonical : List Item → Bool
  | [] => true
  | item :: rest => item.isCanonical && areCanonical rest

end

end Item

/-- A node in front of others; two texts that meet become one. -/
def joinText : Inline → List Inline → List Inline
  | .text body _, .text more span :: rest => .text (body ++ more) span :: rest
  | node, rest => node :: rest

/-- Nodes in which no text follows another: neighbouring texts are joined. -/
def joinTexts (nodes : List Inline) : List Inline := nodes.foldr joinText []

namespace Item

mutual

/-- The node of an item: a text, or the node of its style around the nodes of what it holds. -/
def node : Item → Inline
  | .word letters => .ofText (String.ofList letters)
  | .pair style first others => .ofStyled style (joinTexts (first.node :: nodesAfter others))

/-- The nodes of items after another, each after a space. -/
def nodesAfter : List Item → List Inline
  | [] => []
  | item :: rest => .ofText " " :: item.node :: nodesAfter rest

end

end Item

/-! ## Characters -/

theorem isWordChar_delimiter (style : Style) : isWordChar style.delimiter = false := by
  cases style <;> decide

theorem isBlank_delimiter (style : Style) : isBlank style.delimiter = false := by
  cases style <;> decide

theorem ofDelimiter?_delimiter (style : Style) :
    Style.ofDelimiter? style.delimiter = some style := by
  cases style <;> rfl

/-- No letter or numeral is a delimiter. -/
theorem ofDelimiter?_of_isWordChar {c : Char} (word : isWordChar c) :
    Style.ofDelimiter? c = none := by
  cases known : Style.ofDelimiter? c with
  | none => rfl
  | some style =>
      obtain rfl := delimiter_of_ofDelimiter? known
      exact absurd word (by simp [isWordChar_delimiter])

/-! ## Reading -/

theorem parseFrom_nil (before : Option Char) : parseFrom before [] = [] := by
  rw [parseFrom]
  rfl

theorem parseFrom_pair {before : Option Char} {cs inside rest : List Char} {style : Style}
    (found : readPair? before cs = some (style, inside, rest)) :
    parseFrom before cs =
      .ofStyled style (parseFrom none inside) :: parseFrom (some style.delimiter) rest := by
  rw [parseFrom]
  split <;> simp_all

/-- A character that is no delimiter is text. -/
theorem parseFrom_char {c : Char} (plain : Style.ofDelimiter? c = none) (before : Option Char)
    (cs : List Char) : parseFrom before (c :: cs) = prependChar c (parseFrom (some c) cs) := by
  have unpaired : readPair? before (c :: cs) = none := by
    unfold readPair?
    split
    · rename_i same
      cases same
      rw [plain]
      rfl
    · rfl
  rw [parseFrom]
  split <;> simp_all

/-- The first delimiter that closes a pair is the first there is, if it follows no blank and is
followed by no character of a word. -/
theorem closing?_append {delimiter before : Char} {inside rest : List Char}
    (absent : delimiter ∉ inside)
    (solid : ∀ c ∈ (before :: inside).getLast?, isBlank c = false)
    (outside : isWord rest.head? = false) :
    closing? delimiter before (inside ++ delimiter :: rest) = some (inside, rest) := by
  induction inside generalizing before with
  | nil =>
      rw [List.nil_append, closing?, if_pos ⟨rfl, solid before rfl, outside⟩]
  | cons c inside ih =>
      have other : c ≠ delimiter := fun same => absent (same ▸ List.mem_cons_self)
      have found := ih (List.not_mem_of_not_mem_cons absent)
        (by rwa [List.getLast?_cons_cons] at solid)
      rw [List.cons_append, closing?, if_neg fun closes => other closes.1, found]
      rfl

/-- A text that is not empty and neither begins nor ends with a blank. -/
structure IsSolid (cs : List Char) : Prop where
  nonempty : cs ≠ []
  first : ∀ c ∈ cs.head?, isBlank c = false
  last : ∀ c ∈ cs.getLast?, isBlank c = false

theorem IsSolid.append {front back : List Char} (left : IsSolid front) (right : IsSolid back)
    (middle : List Char) : IsSolid (front ++ (middle ++ back)) where
  nonempty := List.append_ne_nil_of_left_ne_nil left.nonempty _
  first c inside := left.first c (by rwa [List.head?_append_of_ne_nil _ left.nonempty] at inside)
  last c inside := by
    rw [← List.append_assoc, List.getLast?_append_of_ne_nil _ right.nonempty] at inside
    exact right.last c inside

/-- A pair of delimiters is read around a text that may stand between them. -/
theorem readPair?_append {before : Option Char} {style : Style} {inside rest : List Char}
    (outside : isWord before = false) (absent : style.delimiter ∉ inside) (solid : IsSolid inside)
    (after : isWord rest.head? = false) :
    readPair? before (style.delimiter :: (inside ++ style.delimiter :: rest)) =
      some (style, inside, rest) := by
  cases inside with
  | nil => exact absurd rfl solid.nonempty
  | cons c inside =>
      have other : c ≠ style.delimiter := fun same => absent (same ▸ List.mem_cons_self)
      have closed := closing?_append (List.not_mem_of_not_mem_cons absent) solid.last after
      rw [List.cons_append, readPair?, ofDelimiter?_delimiter]
      simp [outside, solid.first c rfl, other, closed]

/-! ## Spellings -/

namespace Item

/-- An item begins with a delimiter or with the first character of a word, and ends likewise. -/
theorem isSolid_spelling {item : Item} (canonical : item.isCanonical) : IsSolid item.spelling := by
  cases item with
  | word letters =>
      rw [isCanonical, Bool.and_eq_true, List.all_eq_true] at canonical
      obtain ⟨nonempty, word⟩ := canonical
      refine ⟨by simpa [spelling] using nonempty, fun c inside => ?_, fun c inside => ?_⟩
      · exact not_isBlank_of_isWordChar (word c (List.mem_of_mem_head? inside))
      · exact not_isBlank_of_isWordChar (word c (List.mem_of_mem_getLast? inside))
  | pair style first others =>
      have delimited : IsSolid [style.delimiter] := by
        refine ⟨List.cons_ne_nil _ _, ?_, ?_⟩
        · rintro c ⟨⟩
          exact isBlank_delimiter style
        · rintro c ⟨⟩
          exact isBlank_delimiter style
      exact delimited.append delimited (first.spelling ++ spellingAfter others)

theorem isSolid_spelling_append {first : Item} {others : List Item} (canonical : first.isCanonical)
    (canonical' : areCanonical others) : IsSolid (first.spelling ++ spellingAfter others) := by
  induction others generalizing first with
  | nil =>
      rw [spellingAfter, List.append_nil]
      exact isSolid_spelling canonical
  | cons next others ih =>
      rw [areCanonical, Bool.and_eq_true] at canonical'
      exact (isSolid_spelling canonical).append (ih canonical'.1 canonical'.2) [' ']

/-- After an item there is a space or nothing, and so no word character. -/
theorem isWord_head?_spellingAfter (items : List Item) :
    isWord (spellingAfter items).head? = false := by
  cases items with
  | nil => rfl
  | cons item rest =>
      rw [spellingAfter, List.head?_cons]
      decide

end Item

/-! ## Texts that are joined -/

/-- One more character in front is one more text in front, joined with the next. -/
theorem prependChar_eq (c : Char) (nodes : List Inline) :
    prependChar c nodes = joinText (.ofText (String.singleton c)) nodes := by
  match nodes with
  | [] => rfl
  | node :: rest => cases node <;> rfl

/-- A character joins the text behind it, whatever that is joined with. -/
theorem prependChar_joinText (c : Char) (body : String) (nodes : List Inline) :
    prependChar c (joinText (.ofText body) nodes) =
      joinText (.ofText (String.singleton c ++ body)) nodes := by
  match nodes with
  | [] => rfl
  | .text more span :: rest =>
      show Inline.text (String.singleton c ++ (body ++ more)) span :: rest = _
      rw [← String.append_assoc]
      rfl
  | .styled .. :: _ | .link .. :: _ | .crossReference .. :: _ | .math .. :: _
  | .passthrough .. :: _ | .command .. :: _ | .footnote .. :: _ | .indexTerm .. :: _ => rfl

/-- A word is text. -/
theorem parseFrom_word {letters : List Char} (nonempty : letters ≠ [])
    (word : ∀ c ∈ letters, isWordChar c) (before : Option Char) (rest : List Char) :
    ∃ last, parseFrom before (letters ++ rest) =
      joinText (.ofText (String.ofList letters)) (parseFrom (some last) rest) := by
  induction letters generalizing before with
  | nil => exact absurd rfl nonempty
  | cons c letters ih =>
      obtain ⟨first, others⟩ := List.forall_mem_cons.mp word
      rw [List.cons_append, parseFrom_char (ofDelimiter?_of_isWordChar first)]
      cases letters with
      | nil => exact ⟨c, prependChar_eq c _⟩
      | cons d letters =>
          obtain ⟨last, same⟩ := ih (List.cons_ne_nil d letters) others (some c)
          refine ⟨last, ?_⟩
          rw [same, prependChar_joinText, String.singleton_eq_ofList, ← String.ofList_append,
            List.singleton_append]

/-! ## Formatted text is read -/

mutual

/-- An item after no character of a word and before none is read as its node. -/
theorem parseFrom_spelling (item : Item) (canonical : item.isCanonical) (before : Option Char)
    (outside : isWord before = false) {rest : List Char} (after : isWord rest.head? = false) :
    ∃ last, parseFrom before (item.spelling ++ rest) =
      joinText item.node (parseFrom (some last) rest) := by
  match item with
  | .word letters =>
      rw [Item.isCanonical, Bool.and_eq_true, List.all_eq_true] at canonical
      exact parseFrom_word (by simpa using canonical.1) canonical.2 before rest
  | .pair style first others =>
      simp only [Item.isCanonical, Bool.and_eq_true, Bool.not_eq_true', List.contains_eq_mem,
        decide_eq_false_iff_not] at canonical
      obtain ⟨⟨canonical, canonical'⟩, absent⟩ := canonical
      have found := readPair?_append outside absent
        (Item.isSolid_spelling_append canonical canonical') after
      obtain ⟨last, inner⟩ := parseFrom_spelling first canonical none rfl
        (Item.isWord_head?_spellingAfter others)
      refine ⟨style.delimiter, ?_⟩
      rw [Item.spelling, List.cons_append, List.append_assoc, List.singleton_append,
        parseFrom_pair found, inner, parseFrom_spellingAfter others canonical' last]
      rfl

/-- Items that follow another are read as their nodes. -/
theorem parseFrom_spellingAfter (items : List Item) (canonical : Item.areCanonical items)
    (last : Char) :
    parseFrom (some last) (Item.spellingAfter items) = joinTexts (Item.nodesAfter items) := by
  match items with
  | [] => exact parseFrom_nil _
  | item :: rest =>
      rw [Item.areCanonical, Bool.and_eq_true] at canonical
      obtain ⟨letter, own⟩ := parseFrom_spelling item canonical.1 (some ' ') (by decide)
        (Item.isWord_head?_spellingAfter rest)
      rw [Item.spellingAfter, parseFrom_char rfl, own,
        parseFrom_spellingAfter rest canonical.2 letter, prependChar_eq]
      rfl

end

/-- **Formatted text is read as it was meant.**  A text of words and formatted texts with single
spaces between them, to any depth, no formatted text in it holding its own delimiter, is read as
the nodes of its items, neighbouring words and spaces joined. -/
theorem parse_spelling {first : Item} {others : List Item}
    (canonical : Item.areCanonical (first :: others)) :
    parse (String.ofList (first.spelling ++ Item.spellingAfter others)) =
      joinTexts (first.node :: Item.nodesAfter others) := by
  rw [Item.areCanonical, Bool.and_eq_true] at canonical
  obtain ⟨last, own⟩ := parseFrom_spelling first canonical.1 none rfl
    (Item.isWord_head?_spellingAfter others)
  rw [parse, String.toList_ofList, own, parseFrom_spellingAfter others canonical.2 last]
  rfl

namespace Example

/-- A strong text of a word and two formatted texts. -/
def nested : Item :=
  .pair .strong (.word ['b'])
    [.pair .emphasis (.word ['c']) [.word ['d']], .pair .monospace (.word ['e']) []]

theorem nested_read :
    Item.areCanonical [.word ['a'], nested, .word ['1', 'é']] ∧
      parse "a *b _c d_ \x60e\x60* 1é" =
        [.ofText "a ",
          .ofStyled .strong
            [.ofText "b ", .ofStyled .emphasis [.ofText "c d"], .ofText " ",
              .ofStyled .monospace [.ofText "e"]],
          .ofText " 1é"] := by
  have canonical : Item.areCanonical [.word ['a'], nested, .word ['1', 'é']] := by decide
  have read := parse_spelling canonical
  refine ⟨canonical, ?_⟩
  simpa [nested, Item.spelling, Item.spellingAfter, Style.delimiter, Item.node, Item.nodesAfter,
    joinTexts, joinText, Inline.ofText, Inline.ofStyled] using read

end Example

end Rendition.Cell
