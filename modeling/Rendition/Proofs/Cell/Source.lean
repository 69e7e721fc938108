/-
# Rendition.Proofs.Cell.Source -- a table cell is written back as it was

What a cell is read as is text and formatted content, to any depth, and nothing else.
Written back, a text is itself and formatted content stands between its delimiters;
what comes out is the cell, character by character (`parse_written`).

A pair of delimiters is read only where it stands (`readPair?_eq_some`): nothing is
passed over in front of it, between its delimiters or behind it.
-/
import Rendition.Cell.Parse

namespace Rendition

set_option autoImplicit false

/-! ## Writing back -/

namespace Inline

mutual

/-- Whether a node is text or formatted content of such nodes. -/
def isFormatted : Inline → Bool
  | .text _ _ => true
  | .styled _ content _ => isFormattedAll content
  | .link _ _ _ | .crossReference _ _ _ | .math _ _ _ | .passthrough _ _ | .command _ _
  | .footnote _ _ _ _ | .indexTerm _ _ _ => false

def isFormattedAll : List Inline → Bool
  | [] => true
  | node :: rest => node.isFormatted && isFormattedAll rest

end

mutual

/-- A node as it is written in a cell; what cannot be written there is left out. -/
def written : Inline → List Char
  | .text body _ => body.toList
  | .styled style content _ => style.delimiter :: (writtenAll content ++ [style.delimiter])
  | .link _ _ _ | .crossReference _ _ _ | .math _ _ _ | .passthrough _ _ | .command _ _
  | .footnote _ _ _ _ | .indexTerm _ _ _ => []

def writtenAll : List Inline → List Char
  | [] => []
  | node :: rest => node.written ++ writtenAll rest

end

end Inline

namespace Cell

/-! ## Pairs of delimiters -/

theorem delimiter_of_ofDelimiter? {c : Char} {style : Style}
    (known : Style.ofDelimiter? c = some style) : style.delimiter = c := by
  rw [Style.ofDelimiter?] at known
  simpa using List.find?_some known

/-- The text goes on with the closing delimiter after what stands before it. -/
theorem closing?_eq_some {delimiter before : Char} {cs inside rest : List Char}
    (found : closing? delimiter before cs = some (inside, rest)) :
    cs = inside ++ delimiter :: rest := by
  induction cs generalizing before inside with
  | nil => cases found
  | cons c cs ih =>
      rw [closing?] at found
      split at found
      · rename_i closes
        cases found
        rw [closes.1, List.nil_append]
      · obtain ⟨⟨inside, after⟩, further, same⟩ := Option.map_eq_some_iff.mp found
        cases same
        rw [ih further, List.cons_append]

/-- A text that begins with a pair of delimiters. -/
theorem readPair?_eq_some {before : Option Char} {cs inside rest : List Char} {style : Style}
    (found : readPair? before cs = some (style, inside, rest)) :
    cs = style.delimiter :: (inside ++ style.delimiter :: rest) := by
  unfold readPair? at found
  split at found
  · obtain ⟨style, known, found⟩ := Option.bind_eq_some_iff.mp found
    split at found
    · cases found
    · obtain ⟨⟨inside, after⟩, closed, same⟩ := Option.bind_eq_some_iff.mp found
      cases same
      obtain rfl := delimiter_of_ofDelimiter? known
      rw [closing?_eq_some closed, List.cons_append]
  · cases found

/-! ## The round trip -/

/-- One more character in front of the nodes is written in front of them. -/
theorem written_prependChar (c : Char) (nodes : List Inline) :
    Inline.writtenAll (prependChar c nodes) = c :: Inline.writtenAll nodes := by
  unfold prependChar
  split
  · simp [Inline.writtenAll, Inline.written]
  · simp [Inline.writtenAll, Inline.written, Inline.ofText]

theorem isFormatted_prependChar (c : Char) {nodes : List Inline}
    (formatted : Inline.isFormattedAll nodes) : Inline.isFormattedAll (prependChar c nodes) := by
  unfold prependChar
  split
  · exact formatted
  · exact formatted

/-- What is left of a cell after any character is written back as it was. -/
theorem parseFrom_written (before : Option Char) (cs : List Char) :
    Inline.isFormattedAll (parseFrom before cs) ∧
      Inline.writtenAll (parseFrom before cs) = cs := by
  fun_induction parseFrom before cs with
  | case1 before cs style inside rest found inner outer =>
      refine ⟨(Bool.and_eq_true ..).mpr ⟨inner.1, outer.1⟩, ?_⟩
      rw [readPair?_eq_some found, Inline.writtenAll, Inline.ofStyled, Inline.written, inner.2,
        outer.2]
      simp
  | case2 => exact ⟨rfl, rfl⟩
  | case3 before c rest found ih =>
      exact ⟨isFormatted_prependChar c ih.1, by rw [written_prependChar, ih.2]⟩

/-- **A cell is written back as it was.**  It is read as text and formatted content alone, to any
depth, and no character of it is lost, doubled or moved. -/
theorem parse_written (text : String) :
    Inline.isFormattedAll (parse text) ∧ Inline.writtenAll (parse text) = text.toList :=
  parseFrom_written none text.toList

end Cell

end Rendition
