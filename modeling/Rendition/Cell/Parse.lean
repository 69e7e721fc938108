/-
# Rendition.Cell.Parse -- formatted text in table cells

Six characters delimit formatted text.  An opening delimiter does not follow a
word character and is not followed by a blank or by itself; a closing delimiter
does not follow a blank and is not followed by a word character.  The first
closing delimiter that fits ends the pair; what stands between is read on its
own, as if nothing stood around it.  All other characters are text, and
neighbouring characters form one text node.
-/
import Rendition.Text.Blank
import Rendition.Text.Numeral
import Rendition.Tree.Inline

namespace Rendition

set_option autoImplicit false
set_option linter.unusedVariables false

def Style.delimiter : Style → Char
  | .strong => '*'
  | .emphasis => '_'
  | .monospace => '\x60'
  | .mark => '#'
  | .superscript => '^'
  | .subscript => '~'

def Style.ofDelimiter? (c : Char) : Option Style := all.find? fun style => style.delimiter == c

namespace Cell

open Rendition.Text

/-- Whether there is a word character. -/
def isWord (c : Option Char) : Bool := c.any isWordChar

/-- The text before the first closing delimiter that fits, and the text after it; `before` is the
character before the given text. -/
def closing? (delimiter before : Char) : List Char → Option (List Char × List Char)
  | [] => none
  | c :: cs =>
      if c = delimiter ∧ isBlank before = false ∧ isWord cs.head? = false then some ([], cs)
      else (closing? delimiter c cs).map fun (inside, rest) => (c :: inside, rest)

/-- A kind of formatted text at the start of a text, what stands between its delimiters, and the
text after it; `before` is the character before the given text. -/
def readPair? (before : Option Char) : List Char → Option (Style × List Char × List Char)
  | delimiter :: first :: cs => do
      let style ← Style.ofDelimiter? delimiter
      if isWord before ∨ isBlank first ∨ first = delimiter then none
      else
        let (inside, rest) ← closing? delimiter first cs
        return (style, first :: inside, rest)
  | _ => none

theorem length_of_closing? {delimiter before : Char} {cs inside rest : List Char}
    (found : closing? delimiter before cs = some (inside, rest)) :
    inside.length + rest.length < cs.length := by
  induction cs generalizing before inside with
  | nil => simp [closing?] at found
  | cons c cs ih =>
      simp only [closing?] at found
      split at found
      · cases found; simp
      · simp only [Option.map_eq_some_iff, Prod.mk.injEq, Prod.exists] at found
        obtain ⟨_, _, found, rfl, rfl⟩ := found
        have shorter := ih found
        simp only [List.length_cons]; omega

/-- Both the content of a pair and what follows it are shorter: reading a cell ends. -/
theorem length_of_readPair? {before : Option Char} {cs inside rest : List Char} {style : Style}
    (found : readPair? before cs = some (style, inside, rest)) :
    inside.length + rest.length < cs.length := by
  unfold readPair? at found
  split at found
  · simp only [Option.bind_eq_bind, Option.bind_eq_some_iff] at found
    obtain ⟨_, _, found⟩ := found
    split at found
    · simp at found
    · simp only [Option.bind_eq_some_iff, Prod.exists] at found
      obtain ⟨_, _, closed, same⟩ := found
      cases same
      have shorter := length_of_closing? closed
      simp only [List.length_cons]; omega
  · simp at found

def prependChar (c : Char) : List Inline → List Inline
  | .text body span :: rest => .text (String.singleton c ++ body) span :: rest
  | nodes => .ofText (String.singleton c) :: nodes

/-- The nodes of a text; `before` is the character before it. -/
def parseFrom (before : Option Char) (cs : List Char) : List Inline :=
  match found : readPair? before cs with
  | some (style, inside, rest) =>
      .ofStyled style (parseFrom none inside) :: parseFrom (some style.delimiter) rest
  | none =>
      match cs with
      | [] => []
      | c :: rest => prependChar c (parseFrom (some c) rest)
termination_by cs.length
decreasing_by
  · have shorter := length_of_readPair? found
    omega
  · have shorter := length_of_readPair? found
    omega
  · simp

def parse (text : String) : List Inline := parseFrom none text.toList

end Cell

end Rendition
