/-
# Rendition.Footnote.Resolve -- numbering of footnotes

Footnotes are numbered from one in reading order; the footnotes inside a
footnote come before it.  A footnote without a key is always a new one.  The
first mention of a key takes a number and its content as the definition; a later
mention takes the number of the first.  A later mention with content becomes the
definition if there was none yet (the first was a forward reference), and
otherwise keeps no content.

The `Ledger` is what has been numbered so far: a counter for the next number, the
numbers of the keys, and the definitions with an index that says where the
definition of a number stands.  That the counter, the index and the definitions
agree is an invariant of the pass (`Rendition.Proofs.Footnote.Dense`).  Nodes and
definitions show a number in 32 bits.  The counter is a natural number: as long as
all numbers fit in 32 bits it is the number that is shown.
-/
import Rendition.Tree.Passages

namespace Rendition.Footnote

set_option autoImplicit false

/-- A footnote's number and its content. -/
structure Definition where
  id : UInt32
  content : List Inline

/-- The state of a numbering pass.  Lists of pairs are maps: the first pair of a key counts. -/
structure Ledger where
  next : Nat
  numbers : List (String × Nat)
  places : List (Nat × Nat)
  definitions : List Definition

namespace Ledger

def empty : Ledger := ⟨1, [], [], []⟩

def number? (ledger : Ledger) (key : String) : Option Nat := ledger.numbers.lookup key

/-- Where the definition of a number stands. -/
def place? (ledger : Ledger) (number : Nat) : Option Nat := ledger.places.lookup number

def definition? (ledger : Ledger) (number : Nat) : Option Definition := do
  ledger.definitions[← ledger.place? number]?

/-- A new number with its definition. -/
def allocate (ledger : Ledger) (content : List Inline) : Nat × Ledger :=
  (ledger.next,
    { ledger with
      next := ledger.next + 1
      places := (ledger.next, ledger.definitions.length) :: ledger.places
      definitions := ledger.definitions ++ [⟨UInt32.ofNat ledger.next, content⟩] })

def allocateKey (ledger : Ledger) (key : String) (content : List Inline) : Nat × Ledger :=
  let (number, ledger) := ledger.allocate content
  (number, { ledger with numbers := (key, number) :: ledger.numbers })

/-- The ledger with another content for the definition of a number. -/
def define (ledger : Ledger) (number : Nat) (content : List Inline) : Ledger :=
  match ledger.place? number with
  | some place =>
      { ledger with definitions := ledger.definitions.modify place ({ · with content }) }
  | none => ledger

/-- Enter a footnote: its number, the content it keeps, and the ledger after it. -/
def enter (ledger : Ledger) (key : Option String) (content : List Inline) :
    Nat × List Inline × Ledger :=
  match key with
  | none =>
      let (number, ledger) := ledger.allocate content
      (number, content, ledger)
  | some key =>
      match ledger.number? key with
      | none =>
          let (number, ledger) := ledger.allocateKey key content
          (number, content, ledger)
      | some number =>
          if (ledger.definition? number).any (·.content.isEmpty) ∧ ¬ content.isEmpty then
            (number, content, ledger.define number content)
          else (number, [], ledger)

end Ledger

mutual

def resolve : Inline → Ledger → Inline × Ledger
  | .styled style content span, ledger =>
      let (content, ledger) := resolveAll content ledger
      (.styled style content span, ledger)
  | .link target content span, ledger =>
      let (content, ledger) := resolveAll content ledger
      (.link target content span, ledger)
  | .crossReference target content span, ledger =>
      let (content, ledger) := resolveAll content ledger
      (.crossReference target content span, ledger)
  | .footnote content key _ span, ledger =>
      let (content, ledger) := resolveAll content ledger
      let (number, content, ledger) := ledger.enter key content
      (.footnote content key (some (UInt32.ofNat number)) span, ledger)
  | .text body span, ledger => (.text body span, ledger)
  | .math formula display span, ledger => (.math formula display span, ledger)
  | .passthrough body span, ledger => (.passthrough body span, ledger)
  | .command named span, ledger => (.command named span, ledger)
  | .indexTerm terms visible span, ledger => (.indexTerm terms visible span, ledger)

def resolveAll : List Inline → Ledger → List Inline × Ledger
  | [], ledger => ([], ledger)
  | inline :: rest, ledger =>
      let (inline, ledger) := resolve inline ledger
      let (rest, ledger) := resolveAll rest ledger
      (inline :: rest, ledger)

end

/-- A document whose footnotes are numbered, and their definitions in order. -/
structure Resolved where
  document : Document
  definitions : List Definition

def resolveDocument (document : Document) : Resolved :=
  let (document, ledger) := Revision.document resolveAll document .empty
  ⟨document, ledger.definitions⟩

end Rendition.Footnote
