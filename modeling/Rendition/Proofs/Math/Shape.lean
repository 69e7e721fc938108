/-
# Rendition.Proofs.Math.Shape -- the shape of math trees

Scripts stand where a row reads them, after an atom, and nowhere else: an atom never
has scripts of its own, and every operand is an atom.  So no base, no script, no part
of a fraction and no radicand is a node of scripts.  What an atom is made of holds of
it on every way in which it is read, whatever the nesting (`atomic_read`), and from
there of every node of a tree (`parse_shaped`).
-/
import Rendition.Proofs.Math.Depth

namespace Rendition.Math

set_option autoImplicit false

open Rendition.Text

/-! ## Shapes -/

/-- One or more of the ten digits. -/
def IsDigits (cs : List Char) : Prop := cs ≠ [] ∧ ∀ c ∈ cs, c.isDigit

/-- Digits, and after them a point and digits or nothing. -/
def IsNumeral (cs : List Char) : Prop :=
  ∃ whole, IsDigits whole ∧
    (cs = whole ∨ ∃ fraction, IsDigits fraction ∧ cs = whole ++ '.' :: fraction)

namespace Node

def IsScripts (node : Node) : Prop := ∃ base sub sup, node = .scripts base sub sup

/-- What a node of a tree that was read looks like: some script where there are scripts, scripts
never directly on, in or under scripts, no scripts as an operand, numbers of digits and perhaps a
fraction, operators and texts of one character and identifiers of at least one. -/
def Shaped : Node → Prop
  | .row _ => True
  | .identifier name => name ≠ ""
  | .number digits => IsNumeral digits.toList
  | .operator body | .text body => body.length = 1
  | .fraction numerator denominator => ¬ numerator.IsScripts ∧ ¬ denominator.IsScripts
  | .root radicand => ¬ radicand.IsScripts
  | .scripts base sub sup =>
      (sub.isSome ∨ sup.isSome) ∧ ¬ base.IsScripts ∧ (∀ node ∈ sub, ¬ node.IsScripts) ∧
        ∀ node ∈ sup, ¬ node.IsScripts

/-- A tree and a node in it: its root or a node in one of the parts of the root. -/
inductive Within : Node → Node → Prop where
  | self {node : Node} : Within node node
  | inside {node part inner : Node} : part ∈ node.parts → Within part inner → Within node inner

def Sound (node : Node) : Prop := ∀ inner, node.Within inner → inner.Shaped

/-- What every atom is: sound, and without scripts of its own. -/
def Atomic (node : Node) : Prop := node.Sound ∧ ¬ node.IsScripts

/-- A node is sound if it is shaped and its parts are sound. -/
theorem sound_of_parts {node : Node} (shaped : node.Shaped)
    (parts : ∀ part ∈ node.parts, part.Sound) : node.Sound := by
  intro inner within
  cases within with
  | self => exact shaped
  | inside member within => exact parts _ member inner within

theorem atomic_leaf {node : Node} (leaf : node.parts = []) (shaped : node.Shaped) :
    node.Atomic := by
  refine ⟨sound_of_parts shaped ?_, ?_⟩
  · rw [leaf]
    exact List.forall_mem_nil _
  · rintro ⟨base, sub, sup, rfl⟩
    cases leaf

theorem atomic_row {children : List Node} (sound : ∀ child ∈ children, child.Sound) :
    (row children).Atomic :=
  ⟨sound_of_parts trivial sound, nofun⟩

theorem atomic_fraction {numerator denominator : Node} (above : numerator.Atomic)
    (below : denominator.Atomic) : (fraction numerator denominator).Atomic := by
  refine ⟨sound_of_parts ⟨above.2, below.2⟩ ?_, nofun⟩
  exact List.forall_mem_cons.mpr ⟨above.1, List.forall_mem_singleton.mpr below.1⟩

theorem atomic_root {radicand : Node} (atom : radicand.Atomic) : (root radicand).Atomic :=
  ⟨sound_of_parts atom.2 (List.forall_mem_singleton.mpr atom.1), nofun⟩

theorem atomic_operator (c : Char) : (operator (String.singleton c)).Atomic :=
  atomic_leaf rfl String.length_singleton

theorem atomic_text (c : Char) : (text (String.singleton c)).Atomic :=
  atomic_leaf rfl String.length_singleton

/-- An atom with atoms for its scripts is sound. -/
theorem sound_withScripts {base : Node} {sub sup : Option Node} (atom : base.Atomic)
    (below : ∀ node ∈ sub, node.Atomic) (above : ∀ node ∈ sup, node.Atomic) :
    (base.withScripts sub sup).Sound := by
  have scripted (present : sub.isSome ∨ sup.isSome) : (scripts base sub sup).Sound := by
    refine sound_of_parts ⟨present, atom.2, fun node inside => (below node inside).2,
      fun node inside => (above node inside).2⟩ fun part inside => ?_
    simp only [parts, List.mem_cons, List.mem_append, Option.mem_toList] at inside
    rcases inside with rfl | inside | inside
    · exact atom.1
    · exact (below part inside).1
    · exact (above part inside).1
  cases sub with
  | none =>
      cases sup with
      | none => exact atom.1
      | some sup => exact scripted (.inr rfl)
  | some sub => exact scripted (.inl rfl)

end Node

/-! ## Leaves -/

theorem isDigits_takeWhile {c : Char} (cs : List Char) (digit : c.isDigit) :
    IsDigits ((c :: cs).takeWhile Char.isDigit) := by
  refine ⟨?_, List.all_eq_true.mp List.all_takeWhile⟩
  rw [List.takeWhile_cons_of_pos digit]
  exact List.cons_ne_nil _ _

theorem isNumeral_readNumber {c : Char} (cs : List Char) (digit : c.isDigit) :
    IsNumeral (readNumber (c :: cs)).1 := by
  have whole := isDigits_takeWhile cs digit
  simp only [readNumber]
  split
  · split_ifs with fraction
    · exact ⟨_, whole, .inr ⟨_, isDigits_takeWhile _ fraction, rfl⟩⟩
    · exact ⟨_, whole, .inl rfl⟩
  · exact ⟨_, whole, .inl rfl⟩

/-- Every leaf that is read is an atom: its text is digits, letters or one character. -/
theorem atomic_readLeaf (c : Char) (cs : List Char) : (readLeaf c cs).1.Atomic := by
  simp only [readLeaf]
  split_ifs with digit letter operator
  · exact Node.atomic_leaf rfl (by simpa [Node.Shaped] using isNumeral_readNumber cs digit)
  · refine Node.atomic_leaf rfl ?_
    simp [Node.Shaped, letter]
  · exact Node.atomic_operator c
  · exact Node.atomic_text c

/-! ## Atoms -/

/-- No command stands for nothing. -/
theorem symbol?_ne_empty {name symbol : String} (found : symbol? name = some symbol) :
    symbol ≠ "" := by
  have named : symbols.all fun entry => entry.2 ≠ "" := by decide
  obtain ⟨front, back, split, -⟩ := List.lookup_eq_some_iff.mp found
  have member : (name, symbol) ∈ symbols := by
    rw [split]
    exact List.mem_append_right _ List.mem_cons_self
  exact of_decide_eq_true (List.all_eq_true.mp named _ member)

/-- A command is a leaf or has atoms for its operands. -/
theorem atomic_readCommand {operand : List Char → Node × List Char}
    (operands : ∀ cs, (operand cs).1.Atomic) (cs : List Char) :
    (readCommand operand cs).1.Atomic := by
  cases cs with
  | nil => exact Node.atomic_text '\\'
  | cons c cs =>
      simp only [readCommand]
      split_ifs with letter fraction root
      · exact Node.atomic_fraction (operands _) (operands _)
      · exact Node.atomic_root (operands _)
      · refine Node.atomic_leaf rfl ?_
        cases found : symbol? (String.ofList ((c :: cs).takeWhile Char.isAlpha)) with
        | none => simp [Node.Shaped, letter]
        | some symbol => exact symbol?_ne_empty found
      · exact Node.atomic_operator c

/-- A group is a row, whose brackets are operators. -/
theorem atomic_groupNode {row : Row} (sound : ∀ child ∈ row.children, child.Sound)
    (opener closer : Char) : (groupNode opener closer row).Atomic := by
  rw [groupNode]
  split_ifs with brace
  · exact Node.atomic_row sound
  · refine Node.atomic_row fun part inside => ?_
    simp only [List.mem_cons, List.mem_append] at inside
    rcases inside with rfl | inside | inside
    · exact (Node.atomic_operator opener).1
    · split_ifs at inside with empty
      · cases inside
      · rw [List.mem_singleton.mp inside]
        exact (Node.atomic_row sound).1
    · split_ifs at inside with closed
      · rw [List.mem_singleton.mp inside]
        exact (Node.atomic_operator closer).1
      · cases inside

/-- The nodes of a row of atoms are sound. -/
theorem sound_of_mem_row {close : Option Char} {reader : AtomReader close}
    (atoms : ∀ cs, (reader.read cs).1.Atomic) (cs : List Char) :
    ∀ child ∈ (reader.row cs).children, child.Sound := by
  intro child member
  obtain ⟨base, sub, sup, rfl, atom, below, above⟩ := reader.exists_of_mem_row atoms member
  exact Node.sound_withScripts atom below above

/-- **Whatever atom is read, it is sound and has no scripts of its own.** -/
theorem atomic_read (n : Nat) (close : Option Char) (cs : List Char) :
    ((AtomReader.withRoom n close).read cs).1.Atomic := by
  have missing : (Node.row []).Atomic := Node.atomic_row (List.forall_mem_nil _)
  induction n, close, cs using AtomReader.read_induction with
  | ended n close =>
      rw [AtomReader.read_nil]
      exact missing
  | missing n c cs =>
      rw [AtomReader.read_closer rfl]
      exact missing
  | leaf n close c cs opens simple =>
      rw [AtomReader.read_leaf opens simple]
      exact atomic_readLeaf c cs
  | tooDeep close c cs opens opener =>
      rw [AtomReader.read_tooDeep opens opener]
      exact Node.atomic_text c
  | group n close c closer cs opens bracket atoms =>
      rw [AtomReader.read_group opens bracket]
      exact atomic_groupNode (sound_of_mem_row (atoms (some closer)) cs) c closer
  | command n close cs opens atoms =>
      rw [AtomReader.read_command opens]
      exact atomic_readCommand (fun cs => atoms close (skipBlanks cs)) cs

/-- **The shape of math trees.**  The root is a row, and every node in the tree is shaped. -/
theorem parse_shaped (source : String) :
    (∃ children, parse source = .row children) ∧
      ∀ node, (parse source).Within node → node.Shaped :=
  ⟨⟨_, rfl⟩, (Node.atomic_row (sound_of_mem_row (atomic_read maxNesting none) source.toList)).1⟩

namespace Example

/-- A fraction without braces, with a number in it and a script on it. -/
def scripted : Node :=
  .scripts (.fraction (.number "1.5") (.identifier "x")) (some (.number "2")) none

theorem scripted_shaped :
    parse "\\frac 1.5 x_2" = .row [scripted] ∧ (Node.row [scripted]).Within scripted ∧
      scripted.Shaped := by
  have tree : parse "\\frac 1.5 x_2" = .row [scripted] := by with_unfolding_all rfl
  have within : (Node.row [scripted]).Within scripted := .inside List.mem_cons_self .self
  exact ⟨tree, within, (parse_shaped "\\frac 1.5 x_2").2 scripted (tree ▸ within)⟩

end Example

end Rendition.Math
