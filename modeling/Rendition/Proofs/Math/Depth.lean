/-
# Rendition.Proofs.Math.Depth -- nesting is bounded

An atom counts the depth up by one, and at the last depth the openers of groups and
the backslash are text.  So while a text is read the depth goes at most one above the
limit, and there only for leaves (`Runs.depth_le_of_mem`).

A tree that is read with room for one more level is at most three nodes higher: a
group in brackets puts two rows above its atoms and an atom may carry scripts; a
command puts one node above its operands (`low_read`).  With the row of the whole
text and its scripts that bounds every path down from the root (`nesting_bounded`).
-/
import Rendition.Proofs.Math.Run

namespace Rendition.Math

set_option autoImplicit false

open Rendition.Text

/-! ## The depth of a run -/

/-- How deep a routine may be visited: at the last depth there is nothing but leaves. -/
def Routine.Shallow (p : Position) : Routine → Prop
  | .nested => p.depth ≤ maxNesting ∨
      p.depth = maxNesting + 1 ∧ ∀ c ∈ p.ahead.head?, isOpener c = false
  | _ => p.depth ≤ maxNesting

namespace Runs

variable {routine : Routine} {p q : Position} {result : routine.Result} {visits : List Visit}

/-- What opens a group or begins a command is not at the last depth. -/
theorem le_of_shallow_nested {c : Char} {rest : List Char} (shallow : Routine.nested.Shallow p)
    (found : p.ahead = c :: rest) (opener : isOpener c) : p.depth ≤ maxNesting := by
  rcases shallow with le | ⟨-, simple⟩
  · exact le
  · have leaf := simple c (by rw [found]; rfl)
    exact absurd (leaf.symm.trans opener) Bool.false_ne_true

/-- No routine is visited deeper than one level below the last group. -/
theorem depth_le_of_shallow (shallow : routine.Shallow p) : p.depth ≤ maxNesting + 1 := by
  cases routine with
  | nested => rcases shallow with le | ⟨last, -⟩ <;> omega
  | row | turn | group | scriptable | scripts | operand | atom | command =>
      exact Nat.le_succ_of_le shallow

/-- **No visit of a run is deeper than one above the limit.** -/
theorem depth_le_of_mem (run : Runs routine p result q visits) (shallow : routine.Shallow p) :
    ∀ visit ∈ visits, visit.before.depth ≤ maxNesting + 1 := by
  have start := depth_le_of_shallow shallow
  induction run with
  | turnEnds | turnCloses | scriptsStop | atomEnds | atomMissing | atomTooDeep | nestedLeaf
  | commandEnds | commandSymbol | commandName =>
      exact List.forall_mem_singleton.mpr start
  | rowStops _ ih | turnReads _ _ _ ih | group _ ih | operand _ ih | commandRoot _ _ ih =>
      exact List.forall_mem_cons.mpr ⟨start, ih shallow start⟩
  | rowGoesOn first _ inFirst inSecond | scriptable first _ inFirst inSecond
  | script _ _ first _ inFirst inSecond | commandFraction _ first _ inFirst inSecond =>
      obtain ⟨after, -, rfl⟩ := first.framed
      refine List.forall_mem_cons.mpr ⟨start, ?_⟩
      exact List.forall_mem_append.mpr ⟨inFirst shallow start, inSecond shallow start⟩
  | @atomNests c rest node p _ _ found _ room _ ih =>
      have nested : Routine.nested.Shallow p.deeper := by
        by_cases deep : maxNesting ≤ p.depth
        · have last : p.depth + 1 = maxNesting + 1 :=
            congrArg Nat.succ (Nat.le_antisymm shallow deep)
          refine .inr ⟨last, ?_⟩
          simp only [Position.deeper, found]
          rintro c ⟨⟩
          simpa [deep] using room
        · exact .inl (Nat.lt_of_not_le deep)
      exact List.forall_mem_cons.mpr ⟨start, ih nested (depth_le_of_shallow nested)⟩
  | nestedGroup found bracket _ ih =>
      have le := le_of_shallow_nested shallow found (isOpener_of_closer? bracket)
      exact List.forall_mem_cons.mpr ⟨start, ih le start⟩
  | nestedCommand found _ ih =>
      have le := le_of_shallow_nested shallow found (by decide)
      exact List.forall_mem_cons.mpr ⟨start, ih le start⟩

end Runs

/-! ## The height of a tree -/

namespace Node

/-- The nodes directly below a node. -/
def parts : Node → List Node
  | .row children => children
  | .identifier _ | .number _ | .operator _ | .text _ => []
  | .fraction numerator denominator => [numerator, denominator]
  | .root radicand => [radicand]
  | .scripts base sub sup => base :: (sub.toList ++ sup.toList)

/-- The nodes on a way down from a node to a leaf, both included. -/
inductive Path : Node → List Node → Prop where
  | leaf {node : Node} : node.parts = [] → Path node [node]
  | step {node part : Node} {path : List Node} :
      part ∈ node.parts → Path part path → Path node (node :: path)

/-- Whether no way down from a node has more nodes. -/
def Low : Nat → Node → Prop
  | 0, _ => False
  | height + 1, node => ∀ part ∈ node.parts, Low height part

theorem Low.mono {height more : Nat} {node : Node} (low : node.Low height) (le : height ≤ more) :
    node.Low more := by
  induction height generalizing more node with
  | zero => exact low.elim
  | succ height ih =>
      obtain ⟨more, rfl⟩ := Nat.exists_eq_add_of_le' (Nat.le_trans (Nat.le_add_left 1 _) le)
      exact fun part inside => ih (low part inside) (Nat.le_of_succ_le_succ le)

/-- No path in a low node is longer than its height. -/
theorem Low.length_le {height : Nat} {node : Node} {path : List Node} (low : node.Low height)
    (way : node.Path path) : path.length ≤ height := by
  induction way generalizing height with
  | leaf =>
      cases height with
      | zero => exact low.elim
      | succ height => exact Nat.succ_le_succ (Nat.zero_le _)
  | step inside _ ih =>
      cases height with
      | zero => exact low.elim
      | succ height => exact Nat.succ_le_succ (ih (low _ inside))

theorem low_of_parts_eq_nil {height : Nat} {node : Node} (leaf : node.parts = []) :
    node.Low (height + 1) := by
  intro part inside
  rw [leaf] at inside
  cases inside

/-- Scripts put one more level on their base and operands. -/
theorem low_withScripts {height : Nat} {base : Node} {sub sup : Option Node}
    (low : base.Low height) (below : ∀ node ∈ sub, node.Low height)
    (above : ∀ node ∈ sup, node.Low height) : (base.withScripts sub sup).Low (height + 1) := by
  have scripted : (Node.scripts base sub sup).Low (height + 1) := by
    intro part inside
    simp only [parts, List.mem_cons, List.mem_append, Option.mem_toList] at inside
    rcases inside with rfl | inside | inside
    · exact low
    · exact below part inside
    · exact above part inside
  cases sub with
  | none =>
      cases sup with
      | none => exact low.mono (Nat.le_succ _)
      | some sup => exact scripted
  | some sub => exact scripted

end Node

section Levels

variable {height : Nat}

/-- A row is two nodes higher than its atoms: itself, and the scripts that an atom may carry. -/
theorem low_row {close : Option Char} {reader : AtomReader close}
    (atoms : ∀ cs, (reader.read cs).1.Low height) (cs : List Char) :
    (Node.row (reader.row cs).children).Low (height + 2) := by
  intro child inside
  obtain ⟨base, sub, sup, rfl, low, below, above⟩ := reader.exists_of_mem_row atoms inside
  exact Node.low_withScripts low below above

theorem low_operator (symbol : String) : (Node.operator symbol).Low (height + 1) :=
  Node.low_of_parts_eq_nil rfl

/-- Brackets that are shown stand beside the row between them, which is one level lower. -/
theorem low_groupNode {row : Row} (low : (Node.row row.children).Low height)
    (opener closer : Char) : (groupNode opener closer row).Low (height + 1) := by
  rw [groupNode]
  split
  · exact low.mono (Nat.le_succ _)
  · cases height with
    | zero => exact low.elim
    | succ height =>
        intro part inside
        simp only [bracketed, Node.parts, List.mem_cons, List.mem_append] at inside
        rcases inside with rfl | inside | inside
        · exact low_operator _
        · split at inside
          · cases inside
          · rw [List.mem_singleton.mp inside]
            exact low
        · split at inside
          · rw [List.mem_singleton.mp inside]
            exact low_operator _
          · cases inside

/-- A command is one node higher than its operands. -/
theorem low_readCommand {operand : List Char → Node × List Char}
    (operands : ∀ cs, (operand cs).1.Low height) (cs : List Char) :
    (readCommand operand cs).1.Low (height + 1) := by
  cases cs with
  | nil => exact Node.low_of_parts_eq_nil rfl
  | cons c cs =>
      simp only [readCommand]
      split
      · split
        · intro part inside
          simp only [Node.parts, List.mem_cons, List.not_mem_nil, or_false] at inside
          rcases inside with rfl | rfl
          · exact operands _
          · exact operands _
        · split
          · intro part inside
            rw [List.mem_singleton.mp inside]
            exact operands _
          · exact Node.low_of_parts_eq_nil rfl
      · exact Node.low_of_parts_eq_nil rfl

theorem low_readLeaf (c : Char) (cs : List Char) : (readLeaf c cs).1.Low (height + 1) := by
  refine Node.low_of_parts_eq_nil ?_
  simp only [readLeaf]
  split
  · rfl
  · split
    · rfl
    · split <;> rfl

end Levels

/-- **Every level of nesting is at most three nodes high.** -/
theorem low_read (n : Nat) (close : Option Char) (cs : List Char) :
    ((AtomReader.withRoom n close).read cs).1.Low (3 * n + 1) := by
  induction n, close, cs using AtomReader.read_induction with
  | ended n close =>
      rw [AtomReader.read_nil]
      exact Node.low_of_parts_eq_nil rfl
  | missing n c cs =>
      rw [AtomReader.read_closer rfl]
      exact Node.low_of_parts_eq_nil rfl
  | leaf n close c cs opens simple =>
      rw [AtomReader.read_leaf opens simple]
      exact low_readLeaf c cs
  | tooDeep close c cs opens opener =>
      rw [AtomReader.read_tooDeep opens opener]
      exact Node.low_of_parts_eq_nil rfl
  | group n close c closer cs opens bracket atoms =>
      rw [AtomReader.read_group opens bracket]
      exact low_groupNode (low_row (atoms (some closer)) cs) c closer
  | command n close cs opens atoms =>
      rw [AtomReader.read_command opens]
      have operands : ∀ cs, ((AtomReader.withRoom n close).operand cs).1.Low (3 * n + 1) :=
        fun cs => atoms close (skipBlanks cs)
      exact (low_readCommand operands cs).mono (by omega)

/-- **Nesting is bounded.**  While a text is read the depth is never more than one above the limit,
and no way from the root of its tree down to a leaf has more than three nodes for each level and
three more. -/
theorem nesting_bounded (source : String) :
    (∃ result stop visits, Runs (.row none) (.start source) result stop visits) ∧
      (∀ result stop visits, Runs (.row none) (.start source) result stop visits →
        .row result.1 = parse source ∧
          ∀ visit ∈ visits, visit.before.depth ≤ maxNesting + 1 ∧
            visit.after.depth ≤ maxNesting + 1) ∧
      ∀ path, (parse source).Path path → path.length ≤ 3 * maxNesting + 3 := by
  refine ⟨exists_runs _ _ rfl, ?_, ?_⟩
  · rintro ⟨children, closed⟩ stop visits run
    have row : (AtomReader.withRoom maxNesting none).row source.toList =
        ⟨children, closed, stop.ahead⟩ := Row.eq_of_answer (run.answer_eq rfl)
    refine ⟨congrArg (Node.row ∘ Row.children) row.symm, fun visit visited => ?_⟩
    have before := run.depth_le_of_mem (Nat.zero_le _) visit visited
    obtain ⟨-, result, others, inner⟩ := run.of_mem rfl visit visited
    obtain ⟨rest, -, same⟩ := inner.framed
    refine ⟨before, ?_⟩
    rw [same]
    exact before
  · intro path way
    exact (low_row (low_read maxNesting none) source.toList).length_le way

end Rendition.Math
