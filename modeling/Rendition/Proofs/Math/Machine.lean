/-
# Rendition.Proofs.Math.Machine -- reading math with a stack and a counter

The readers of atoms are built level upon level, and each of them knows the closer of
its own group only.  Here the grammar is read by one machine instead, whose routines
call each other.  Its state (`Position`) is the text ahead, the closers of all open
groups and a depth: a group pushes its closer and pops it at its end, an atom counts
the depth up and down again.

A run of a routine comes with its result, the position where it stops and the visits
to routines that were made in it, its own first (`Runs`).  Every run stops in the text
ahead of it and leaves the closers and the depth as it found them (`Runs.framed`), and
every visit in it is a run again, at whose start the innermost closer is that of the
row (`Runs.of_mem`).
-/
import Rendition.Proofs.Math.Reading

namespace Rendition.Math

set_option autoImplicit false

open Rendition.Text

/-! ## States -/

/-- The text ahead, the closers of the open groups, the innermost first, and the depth. -/
structure Position where
  ahead : List Char
  closers : List Char
  depth : Nat

namespace Position

def seek (p : Position) (cs : List Char) : Position := { p with ahead := cs }

def push (p : Position) (closer : Char) : Position := { p with closers := closer :: p.closers }

def pop (p : Position) : Position := { p with closers := p.closers.tail }

def deeper (p : Position) : Position := { p with depth := p.depth + 1 }

def shallower (p : Position) : Position := { p with depth := p.depth - 1 }

end Position

/-! ## Routines -/

/-- The routines of the machine.  A row is a loop, and each turn of it is a routine of its own; so
is the loop for the scripts of an atom, with the scripts found so far. -/
inductive Routine where
  | row (closer : Option Char)
  | turn (closer : Option Char)
  | group (closer : Char)
  | scriptable
  | scripts (sub sup : Option Node)
  | operand
  | atom
  | nested
  | command

/-- A turn ends the row, closed or not, or finds one more node. -/
inductive Turn where
  | stop (closed : Bool)
  | child (node : Node)

/-- What a routine returns; a row its nodes and whether its closer was met. -/
abbrev Routine.Result : Routine → Type
  | .row _ | .group _ => List Node × Bool
  | .turn _ => Turn
  | .scripts _ _ => Option Node × Option Node
  | .scriptable | .operand | .atom | .nested | .command => Node

/-- What holds where a routine is visited: a row and its turns were told the innermost closer, and
there is something to nest. -/
def Routine.Placed (p : Position) : Routine → Prop
  | .row closer | .turn closer => closer = p.closers.head?
  | .nested => p.ahead ≠ []
  | .group _ | .scriptable | .scripts _ _ | .operand | .atom | .command => True

/-- A visit to a routine, from where to where. -/
structure Visit where
  routine : Routine
  before : Position
  after : Position

/-- A run of a routine from a position: what it returns, where it stops, and the visits to routines
on the way. -/
inductive Runs :
    (routine : Routine) → Position → routine.Result → Position → List Visit → Prop where
  | rowStops {closer : Option Char} {closed : Bool} {p q : Position} {visits : List Visit} :
      Runs (.turn closer) p (.stop closed) q visits →
      Runs (.row closer) p ([], closed) q (⟨.row closer, p, q⟩ :: visits)
  | rowGoesOn {closer : Option Char} {node : Node} {nodes : List Node} {closed : Bool}
      {p q r : Position} {visits others : List Visit} :
      Runs (.turn closer) p (.child node) q visits → Runs (.row closer) q (nodes, closed) r others →
      Runs (.row closer) p (node :: nodes, closed) r (⟨.row closer, p, r⟩ :: (visits ++ others))
  | turnEnds {closer : Option Char} {p : Position} : skipBlanks p.ahead = [] →
      Runs (.turn closer) p (.stop false) (p.seek []) [⟨.turn closer, p, p.seek []⟩]
  | turnCloses {closer : Option Char} {c : Char} {rest : List Char} {p : Position} :
      skipBlanks p.ahead = c :: rest → closer = some c →
      Runs (.turn closer) p (.stop true) (p.seek rest) [⟨.turn closer, p, p.seek rest⟩]
  | turnReads {closer : Option Char} {c : Char} {rest : List Char} {node : Node} {p q : Position}
      {visits : List Visit} : skipBlanks p.ahead = c :: rest → closer ≠ some c →
      Runs .scriptable (p.seek (c :: rest)) node q visits →
      Runs (.turn closer) p (.child node) q (⟨.turn closer, p, q⟩ :: visits)
  -- the row inside is told the closer that was pushed for it
  | group {closer : Char} {row : List Node × Bool} {p q : Position} {visits : List Visit} :
      Runs (.row (some closer)) (p.push closer) row q visits →
      Runs (.group closer) p row q.pop (⟨.group closer, p, q.pop⟩ :: visits)
  | scriptable {base : Node} {found : Option Node × Option Node} {p q r : Position}
      {visits others : List Visit} :
      Runs .atom p base q visits → Runs (.scripts none none) q found r others →
      Runs .scriptable p (base.withScripts found.1 found.2) r
        (⟨.scriptable, p, r⟩ :: (visits ++ others))
  | script {sub sup : Option Node} {found : Option Node × Option Node} {node : Node} {c : Char}
      {rest : List Char} {p q r : Position} {visits others : List Visit} :
      skipBlanks p.ahead = c :: rest → isMark c → Runs .operand (p.seek rest) node q visits →
      Runs (.scripts (if c = '^' then sub else some node) (if c = '^' then some node else sup))
        q found r others →
      Runs (.scripts sub sup) p found r (⟨.scripts sub sup, p, r⟩ :: (visits ++ others))
  | scriptsStop {sub sup : Option Node} {p : Position} :
      (∀ c ∈ (skipBlanks p.ahead).head?, isMark c = false) →
      Runs (.scripts sub sup) p (sub, sup) (p.seek (skipBlanks p.ahead))
        [⟨.scripts sub sup, p, p.seek (skipBlanks p.ahead)⟩]
  | operand {node : Node} {p q : Position} {visits : List Visit} :
      Runs .atom (p.seek (skipBlanks p.ahead)) node q visits →
      Runs .operand p node q (⟨.operand, p, q⟩ :: visits)
  | atomEnds {p : Position} : p.ahead = [] → Runs .atom p (.row []) p [⟨.atom, p, p⟩]
  -- an operand is missing: its closer is left to the row
  | atomMissing {c : Char} {p : Position} : p.ahead.head? = some c → p.closers.head? = some c →
      Runs .atom p (.row []) p [⟨.atom, p, p⟩]
  | atomTooDeep {c : Char} {rest : List Char} {p : Position} : p.ahead = c :: rest →
      p.closers.head? ≠ some c → maxNesting ≤ p.depth → isOpener c →
      Runs .atom p (.text (String.singleton c)) (p.seek rest) [⟨.atom, p, p.seek rest⟩]
  | atomNests {c : Char} {rest : List Char} {node : Node} {p q : Position} {visits : List Visit} :
      p.ahead = c :: rest → p.closers.head? ≠ some c → ¬ (maxNesting ≤ p.depth ∧ isOpener c) →
      Runs .nested p.deeper node q visits →
      Runs .atom p node q.shallower (⟨.atom, p, q.shallower⟩ :: visits)
  | nestedGroup {c closer : Char} {rest : List Char} {children : List Node} {closed : Bool}
      {p q : Position} {visits : List Visit} : p.ahead = c :: rest → closer? c = some closer →
      Runs (.group closer) (p.seek rest) (children, closed) q visits →
      Runs .nested p (groupNode c closer ⟨children, closed, q.ahead⟩) q (⟨.nested, p, q⟩ :: visits)
  | nestedCommand {rest : List Char} {node : Node} {p q : Position} {visits : List Visit} :
      p.ahead = '\\' :: rest → Runs .command (p.seek rest) node q visits →
      Runs .nested p node q (⟨.nested, p, q⟩ :: visits)
  | nestedLeaf {c : Char} {rest : List Char} {p : Position} :
      p.ahead = c :: rest → isOpener c = false →
      Runs .nested p (readLeaf c rest).1 (p.seek (readLeaf c rest).2)
        [⟨.nested, p, p.seek (readLeaf c rest).2⟩]
  | commandEnds {p : Position} : p.ahead = [] →
      Runs .command p (.text "\\") p [⟨.command, p, p⟩]
  | commandSymbol {c : Char} {rest : List Char} {p : Position} :
      p.ahead = c :: rest → c.isAlpha = false →
      Runs .command p (.operator (String.singleton c)) (p.seek rest) [⟨.command, p, p.seek rest⟩]
  | commandFraction {numerator denominator : Node} {p q r : Position}
      {visits others : List Visit} : p.ahead.takeWhile Char.isAlpha = "frac".toList →
      Runs .operand (p.seek (p.ahead.dropWhile Char.isAlpha)) numerator q visits →
      Runs .operand q denominator r others →
      Runs .command p (.fraction numerator denominator) r
        (⟨.command, p, r⟩ :: (visits ++ others))
  | commandRoot {radicand : Node} {p q : Position} {visits : List Visit} :
      p.ahead.takeWhile Char.isAlpha = "sqrt".toList →
      Runs .operand (p.seek (p.ahead.dropWhile Char.isAlpha)) radicand q visits →
      Runs .command p (.root radicand) q (⟨.command, p, q⟩ :: visits)
  | commandName {name : List Char} {p : Position} :
      p.ahead.takeWhile Char.isAlpha = name → name ≠ [] → name ≠ "frac".toList →
      name ≠ "sqrt".toList →
      Runs .command p
        (.identifier ((symbol? (String.ofList name)).getD (String.ofList name)))
        (p.seek (p.ahead.dropWhile Char.isAlpha))
        [⟨.command, p, p.seek (p.ahead.dropWhile Char.isAlpha)⟩]

theorem ne_nil_of_eq_cons {cs rest : List Char} {c : Char} (found : cs = c :: rest) : cs ≠ [] :=
  found ▸ List.cons_ne_nil c rest

namespace Runs

variable {routine : Routine} {p q : Position} {result : routine.Result} {visits : List Visit}

/-- **Every run stops in the text ahead and leaves the closers and the depth as it found them.** -/
theorem framed (run : Runs routine p result q visits) :
    ∃ rest, rest <:+ p.ahead ∧ q = p.seek rest := by
  have blanks (p : Position) : skipBlanks p.ahead <:+ p.ahead := List.dropWhile_suffix _
  have name (p : Position) : p.ahead.dropWhile Char.isAlpha <:+ p.ahead := List.dropWhile_suffix _
  induction run with
  | rowStops _ ih => exact ih
  | rowGoesOn _ _ turn row =>
      obtain ⟨after, turned, rfl⟩ := turn
      obtain ⟨rest, ended, rfl⟩ := row
      exact ⟨rest, ended.trans turned, rfl⟩
  | turnEnds => exact ⟨[], List.nil_suffix, rfl⟩
  | @turnCloses _ c rest p found _ =>
      exact ⟨rest, (found ▸ List.suffix_cons c rest).trans (blanks p), rfl⟩
  | @turnReads _ c rest _ p _ _ found _ _ ih =>
      obtain ⟨after, read, rfl⟩ := ih
      exact ⟨after, read.trans (found ▸ blanks p), rfl⟩
  | group _ ih =>
      obtain ⟨rest, read, rfl⟩ := ih
      exact ⟨rest, read, rfl⟩
  | scriptable _ _ atom scripts =>
      obtain ⟨after, read, rfl⟩ := atom
      obtain ⟨rest, ended, rfl⟩ := scripts
      exact ⟨rest, ended.trans read, rfl⟩
  | @script _ _ _ _ c rest p _ _ _ _ found _ _ _ operand scripts =>
      obtain ⟨after, read, rfl⟩ := operand
      obtain ⟨others, ended, rfl⟩ := scripts
      have marked : rest <:+ p.ahead := (found ▸ List.suffix_cons c rest).trans (blanks p)
      exact ⟨others, ended.trans (read.trans marked), rfl⟩
  | @scriptsStop _ _ p => exact ⟨skipBlanks p.ahead, blanks p, rfl⟩
  | @operand _ p _ _ _ ih =>
      obtain ⟨rest, read, rfl⟩ := ih
      exact ⟨rest, read.trans (blanks p), rfl⟩
  | @atomEnds p | @atomMissing _ p | @commandEnds p => exact ⟨p.ahead, List.suffix_rfl, rfl⟩
  | @atomTooDeep c rest p found => exact ⟨rest, found ▸ List.suffix_cons c rest, rfl⟩
  | atomNests _ _ _ _ ih =>
      obtain ⟨rest, read, rfl⟩ := ih
      exact ⟨rest, read, rfl⟩
  | @nestedGroup c _ rest _ _ p _ _ found _ _ ih =>
      obtain ⟨after, read, rfl⟩ := ih
      exact ⟨after, read.trans (found ▸ List.suffix_cons c rest), rfl⟩
  | @nestedCommand rest _ p _ _ found _ ih =>
      obtain ⟨after, read, rfl⟩ := ih
      exact ⟨after, read.trans (found ▸ List.suffix_cons '\\' rest), rfl⟩
  | @nestedLeaf c rest p found _ => exact ⟨_, found ▸ readLeaf_suffix c rest, rfl⟩
  | @commandSymbol c rest p found _ => exact ⟨rest, found ▸ List.suffix_cons c rest, rfl⟩
  | @commandFraction _ _ p _ _ _ _ _ _ _ first second =>
      obtain ⟨after, read, rfl⟩ := first
      obtain ⟨rest, ended, rfl⟩ := second
      exact ⟨rest, ended.trans (read.trans (name p)), rfl⟩
  | @commandRoot _ p _ _ _ _ ih =>
      obtain ⟨after, read, rfl⟩ := ih
      exact ⟨after, read.trans (name p), rfl⟩
  | @commandName _ p => exact ⟨_, name p, rfl⟩

/-- **Every visit in a run is itself a run, of a routine that is placed.** -/
theorem of_mem (run : Runs routine p result q visits) (placed : routine.Placed p) :
    ∀ visit ∈ visits, visit.routine.Placed visit.before ∧
      ∃ result visits, Runs visit.routine visit.before result visit.after visits := by
  induction run with
  | rowStops turn ih =>
      exact List.forall_mem_cons.mpr ⟨⟨placed, _, _, .rowStops turn⟩, ih placed⟩
  | rowGoesOn turn row inTurn inRow =>
      obtain ⟨after, -, rfl⟩ := turn.framed
      refine List.forall_mem_cons.mpr ⟨⟨placed, _, _, .rowGoesOn turn row⟩, ?_⟩
      exact List.forall_mem_append.mpr ⟨inTurn placed, inRow placed⟩
  | turnEnds found =>
      exact List.forall_mem_singleton.mpr ⟨placed, _, _, .turnEnds found⟩
  | turnCloses found closes =>
      exact List.forall_mem_singleton.mpr ⟨placed, _, _, .turnCloses found closes⟩
  | turnReads found opens read ih =>
      exact List.forall_mem_cons.mpr ⟨⟨placed, _, _, .turnReads found opens read⟩, ih trivial⟩
  | group row ih => exact List.forall_mem_cons.mpr ⟨⟨placed, _, _, .group row⟩, ih rfl⟩
  | scriptable atom scripts inAtom inScripts =>
      refine List.forall_mem_cons.mpr ⟨⟨placed, _, _, .scriptable atom scripts⟩, ?_⟩
      exact List.forall_mem_append.mpr ⟨inAtom trivial, inScripts trivial⟩
  | script found mark operand scripts inOperand inScripts =>
      refine List.forall_mem_cons.mpr ⟨⟨placed, _, _, .script found mark operand scripts⟩, ?_⟩
      exact List.forall_mem_append.mpr ⟨inOperand trivial, inScripts trivial⟩
  | scriptsStop bare => exact List.forall_mem_singleton.mpr ⟨placed, _, _, .scriptsStop bare⟩
  | operand atom ih =>
      exact List.forall_mem_cons.mpr ⟨⟨placed, _, _, .operand atom⟩, ih trivial⟩
  | atomEnds ended => exact List.forall_mem_singleton.mpr ⟨placed, _, _, .atomEnds ended⟩
  | atomMissing found closes =>
      exact List.forall_mem_singleton.mpr ⟨placed, _, _, .atomMissing found closes⟩
  | atomTooDeep found opens deep opener =>
      exact List.forall_mem_singleton.mpr ⟨placed, _, _, .atomTooDeep found opens deep opener⟩
  | atomNests found opens room nested ih =>
      refine List.forall_mem_cons.mpr ⟨⟨placed, _, _, .atomNests found opens room nested⟩, ?_⟩
      exact ih (ne_nil_of_eq_cons found)
  | nestedGroup found bracket group ih =>
      refine List.forall_mem_cons.mpr ⟨⟨placed, _, _, .nestedGroup found bracket group⟩, ?_⟩
      exact ih trivial
  | nestedCommand found command ih =>
      exact List.forall_mem_cons.mpr ⟨⟨placed, _, _, .nestedCommand found command⟩, ih trivial⟩
  | nestedLeaf found simple =>
      exact List.forall_mem_singleton.mpr ⟨placed, _, _, .nestedLeaf found simple⟩
  | commandEnds ended => exact List.forall_mem_singleton.mpr ⟨placed, _, _, .commandEnds ended⟩
  | commandSymbol found symbol =>
      exact List.forall_mem_singleton.mpr ⟨placed, _, _, .commandSymbol found symbol⟩
  | commandFraction name first second inFirst inSecond =>
      refine List.forall_mem_cons.mpr ⟨⟨placed, _, _, .commandFraction name first second⟩, ?_⟩
      exact List.forall_mem_append.mpr ⟨inFirst trivial, inSecond trivial⟩
  | commandRoot name operand ih =>
      exact List.forall_mem_cons.mpr ⟨⟨placed, _, _, .commandRoot name operand⟩, ih trivial⟩
  | commandName name some other another =>
      exact List.forall_mem_singleton.mpr ⟨placed, _, _, .commandName name some other another⟩

end Runs

end Rendition.Math
