/-
# Rendition.Proofs.Math.Run -- the machine reads what the readers read

A routine of the machine answers what the reader of atoms for the innermost closer
and the depth reads (`Routine.answer`): it returns that whenever it stops
(`Runs.answer_eq`), and it stops, since every turn of a row goes forward in the text
(`exists_runs`).  An atom before its closer takes nothing, but it is only reached as
the operand of a script or a command; a row looks for its closer first, and its closer
is always the innermost.

So a whole text is read to its end, with all groups left (`parse_runs`).
-/
import Rendition.Proofs.Math.Machine

namespace Rendition.Math

set_option autoImplicit false

open Rendition.Text

/-! ## Answers -/

/-- The reader of atoms at a position. -/
def Position.reader (p : Position) : AtomReader p.closers.head? :=
  AtomReader.withRoom (maxNesting - p.depth) p.closers.head?

/-- A row as what a routine returns and the text that is left. -/
def Row.answer (row : Row) : (List Node × Bool) × List Char :=
  ((row.children, row.closed), row.rest)

/-- What the readers make of the text ahead, and the text that is left. -/
def Routine.answer : (routine : Routine) → Position → routine.Result × List Char
  | .row _, p => (p.reader.row p.ahead).answer
  | .turn _, p =>
      match skipBlanks p.ahead with
      | [] => (.stop false, [])
      | c :: rest =>
          if p.closers.head? = some c then (.stop true, rest)
          else (.child (p.reader.scriptable (c :: rest)).1, (p.reader.scriptable (c :: rest)).2)
  | .group closer, p => ((p.push closer).reader.row p.ahead).answer
  | .scriptable, p => p.reader.scriptable p.ahead
  | .scripts sub sup, p => p.reader.scripts sub sup p.ahead
  | .operand, p => p.reader.operand p.ahead
  | .atom, p => p.reader.read p.ahead
  | .nested, p =>
      match p.ahead with
      | [] => (.row [], [])
      | c :: rest =>
          match closer? c with
          | some closer =>
              let row := (p.push closer).reader.row rest
              (groupNode c closer row, row.rest)
          | none => if c = '\\' then readCommand p.reader.operand rest else readLeaf c rest
  | .command, p => readCommand p.reader.operand p.ahead

theorem Row.eq_of_answer {row : Row} {children : List Node} {closed : Bool} {rest : List Char}
    (answer : row.answer = ((children, closed), rest)) : row = ⟨children, closed, rest⟩ := by
  simp only [Row.answer, Prod.mk.injEq] at answer
  obtain ⟨⟨rfl, rfl⟩, rfl⟩ := answer
  rfl

/-- A row takes its turns until one of them ends it. -/
theorem answer_row (closer : Option Char) (p : Position) :
    (Routine.row closer).answer p =
      match (Routine.turn closer).answer p with
      | (.stop closed, rest) => (([], closed), rest)
      | (.child node, rest) =>
          let others := (Routine.row closer).answer (p.seek rest)
          ((node :: others.1.1, others.1.2), others.2) := by
  cases found : skipBlanks p.ahead with
  | nil => simp only [Routine.answer, Row.answer, found, p.reader.row_ended found]
  | cons c rest =>
      by_cases closes : p.closers.head? = some c
      · simp only [Routine.answer, Row.answer, found, if_pos closes,
          p.reader.row_closed found closes]
      · simp only [Routine.answer, Row.answer, found, if_neg closes,
          p.reader.row_next found closes]
        rfl

/-- What an atom reads it reads one level deeper. -/
theorem answer_atom {p : Position} {c : Char} {rest : List Char} (found : p.ahead = c :: rest)
    (opens : p.closers.head? ≠ some c) (room : ¬ (maxNesting ≤ p.depth ∧ isOpener c)) :
    Routine.atom.answer p = Routine.nested.answer p.deeper := by
  have ahead : p.deeper.ahead = c :: rest := found
  by_cases opener : isOpener c = true
  · have shallow : p.depth < maxNesting := Nat.lt_of_not_le fun deep => room ⟨deep, opener⟩
    have level : maxNesting - p.depth = maxNesting - p.deeper.depth + 1 := by
      show maxNesting - p.depth = maxNesting - (p.depth + 1) + 1
      omega
    cases bracket : closer? c with
    | some closer =>
        simp only [Routine.answer, Position.reader, found, ahead, level, bracket,
          AtomReader.read_group opens bracket]
        rfl
    | none =>
        obtain rfl := eq_backslash_of_isOpener opener bracket
        simp only [Routine.answer, Position.reader, found, ahead, level, bracket,
          AtomReader.read_command opens, if_pos]
        rfl
  · have simple : isOpener c = false := by simpa using opener
    have bracket := closer?_eq_none_of_not_isOpener simple
    have letter : c ≠ '\\' := by
      rintro rfl
      exact opener (by decide)
    simp only [Routine.answer, Position.reader, found, ahead, bracket, if_neg letter,
      AtomReader.read_leaf opens simple]

namespace Runs

variable {routine : Routine} {p q : Position} {result : routine.Result} {visits : List Visit}

/-- **A run returns what the readers read, and stops where they stop.** -/
theorem answer_eq (run : Runs routine p result q visits) (placed : routine.Placed p) :
    routine.answer p = (result, q.ahead) := by
  induction run with
  | rowStops turn ih => rw [answer_row, ih placed]
  | rowGoesOn turn row inTurn inRow =>
      obtain ⟨rest, -, rfl⟩ := turn.framed
      have others := inRow placed
      rw [answer_row, inTurn placed]
      simp only [Position.seek] at others ⊢
      rw [others]
  | turnEnds found => simp only [Routine.answer, found, Position.seek]
  | turnCloses found closes =>
      rw [placed] at closes
      simp only [Routine.answer, found, if_pos closes, Position.seek]
  | @turnReads _ c rest node p q _ found opens _ ih =>
      have first : p.reader.scriptable (c :: rest) = (node, q.ahead) := ih trivial
      rw [placed] at opens
      simp only [Routine.answer, found, if_neg opens, first]
  | group _ ih => exact ih rfl
  | @scriptable base found p _ r _ _ atom _ inAtom inScripts =>
      obtain ⟨rest, -, rfl⟩ := atom.framed
      have first : p.reader.read p.ahead = (base, rest) := inAtom trivial
      have others : p.reader.scripts none none rest = (found, r.ahead) := inScripts trivial
      simp only [Routine.answer, AtomReader.scriptable_eq, first, others]
  | @script sub sup scripts node c rest p _ r _ _ found mark operand _ inOperand inScripts =>
      obtain ⟨after, -, rfl⟩ := operand.framed
      have first : p.reader.operand rest = (node, after) := inOperand trivial
      have others : p.reader.scripts (if c = '^' then sub else some node)
          (if c = '^' then some node else sup) after = (scripts, r.ahead) := inScripts trivial
      simp only [Routine.answer, p.reader.scripts_mark found mark, first]
      exact others
  | scriptsStop bare => exact AtomReader.scripts_done _ bare
  | operand _ ih => exact ih trivial
  | @atomEnds p ended =>
      simp only [Routine.answer, ended]
      exact AtomReader.read_nil
  | @atomMissing c p found closes =>
      obtain ⟨rest, ahead⟩ := List.head?_eq_some_iff.mp found
      simp only [Routine.answer, Position.reader, ahead]
      exact AtomReader.read_closer closes
  | @atomTooDeep c rest p found opens deep opener =>
      have level : maxNesting - p.depth = 0 := Nat.sub_eq_zero_of_le deep
      simp only [Routine.answer, Position.reader, found, level]
      exact AtomReader.read_tooDeep opens opener
  | atomNests found opens room _ ih =>
      rw [answer_atom found opens room]
      exact ih (ne_nil_of_eq_cons found)
  | @nestedGroup c closer rest children closed p q _ found bracket _ ih =>
      have row : ((p.push closer).reader.row rest).answer = ((children, closed), q.ahead) :=
        ih trivial
      simp only [Routine.answer, found, bracket, Row.eq_of_answer row]
  | nestedCommand found command ih =>
      simp only [Routine.answer, found]
      exact ih trivial
  | @nestedLeaf c rest p found simple =>
      have letter : c ≠ '\\' := by
        rintro rfl
        exact absurd simple (by decide)
      simp only [Routine.answer, found, closer?_eq_none_of_not_isOpener simple, if_neg letter]
      rfl
  | commandEnds ended =>
      simp only [Routine.answer, ended]
      rfl
  | commandSymbol found symbol =>
      simp only [Routine.answer, found]
      exact readCommand_symbol symbol
  | @commandFraction numerator denominator p _ r _ _ name first _ inFirst inSecond =>
      obtain ⟨after, -, rfl⟩ := first.framed
      have above : p.reader.operand (p.ahead.dropWhile Char.isAlpha) = (numerator, after) :=
        inFirst trivial
      have below : p.reader.operand after = (denominator, r.ahead) := inSecond trivial
      simp only [Routine.answer]
      rw [readCommand_name name (by decide), String.ofList_toList, if_pos rfl, above, below]
  | @commandRoot radicand p q _ name _ ih =>
      have operand : p.reader.operand (p.ahead.dropWhile Char.isAlpha) = (radicand, q.ahead) :=
        ih trivial
      simp only [Routine.answer]
      rw [readCommand_name name (by decide), String.ofList_toList, if_neg (by decide), if_pos rfl,
        operand]
  | @commandName name p letters named other another =>
      have noFraction : String.ofList name ≠ "frac" := by
        intro same
        exact other (by rw [← same, String.toList_ofList])
      have noRoot : String.ofList name ≠ "sqrt" := by
        intro same
        exact another (by rw [← same, String.toList_ofList])
      simp only [Routine.answer]
      rw [readCommand_name letters named, if_neg noFraction, if_neg noRoot]
      rfl

/-- **A turn of a row goes forward**, unless nothing is ahead. -/
theorem turn_lt {closer : Option Char} {turn : Turn} (run : Runs (.turn closer) p turn q visits)
    (placed : closer = p.closers.head?) (more : p.ahead ≠ []) :
    q.ahead.length < p.ahead.length := by
  have answer := run.answer_eq placed
  have blanks := length_skipBlanks_le p.ahead
  cases found : skipBlanks p.ahead with
  | nil =>
      simp only [Routine.answer, found, Prod.mk.injEq] at answer
      rw [← answer.2]
      exact List.length_pos_iff.mpr more
  | cons c rest =>
      rw [found] at blanks
      by_cases closes : p.closers.head? = some c
      · simp only [Routine.answer, found, if_pos closes, Prod.mk.injEq] at answer
        rw [← answer.2]
        exact blanks
      · have first := p.reader.length_scriptable_lt c rest closes
        simp only [Routine.answer, found, if_neg closes, Prod.mk.injEq] at answer
        rw [← answer.2]
        exact Nat.lt_of_lt_of_le first blanks

/-- A turn goes back to the groups it found open, and takes something if there is something. -/
theorem turn_forward {closer : Option Char} {turn : Turn}
    (run : Runs (.turn closer) p turn q visits) (placed : closer = p.closers.head?) :
    q.closers = p.closers ∧ q.depth = p.depth ∧ q.ahead <:+ p.ahead ∧
      (p.ahead ≠ [] → q.ahead.length < p.ahead.length) := by
  have forward := run.turn_lt placed
  obtain ⟨rest, suffix, rfl⟩ := run.framed
  exact ⟨rfl, rfl, suffix, forward⟩

theorem ahead_ne_nil {closer : Option Char} {node : Node}
    (run : Runs (.turn closer) p (.child node) q visits) : p.ahead ≠ [] := by
  cases run with
  | turnReads found _ _ =>
      intro empty
      rw [empty] at found
      cases found

/-- No run leaves more ahead than it found. -/
theorem length_le (run : Runs routine p result q visits) : q.ahead.length ≤ p.ahead.length := by
  obtain ⟨rest, suffix, rfl⟩ := run.framed
  exact suffix.length_le

end Runs

/-! ## Termination -/

/-- Routines that visit each other before they take anything, in their order. -/
def Routine.rank : Routine → Nat
  | .nested | .command | .scripts _ _ => 0
  | .atom => 1
  | .operand | .scriptable => 2
  | .turn _ => 3
  | .row _ => 4
  | .group _ => 5

section Shorter

variable {cs rest : List Char} {c : Char}

theorem length_lt_of_eq_cons (found : cs = c :: rest) : rest.length < cs.length := by
  rw [found]
  exact Nat.lt_succ_self _

theorem length_lt_of_skipBlanks (found : skipBlanks cs = c :: rest) : rest.length < cs.length :=
  Nat.lt_of_lt_of_le (length_lt_of_eq_cons found) (length_skipBlanks_le cs)

theorem length_dropWhile_lt {p : Char → Bool} (found : cs = c :: rest) (first : p c) :
    (cs.dropWhile p).length < cs.length := by
  have others := (List.dropWhile_sublist p (l := rest)).length_le
  rw [found, List.dropWhile_cons_of_pos first]
  exact Nat.lt_succ_of_le others

end Shorter

/-- A command stops if the operands after its name do. -/
theorem exists_runs_command {p : Position} (operands : ∀ q : Position,
      q.ahead.length < p.ahead.length → ∃ node r visits, Runs .operand q node r visits) :
    ∃ node q visits, Runs .command p node q visits := by
  cases found : p.ahead with
  | nil => exact ⟨_, _, _, .commandEnds found⟩
  | cons c rest =>
      by_cases letter : c.isAlpha = true
      · have named : p.ahead.takeWhile Char.isAlpha ≠ [] := by simp [found, letter]
        have shorter := length_dropWhile_lt found letter
        by_cases fraction : p.ahead.takeWhile Char.isAlpha = "frac".toList
        · obtain ⟨numerator, q, visits, run⟩ :=
            operands (p.seek (p.ahead.dropWhile Char.isAlpha)) shorter
          obtain ⟨denominator, r, others, more⟩ :=
            operands q (Nat.lt_of_le_of_lt run.length_le shorter)
          exact ⟨_, _, _, .commandFraction fraction run more⟩
        · by_cases root : p.ahead.takeWhile Char.isAlpha = "sqrt".toList
          · obtain ⟨radicand, q, visits, run⟩ :=
              operands (p.seek (p.ahead.dropWhile Char.isAlpha)) shorter
            exact ⟨_, _, _, .commandRoot root run⟩
          · exact ⟨_, _, _, .commandName rfl named fraction root⟩
      · exact ⟨_, _, _, .commandSymbol found (by simpa using letter)⟩

/-- **Every routine stops.** -/
theorem exists_runs (routine : Routine) (p : Position) (placed : routine.Placed p) :
    ∃ result q visits, Runs routine p result q visits := by
  match routine with
  | .row closer =>
      obtain ⟨turn, q, visits, run⟩ := exists_runs (.turn closer) p placed
      cases turn with
      | stop closed => exact ⟨_, _, _, .rowStops run⟩
      | child node =>
          have shorter := run.turn_lt placed run.ahead_ne_nil
          obtain ⟨rest, -, rfl⟩ := run.framed
          obtain ⟨others, r, visits', more⟩ := exists_runs (.row closer) (p.seek rest) placed
          exact ⟨_, _, _, .rowGoesOn run more⟩
  | .turn closer =>
      cases found : skipBlanks p.ahead with
      | nil => exact ⟨_, _, _, .turnEnds found⟩
      | cons c rest =>
          by_cases closes : closer = some c
          · exact ⟨_, _, _, .turnCloses found closes⟩
          · have blanks := length_lt_of_skipBlanks found
            obtain ⟨node, q, visits, run⟩ := exists_runs .scriptable (p.seek (c :: rest)) trivial
            exact ⟨_, _, _, .turnReads found closes run⟩
  | .group closer =>
      obtain ⟨row, q, visits, run⟩ := exists_runs (.row (some closer)) (p.push closer) rfl
      exact ⟨_, _, _, .group run⟩
  | .scriptable =>
      obtain ⟨base, q, visits, run⟩ := exists_runs .atom p trivial
      have shorter := run.length_le
      obtain ⟨found, r, visits', more⟩ := exists_runs (.scripts none none) q trivial
      exact ⟨_, _, _, .scriptable run more⟩
  | .scripts sub sup =>
      cases found : skipBlanks p.ahead with
      | nil => exact ⟨_, _, _, .scriptsStop (by rw [found]; rintro c ⟨⟩)⟩
      | cons c rest =>
          by_cases mark : isMark c = true
          · have blanks := length_lt_of_skipBlanks found
            obtain ⟨node, q, visits, run⟩ := exists_runs .operand (p.seek rest) trivial
            have shorter : q.ahead.length ≤ rest.length := run.length_le
            obtain ⟨scripts, r, others, more⟩ := exists_runs
              (.scripts (if c = '^' then sub else some node)
                (if c = '^' then some node else sup)) q trivial
            exact ⟨_, _, _, .script found mark run more⟩
          · refine ⟨_, _, _, .scriptsStop ?_⟩
            rw [found]
            rintro d ⟨⟩
            simpa using mark
  | .operand =>
      have blanks := length_skipBlanks_le p.ahead
      obtain ⟨node, q, visits, run⟩ := exists_runs .atom (p.seek (skipBlanks p.ahead)) trivial
      exact ⟨_, _, _, .operand run⟩
  | .atom =>
      cases found : p.ahead with
      | nil => exact ⟨_, _, _, .atomEnds found⟩
      | cons c rest =>
          by_cases closes : p.closers.head? = some c
          · exact ⟨_, _, _, .atomMissing (by rw [found]; rfl) closes⟩
          · by_cases deep : maxNesting ≤ p.depth ∧ isOpener c
            · exact ⟨_, _, _, .atomTooDeep found closes deep.1 deep.2⟩
            · obtain ⟨node, q, visits, run⟩ :=
                exists_runs .nested p.deeper (ne_nil_of_eq_cons found)
              exact ⟨_, _, _, .atomNests found closes deep run⟩
  | .nested =>
      obtain ⟨c, rest, found⟩ := List.exists_cons_of_ne_nil placed
      have shorter := length_lt_of_eq_cons found
      by_cases opener : isOpener c = true
      · cases bracket : closer? c with
        | some closer =>
            obtain ⟨⟨children, closed⟩, q, visits, run⟩ :=
              exists_runs (.group closer) (p.seek rest) trivial
            exact ⟨_, _, _, .nestedGroup found bracket run⟩
        | none =>
            obtain rfl := eq_backslash_of_isOpener opener bracket
            obtain ⟨node, q, visits, run⟩ := exists_runs .command (p.seek rest) trivial
            exact ⟨_, _, _, .nestedCommand found run⟩
      · exact ⟨_, _, _, .nestedLeaf found (by simpa using opener)⟩
  | .command => exact exists_runs_command fun q shorter => exists_runs .operand q trivial
termination_by 6 * p.ahead.length + routine.rank
decreasing_by
  all_goals
    simp only [Routine.rank, Position.seek, Position.push, Position.deeper, List.length_cons] at *
  all_goals omega

/-! ## Whole texts -/

/-- The start of a text: no group is open. -/
def Position.start (source : String) : Position := ⟨source.toList, [], 0⟩

/-- The end of a text, with all groups left. -/
def Position.finish : Position := ⟨[], [], 0⟩

/-- A row without a closer ends at the end of the text. -/
theorem AtomReader.row_unclosed (reader : AtomReader none) (cs : List Char) :
    (reader.row cs).closed = false ∧ (reader.row cs).rest = [] := by
  cases found : skipBlanks cs with
  | nil => rw [reader.row_ended found]; exact ⟨rfl, rfl⟩
  | cons c rest =>
      have opens : none ≠ some c := by rintro ⟨⟩
      have blanks := length_skipBlanks_le cs
      have shorter := reader.length_scriptable_lt c rest opens
      rw [reader.row_next found opens]
      exact row_unclosed reader (reader.scriptable (c :: rest)).2
termination_by cs.length
decreasing_by
  rw [found] at blanks
  omega

/-- **Every text is read to its end.**  The machine has a run on it; and in each run the row ends
at the end of the text with the nodes that `parse` finds, no group is open there, and the depth is 0
again.  Every turn of every row was told the closer of the innermost group, leaves the closers and
the depth as they were, and goes forward unless nothing is ahead.  An atom at the closer of the
innermost group takes nothing. -/
theorem parse_runs (source : String) :
    (∃ result stop visits, Runs (.row none) (.start source) result stop visits) ∧
      (∀ result stop visits, Runs (.row none) (.start source) result stop visits →
        .row result.1 = parse source ∧ result.2 = false ∧ stop = .finish ∧
          ∀ closer before after, ⟨.turn closer, before, after⟩ ∈ visits →
            closer = before.closers.head? ∧ after.closers = before.closers ∧
              after.depth = before.depth ∧ after.ahead <:+ before.ahead ∧
              (before.ahead ≠ [] → after.ahead.length < before.ahead.length)) ∧
      ∀ (p : Position) (c : Char), p.ahead.head? = some c → p.closers.head? = some c →
        ∀ result stop visits, Runs .atom p result stop visits → result = .row [] ∧ stop = p := by
  refine ⟨exists_runs _ _ rfl, ?_, ?_⟩
  · rintro ⟨children, closed⟩ stop visits run
    obtain ⟨rest, -, rfl⟩ := run.framed
    have row : (AtomReader.withRoom maxNesting none).row source.toList = ⟨children, closed, rest⟩ :=
      Row.eq_of_answer (run.answer_eq rfl)
    obtain ⟨unclosed, ended⟩ :=
      (AtomReader.withRoom maxNesting none).row_unclosed source.toList
    rw [row] at unclosed ended
    refine ⟨congrArg (Node.row ∘ Row.children) row.symm, unclosed, ?_, ?_⟩
    · subst ended
      rfl
    · intro closer before after visited
      obtain ⟨placed, turn, visits, run⟩ := run.of_mem rfl _ visited
      exact ⟨placed, run.turn_forward placed⟩
  · intro p c found closes result stop visits run
    obtain ⟨tail, ahead⟩ := List.head?_eq_some_iff.mp found
    obtain ⟨rest, -, rfl⟩ := run.framed
    have missing : p.reader.read p.ahead = (.row [], p.ahead) := by
      rw [ahead]
      exact AtomReader.read_closer closes
    obtain ⟨rfl, rfl⟩ := Prod.mk.inj (missing.symm.trans (run.answer_eq trivial))
    exact ⟨rfl, rfl⟩

end Rendition.Math
