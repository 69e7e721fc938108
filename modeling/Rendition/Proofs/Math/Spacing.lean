/-
# Rendition.Proofs.Math.Spacing -- the kind and amount of blanks does not matter

Blanks only keep apart what stands on both sides of them, except for the one after a
backslash, which is what the backslash names.  So a longest run of blanks that does
not follow a backslash may be replaced by any other, and the one at the start of a
text may go (`Respaced`).

Such texts have one form in common, with a single space for each of these runs
(`squeeze`, `Respaced.squeeze_eq`).  A reader finds the same in a text and in its
squeezed form, and what it leaves of them is again a text and its squeezed form after
some character (`Agrees`).  So both are read to the same tree (`parse_respaced`).
-/
import Rendition.Proofs.Math.Context

namespace Rendition.Math

set_option autoImplicit false

open Rendition.Text

/-! ## Texts that differ in their blanks -/

/-- Runs of blanks of which one may stand for the other after a character, or at the start of a
text: the same after a backslash, any at the start, and elsewhere any but none. -/
structure RunsAlike (before : Option Char) (run other : List Char) : Prop where
  blank : ∀ c ∈ run, isBlank c
  alsoBlank : ∀ c ∈ other, isBlank c
  kept : before = some '\\' → run = other
  present : before ≠ none → (run = [] ↔ other = [])

/-- Texts that stand after the same character, or at the start, and differ only in their longest
runs of blanks. -/
inductive Respaced : Option Char → List Char → List Char → Prop where
  | ended {before : Option Char} {run other : List Char} :
      RunsAlike before run other → Respaced before run other
  | solid {before : Option Char} {run other cs ds : List Char} {c : Char} :
      RunsAlike before run other → isBlank c = false → Respaced (some c) cs ds →
      Respaced before (run ++ c :: cs) (other ++ c :: ds)

/-- The text with a space for every longest run of blanks, but without the run at its start if it
stands after no character, and with the runs after a backslash as they are. -/
def squeeze : Option Char → List Char → List Char
  | _, [] => []
  | before, c :: cs =>
      if isBlank c then
        if before = some '\\' then c :: squeeze before cs
        else if before = none then squeeze none cs
        else ' ' :: squeeze none cs
      else c :: squeeze (some c) cs

section Squeeze

variable {before : Option Char} {b c : Char} {cs : List Char}

theorem squeeze_solid (solid : isBlank c = false) :
    squeeze before (c :: cs) = c :: squeeze (some c) cs := by
  simp [squeeze, solid]

theorem squeeze_start (blank : isBlank c) : squeeze none (c :: cs) = squeeze none cs := by
  simp [squeeze, blank]

theorem squeeze_backslash (blank : isBlank c) :
    squeeze (some '\\') (c :: cs) = c :: squeeze (some '\\') cs := by
  simp [squeeze, blank]

theorem squeeze_blank (blank : isBlank c) (letter : b ≠ '\\') :
    squeeze (some b) (c :: cs) = ' ' :: squeeze none cs := by
  simp [squeeze, blank, letter]

theorem skipBlanks_cons_of_isBlank (blank : isBlank c) : skipBlanks (c :: cs) = skipBlanks cs := by
  simp [skipBlanks, blank]

/-- What stands after a character begins with a blank if its squeezed form does. -/
theorem exists_squeeze_blank (b : Char) (cs : List Char) (blank : isBlank c) :
    ∃ d rest, squeeze (some b) (c :: cs) = d :: rest ∧ isBlank d := by
  by_cases letter : b = '\\'
  · subst letter
    exact ⟨_, _, squeeze_backslash blank, blank⟩
  · exact ⟨_, _, squeeze_blank blank letter, by decide⟩

/-- A solid character in front of a squeezed text is in front of the text. -/
theorem exists_of_squeeze_eq_cons {rest : List Char} (solid : isBlank c = false)
    (same : squeeze (some b) cs = c :: rest) : ∃ ds, cs = c :: ds ∧ rest = squeeze (some c) ds := by
  cases cs with
  | nil => cases same
  | cons d ds =>
      by_cases blank : isBlank d = true
      · obtain ⟨e, others, squeezed, white⟩ := exists_squeeze_blank b ds blank
        rw [squeezed] at same
        obtain ⟨rfl, -⟩ := List.cons.inj same
        exact absurd (solid.symm.trans white) Bool.false_ne_true
      · rw [squeeze_solid (by simpa using blank)] at same
        obtain ⟨rfl, rfl⟩ := List.cons.inj same
        exact ⟨ds, rfl, rfl⟩

/-- The blanks at the start of a squeezed text are those that are not kept after no character. -/
theorem skipBlanks_squeeze (before : Option Char) (cs : List Char) :
    skipBlanks (squeeze before cs) = squeeze none cs := by
  induction cs generalizing before with
  | nil => rfl
  | cons c cs ih =>
      cases blank : isBlank c with
      | false =>
          rw [squeeze_solid blank, squeeze_solid blank, skipBlanks_cons_of_not_isBlank _ blank]
      | true =>
          rw [squeeze_start blank]
          cases before with
          | none => rw [squeeze_start blank, ih]
          | some b =>
              by_cases letter : b = '\\'
              · subst letter
                rw [squeeze_backslash blank, skipBlanks_cons_of_isBlank blank, ih]
              · rw [squeeze_blank blank letter, skipBlanks_cons_of_isBlank (by decide), ih]

theorem squeeze_skipBlanks (cs : List Char) : squeeze none (skipBlanks cs) = squeeze none cs := by
  induction cs with
  | nil => rfl
  | cons c cs ih =>
      cases blank : isBlank c with
      | false => rw [skipBlanks_cons_of_not_isBlank _ blank]
      | true => rw [squeeze_start blank, skipBlanks_cons_of_isBlank blank, ih]

theorem skipBlanks_squeeze_nil (before : Option Char) (found : skipBlanks cs = []) :
    skipBlanks (squeeze before cs) = [] := by
  rw [skipBlanks_squeeze, ← squeeze_skipBlanks, found]
  rfl

/-- Behind the blanks a squeezed text goes on as the text does. -/
theorem skipBlanks_squeeze_cons (before : Option Char) {rest : List Char}
    (found : skipBlanks cs = c :: rest) :
    skipBlanks (squeeze before cs) = c :: squeeze (some c) rest := by
  rw [skipBlanks_squeeze, ← squeeze_skipBlanks, found,
    squeeze_solid (not_isBlank_of_skipBlanks found)]

end Squeeze

/-! ## The form in common -/

/-- A run is squeezed by itself. -/
theorem squeeze_append {before : Option Char} {run rest : List Char} (blank : ∀ c ∈ run, isBlank c)
    (solid : ∀ c ∈ rest.head?, isBlank c = false) :
    squeeze before (run ++ rest) = squeeze before run ++ squeeze none rest := by
  induction run generalizing before with
  | nil =>
      cases rest with
      | nil => rfl
      | cons c rest =>
          rw [List.nil_append, squeeze_solid (solid c rfl), squeeze_solid (solid c rfl)]
          rfl
  | cons c run ih =>
      obtain ⟨first, others⟩ := List.forall_mem_cons.mp blank
      rw [List.cons_append]
      cases before with
      | none => rw [squeeze_start first, squeeze_start first, ih others]
      | some b =>
          by_cases letter : b = '\\'
          · subst letter
            rw [squeeze_backslash first, squeeze_backslash first, ih others, List.cons_append]
          · rw [squeeze_blank first letter, squeeze_blank first letter, ih others, List.cons_append]

theorem squeeze_start_eq_nil {run : List Char} (blank : ∀ c ∈ run, isBlank c) :
    squeeze none run = [] := by
  have unseen : skipBlanks run = [] := List.dropWhile_eq_nil_iff.mpr blank
  rw [← squeeze_skipBlanks, unseen]
  rfl

/-- Runs that may stand for each other are squeezed to the same. -/
theorem RunsAlike.squeeze_eq {before : Option Char} {run other : List Char}
    (alike : RunsAlike before run other) : squeeze before run = squeeze before other := by
  cases before with
  | none => rw [squeeze_start_eq_nil alike.blank, squeeze_start_eq_nil alike.alsoBlank]
  | some b =>
      by_cases letter : b = '\\'
      · rw [alike.kept (congrArg some letter)]
      · cases run with
        | nil => rw [(alike.present (by rintro ⟨⟩)).mp rfl]
        | cons c run =>
            cases other with
            | nil => exact absurd ((alike.present (by rintro ⟨⟩)).mpr rfl) (List.cons_ne_nil c run)
            | cons d other =>
                obtain ⟨first, others⟩ := List.forall_mem_cons.mp alike.blank
                obtain ⟨first', others'⟩ := List.forall_mem_cons.mp alike.alsoBlank
                rw [squeeze_blank first letter, squeeze_blank first' letter,
                  squeeze_start_eq_nil others, squeeze_start_eq_nil others']

/-- **Texts that differ only in their runs of blanks have one squeezed form.** -/
theorem Respaced.squeeze_eq {before : Option Char} {cs ds : List Char}
    (respaced : Respaced before cs ds) : squeeze before cs = squeeze before ds := by
  induction respaced with
  | ended alike => exact alike.squeeze_eq
  | @solid _ _ _ _ _ c alike solid _ ih =>
      have start : ∀ rest, ∀ d ∈ (c :: rest).head?, isBlank d = false := by
        rintro rest d ⟨⟩
        exact solid
      rw [squeeze_append alike.blank (start _), squeeze_append alike.alsoBlank (start _),
        alike.squeeze_eq, squeeze_solid solid, squeeze_solid solid, ih]

/-! ### Conversely -/

theorem squeeze_backslash_eq {run : List Char} (blank : ∀ c ∈ run, isBlank c) :
    squeeze (some '\\') run = run := by
  induction run with
  | nil => rfl
  | cons c run ih =>
      obtain ⟨first, others⟩ := List.forall_mem_cons.mp blank
      rw [squeeze_backslash first, ih others]

theorem squeeze_eq_nil_iff {b : Char} {run : List Char} (blank : ∀ c ∈ run, isBlank c) :
    squeeze (some b) run = [] ↔ run = [] := by
  cases run with
  | nil => simp [squeeze]
  | cons c run =>
      obtain ⟨d, rest, squeezed, -⟩ := exists_squeeze_blank b run (blank c List.mem_cons_self)
      simp [squeezed]

theorem runsAlike_of_squeeze_eq {before : Option Char} {run other : List Char}
    (blank : ∀ c ∈ run, isBlank c) (alsoBlank : ∀ c ∈ other, isBlank c)
    (same : squeeze before run = squeeze before other) : RunsAlike before run other where
  blank := blank
  alsoBlank := alsoBlank
  kept after := by
    subst after
    rwa [squeeze_backslash_eq blank, squeeze_backslash_eq alsoBlank] at same
  present after := by
    obtain ⟨b, rfl⟩ := Option.ne_none_iff_exists'.mp after
    rw [← squeeze_eq_nil_iff (b := b) blank, same, squeeze_eq_nil_iff alsoBlank]

/-- Every text is a run of blanks in front of what is left without them. -/
theorem exists_run (cs : List Char) : ∃ run, cs = run ++ skipBlanks cs ∧ ∀ c ∈ run, isBlank c :=
  ⟨cs.takeWhile isBlank, List.takeWhile_append_dropWhile.symm,
    List.all_eq_true.mp List.all_takeWhile⟩

theorem squeeze_eq_of_skipBlanks {before : Option Char} {cs run : List Char}
    (split : cs = run ++ skipBlanks cs) (blank : ∀ c ∈ run, isBlank c) :
    squeeze before cs = squeeze before run ++ squeeze none cs := by
  rw [← squeeze_skipBlanks cs, ← squeeze_append blank (head_skipBlanks cs), ← split]

/-- Texts that are squeezed to the same differ in their blanks only. -/
theorem respaced_of_squeeze_eq {before : Option Char} {cs ds : List Char}
    (same : squeeze before cs = squeeze before ds) : Respaced before cs ds := by
  obtain ⟨run, split, blank⟩ := exists_run cs
  obtain ⟨other, split', blank'⟩ := exists_run ds
  have starts : squeeze none cs = squeeze none ds := by
    rw [← skipBlanks_squeeze before cs, same, skipBlanks_squeeze]
  have runs : RunsAlike before run other := by
    refine runsAlike_of_squeeze_eq blank blank' ((List.append_left_inj (squeeze none ds)).mp ?_)
    rw [← squeeze_eq_of_skipBlanks split' blank', ← same, squeeze_eq_of_skipBlanks split blank,
      starts]
  rw [← squeeze_skipBlanks cs, ← squeeze_skipBlanks ds] at starts
  cases found : skipBlanks cs with
  | nil =>
      cases found' : skipBlanks ds with
      | nil =>
          rw [split, split', found, found', List.append_nil, List.append_nil]
          exact .ended runs
      | cons d others =>
          rw [found, found', squeeze_solid (not_isBlank_of_skipBlanks found')] at starts
          cases starts
  | cons c rest =>
      cases found' : skipBlanks ds with
      | nil =>
          rw [found, found', squeeze_solid (not_isBlank_of_skipBlanks found)] at starts
          cases starts
      | cons d others =>
          have solid := not_isBlank_of_skipBlanks found
          rw [found, found', squeeze_solid solid,
            squeeze_solid (not_isBlank_of_skipBlanks found')] at starts
          obtain ⟨rfl, after⟩ := List.cons.inj starts
          have shorter : rest.length < cs.length := by
            have blanks := length_skipBlanks_le cs
            rw [found, List.length_cons] at blanks
            omega
          rw [split, split', found, found']
          exact .solid runs solid (respaced_of_squeeze_eq after)
termination_by cs.length

/-- Texts differ only in their runs of blanks exactly if they have one squeezed form. -/
theorem respaced_iff (before : Option Char) (cs ds : List Char) :
    Respaced before cs ds ↔ squeeze before cs = squeeze before ds :=
  ⟨Respaced.squeeze_eq, respaced_of_squeeze_eq⟩

instance (before : Option Char) (cs ds : List Char) : Decidable (Respaced before cs ds) :=
  decidable_of_iff _ (respaced_iff before cs ds).symm

/-! ## Leaves and commands -/

/-- What is read off a squeezed text is what is read off the text, and what is left of it is what is
left of the text, squeezed. -/
def Agrees {α : Type} (squeezed result : α × List Char) : Prop :=
  squeezed.1 = result.1 ∧ ∃ before, squeezed.2 = squeeze before result.2

/-- A scan for characters that are no enders is not stopped by squeezing. -/
theorem span_squeeze {p : Char → Bool} (foreign : enders.any p = false) (b : Char)
    (cs : List Char) :
    (squeeze (some b) cs).takeWhile p = cs.takeWhile p ∧
      ∃ d, (squeeze (some b) cs).dropWhile p = squeeze (some d) (cs.dropWhile p) := by
  have outside : ∀ c, isBlank c → p c = false := fun c blank =>
    eq_false_of_any foreign (mem_enders (.inl blank))
  induction cs generalizing b with
  | nil => exact ⟨rfl, b, rfl⟩
  | cons c cs ih =>
      cases blank : isBlank c with
      | true =>
          obtain ⟨d, rest, squeezed, white⟩ := exists_squeeze_blank b cs blank
          refine ⟨?_, b, ?_⟩
          · simp [squeezed, outside d white, outside c blank]
          · simp [squeezed, outside d white, outside c blank]
      | false =>
          obtain ⟨taken, d, left⟩ := ih c
          rw [squeeze_solid blank]
          by_cases holds : p c = true
          · exact ⟨by simp [holds, taken], d, by simp [holds, left]⟩
          · exact ⟨by simp [holds], b, by simp [holds, squeeze_solid blank]⟩

/-- A point belongs to the number if a digit follows it. -/
theorem readNumber_fraction {cs rest : List Char} {d : Char}
    (found : cs.dropWhile Char.isDigit = '.' :: d :: rest) (digit : d.isDigit) :
    readNumber cs = (cs.takeWhile Char.isDigit ++ '.' :: (d :: rest).takeWhile Char.isDigit,
      (d :: rest).dropWhile Char.isDigit) := by
  simp only [readNumber, found, digit, ↓reduceIte]

theorem readNumber_whole {cs : List Char}
    (whole : ∀ d rest, cs.dropWhile Char.isDigit = '.' :: d :: rest → d.isDigit = false) :
    readNumber cs = (cs.takeWhile Char.isDigit, cs.dropWhile Char.isDigit) := by
  simp only [readNumber]
  split
  · rename_i d rest found
    rw [if_neg (by simp [whole d rest found]), found]
  · rfl

theorem agrees_readNumber (b : Char) (cs : List Char) :
    Agrees (readNumber (squeeze (some b) cs)) (readNumber cs) := by
  obtain ⟨digits, e, left⟩ := span_squeeze foreign_isDigit b cs
  by_cases fraction : ∃ d rest, cs.dropWhile Char.isDigit = '.' :: d :: rest ∧ d.isDigit
  · obtain ⟨d, rest, found, digit⟩ := fraction
    have solid : isBlank d = false := by
      cases blank : isBlank d with
      | false => rfl
      | true =>
          have foreign := eq_false_of_any foreign_isDigit (mem_enders (.inl blank))
          exact absurd (foreign.symm.trans digit) Bool.false_ne_true
    have squeezed : (squeeze (some b) cs).dropWhile Char.isDigit =
        '.' :: d :: squeeze (some d) rest := by
      rw [left, found, squeeze_solid (by decide), squeeze_solid solid]
    obtain ⟨digits', f, left'⟩ := span_squeeze foreign_isDigit '.' (d :: rest)
    rw [squeeze_solid solid] at digits' left'
    rw [readNumber_fraction found digit, readNumber_fraction squeezed digit, digits, digits', left']
    exact ⟨rfl, some f, rfl⟩
  · have whole : ∀ d rest, cs.dropWhile Char.isDigit = '.' :: d :: rest → d.isDigit = false :=
      fun d rest found => by simpa using fun digit => fraction ⟨d, rest, found, digit⟩
    have squeezed : ∀ d rest, (squeeze (some b) cs).dropWhile Char.isDigit = '.' :: d :: rest →
        d.isDigit = false := by
      intro d rest found
      rw [left] at found
      obtain ⟨ds, split, after⟩ := exists_of_squeeze_eq_cons (by decide) found
      cases blank : isBlank d with
      | true => exact eq_false_of_any foreign_isDigit (mem_enders (.inl blank))
      | false =>
          obtain ⟨es, rfl, -⟩ := exists_of_squeeze_eq_cons blank after.symm
          exact whole d es split
    rw [readNumber_whole whole, readNumber_whole squeezed, digits, left]
    exact ⟨rfl, some e, rfl⟩

theorem agrees_readLeaf {c : Char} (solid : isBlank c = false) (cs : List Char) :
    Agrees (readLeaf c (squeeze (some c) cs)) (readLeaf c cs) := by
  by_cases digit : c.isDigit = true
  · obtain ⟨digits, before, left⟩ := agrees_readNumber c (c :: cs)
    rw [squeeze_solid solid] at digits left
    simp only [readLeaf, digit, ↓reduceIte, digits, left]
    exact ⟨rfl, before, rfl⟩
  · by_cases letter : isAlphabetic c = true
    · obtain ⟨name, d, left⟩ := span_squeeze foreign_isAlphabetic c cs
      simp only [readLeaf, digit, letter, ↓reduceIte, List.takeWhile_cons, name, left]
      exact ⟨rfl, some d, rfl⟩
    · by_cases operator : isOperator c = true
      · simp only [readLeaf, digit, letter, operator, ↓reduceIte]
        exact ⟨rfl, some c, rfl⟩
      · simp only [readLeaf, digit, letter, operator]
        exact ⟨rfl, some c, rfl⟩

theorem foreign_isAlpha : enders.any Char.isAlpha = false := by decide +kernel

/-- After a backslash a blank is kept, since it is what the backslash names. -/
theorem agrees_readCommand {operand : List Char → Node × List Char}
    (operands : ∀ before cs, Agrees (operand (squeeze before cs)) (operand cs)) (cs : List Char) :
    Agrees (readCommand operand (squeeze (some '\\') cs)) (readCommand operand cs) := by
  cases cs with
  | nil => exact ⟨rfl, none, rfl⟩
  | cons c cs =>
      by_cases letter : c.isAlpha = true
      · obtain ⟨name, d, left⟩ := span_squeeze foreign_isAlpha '\\' (c :: cs)
        have named : (c :: cs).takeWhile Char.isAlpha ≠ [] := by simp [letter]
        rw [readCommand_name name named, readCommand_name rfl named, left]
        obtain ⟨first, before, after⟩ := operands (some d) ((c :: cs).dropWhile Char.isAlpha)
        obtain ⟨second, before', after'⟩ :=
          operands before (operand ((c :: cs).dropWhile Char.isAlpha)).2
        simp only [first, after, second, after']
        split
        · exact ⟨rfl, before', rfl⟩
        · split
          · exact ⟨rfl, before, rfl⟩
          · exact ⟨rfl, some d, rfl⟩
      · have symbol : c.isAlpha = false := by simpa using letter
        cases blank : isBlank c with
        | true =>
            rw [squeeze_backslash blank, readCommand_symbol symbol, readCommand_symbol symbol]
            exact ⟨rfl, some '\\', rfl⟩
        | false =>
            rw [squeeze_solid blank, readCommand_symbol symbol, readCommand_symbol symbol]
            exact ⟨rfl, some c, rfl⟩

/-! ## Scripts and rows -/

/-- The row that is read off a squeezed text and the one that is read off the text. -/
def Row.Agrees (squeezed row : Row) : Prop :=
  squeezed.children = row.children ∧ squeezed.closed = row.closed ∧
    ∃ before, squeezed.rest = squeeze before row.rest

section Rows

variable {close : Option Char} {reader : AtomReader close}

/-- Atoms are read where the blanks in front of them are skipped. -/
def AtomsAgree (reader : AtomReader close) : Prop :=
  ∀ cs, (∀ c ∈ cs.head?, isBlank c = false) →
    Agrees (reader.read (squeeze none cs)) (reader.read cs)

theorem AtomsAgree.operand (atoms : AtomsAgree reader) (before : Option Char) (cs : List Char) :
    Agrees (reader.operand (squeeze before cs)) (reader.operand cs) := by
  have agrees := atoms (skipBlanks cs) (head_skipBlanks cs)
  rw [squeeze_skipBlanks] at agrees
  rw [AtomReader.operand, AtomReader.operand, skipBlanks_squeeze]
  exact agrees

theorem AtomsAgree.scripts (atoms : AtomsAgree reader) (sub sup : Option Node)
    (before : Option Char) (cs : List Char) :
    Agrees (reader.scripts sub sup (squeeze before cs)) (reader.scripts sub sup cs) := by
  cases found : skipBlanks cs with
  | nil =>
      have bare : ∀ c ∈ (skipBlanks cs).head?, isMark c = false := by
        rw [found]
        rintro c ⟨⟩
      have squeezed := skipBlanks_squeeze_nil before found
      rw [reader.scripts_done bare, reader.scripts_done (by rw [squeezed]; rintro c ⟨⟩), squeezed,
        found]
      exact ⟨rfl, none, rfl⟩
  | cons c rest =>
      have squeezed := skipBlanks_squeeze_cons before found
      by_cases mark : isMark c = true
      · have shorter : (reader.operand rest).2.length < cs.length := by
          have blanks := length_skipBlanks_le cs
          have operand := reader.length_operand_le rest
          rw [found, List.length_cons] at blanks
          omega
        obtain ⟨node, before', after⟩ := atoms.operand (some c) rest
        rw [reader.scripts_mark found mark, reader.scripts_mark squeezed mark, node, after]
        exact atoms.scripts _ _ before' (reader.operand rest).2
      · have bare : ∀ rest, ∀ d ∈ (c :: rest).head?, isMark d = false := by
          rintro rest d ⟨⟩
          simpa using mark
        rw [reader.scripts_done (squeezed ▸ bare _), reader.scripts_done (found ▸ bare rest),
          squeezed, found]
        exact ⟨rfl, none, (squeeze_solid (not_isBlank_of_skipBlanks found)).symm⟩
termination_by cs.length

/-- A reader whose atoms agree reads the same row off a squeezed text. -/
theorem AtomsAgree.row (atoms : AtomsAgree reader) (before : Option Char) (cs : List Char) :
    (reader.row (squeeze before cs)).Agrees (reader.row cs) := by
  cases found : skipBlanks cs with
  | nil =>
      rw [reader.row_ended found, reader.row_ended (skipBlanks_squeeze_nil before found)]
      exact ⟨rfl, rfl, none, rfl⟩
  | cons c rest =>
      have squeezed := skipBlanks_squeeze_cons before found
      by_cases closes : close = some c
      · rw [reader.row_closed found closes, reader.row_closed squeezed closes]
        exact ⟨rfl, rfl, some c, rfl⟩
      · have shorter : (reader.scriptable (c :: rest)).2.length < cs.length := by
          have blanks := length_skipBlanks_le cs
          have first := reader.length_scriptable_lt c rest closes
          rw [found] at blanks
          omega
        have solid := not_isBlank_of_skipBlanks found
        obtain ⟨base, before', after⟩ := atoms (c :: rest) (by rintro d ⟨⟩; exact solid)
        rw [squeeze_solid solid] at base after
        obtain ⟨scripts, before'', after'⟩ :=
          atoms.scripts none none before' (reader.read (c :: rest)).2
        have first : reader.scriptable (c :: squeeze (some c) rest) =
            ((reader.scriptable (c :: rest)).1,
              squeeze before'' (reader.scriptable (c :: rest)).2) := by
          rw [reader.scriptable_eq, reader.scriptable_eq, base, after, scripts, after']
        obtain ⟨others, closed, left⟩ :=
          atoms.row before'' (reader.scriptable (c :: rest)).2
        rw [reader.row_next found closes, reader.row_next squeezed closes, first]
        exact ⟨congrArg ((reader.scriptable (c :: rest)).1 :: ·) others, closed, left⟩
termination_by cs.length

end Rows

/-! ## Whole texts -/

theorem Row.Agrees.groupNode_eq {squeezed row : Row} (agrees : squeezed.Agrees row)
    (opener closer : Char) : groupNode opener closer squeezed = groupNode opener closer row := by
  rw [groupNode, groupNode, bracketed, bracketed, agrees.1, agrees.2.1]

/-- **An atom is read the same from a squeezed text.** -/
theorem atomsAgree (n : Nat) (close : Option Char) :
    AtomsAgree (AtomReader.withRoom n close) := by
  intro cs
  induction n, close, cs using AtomReader.read_induction with
  | ended n close =>
      intro _
      exact ⟨rfl, none, by rw [squeeze, AtomReader.read_nil]; rfl⟩
  | missing n c cs =>
      intro solid
      rw [squeeze_solid (solid c rfl), AtomReader.read_closer rfl, AtomReader.read_closer rfl]
      exact ⟨rfl, none, (squeeze_solid (solid c rfl)).symm⟩
  | leaf n close c cs opens simple =>
      intro solid
      rw [squeeze_solid (solid c rfl), AtomReader.read_leaf opens simple,
        AtomReader.read_leaf opens simple]
      exact agrees_readLeaf (solid c rfl) cs
  | tooDeep close c cs opens opener =>
      intro solid
      rw [squeeze_solid (solid c rfl), AtomReader.read_tooDeep opens opener,
        AtomReader.read_tooDeep opens opener]
      exact ⟨rfl, some c, rfl⟩
  | group n close c closer cs opens bracket atoms =>
      intro solid
      have row := AtomsAgree.row (atoms (some closer)) (some c) cs
      rw [squeeze_solid (solid c rfl), AtomReader.read_group opens bracket,
        AtomReader.read_group opens bracket, row.groupNode_eq]
      exact ⟨rfl, row.2.2⟩
  | command n close cs opens atoms =>
      intro solid
      rw [squeeze_solid (solid '\\' rfl), AtomReader.read_command opens,
        AtomReader.read_command opens]
      exact agrees_readCommand (AtomsAgree.operand (atoms close)) cs

/-- A text is read as its squeezed form is. -/
theorem parseRow_squeeze (cs : List Char) : parseRow (squeeze none cs) = parseRow cs :=
  ((atomsAgree maxNesting none).row none cs).1

/-- **The kind and amount of blanks does not matter.**  Texts that differ only in their longest runs
of blanks, none of which is missing in one of them except at the start, and which are the same after
a backslash, are read to the same tree. -/
theorem parse_respaced (source other : String)
    (respaced : Respaced none source.toList other.toList) : parse source = parse other := by
  rw [parse, parse, ← parseRow_squeeze source.toList, ← parseRow_squeeze other.toList,
    respaced.squeeze_eq]

namespace Example

/-- A run at the start that goes, blanks of other kinds and amounts before an operand, a closer and
a point, and one after a backslash that is kept. -/
theorem parse_respaced_fraction :
    Respaced none " \\frac 1 \x7b x^  2\t\x7d + 3 .5 \\  y ".toList
        "\\frac\n1\t\t\x7b  x^\u00a02 \x7d +\n3  .5 \\  y\n\n".toList ∧
      parse " \\frac 1 \x7b x^  2\t\x7d + 3 .5 \\  y " =
        parse "\\frac\n1\t\t\x7b  x^\u00a02 \x7d +\n3  .5 \\  y\n\n" := by
  have respaced : Respaced none " \\frac 1 \x7b x^  2\t\x7d + 3 .5 \\  y ".toList
      "\\frac\n1\t\t\x7b  x^\u00a02 \x7d +\n3  .5 \\  y\n\n".toList := by decide
  exact ⟨respaced, parse_respaced _ _ respaced⟩

end Example

end Rendition.Math
