/-
# Rendition.Proofs.Math.Recovery -- calls are recovered from what they are expanded to

In an expanded text every command stands for a call, if the text had no commands and
no braces before.  `restore` reads it once and writes the calls again: it remembers
of which commands the operands are open, and so knows for each closing brace whether
a comma or a parenthesis stood there.

All that is lost are blanks around the arguments of fractions: between the source and
what is restored the relation is `Tightens`, which drops nothing else.  So two sources
that are expanded to one text differ in blanks alone (`ofAsciiMath_recovers`).

What is expanded is restored in front of any text and inside any commands, and its
braces match; `Recovers` says this of a text and its expansion.  It holds of a call if
it holds of the arguments (`Recovers.call`), so the depth at which expansion stops
does not matter.
-/
import Rendition.Proofs.Math.Extent

namespace Rendition.Math

set_option autoImplicit false

open Rendition.Text

/-! ## Calls restored -/

/-- An operand in braces that is not closed yet. -/
inductive Operand where
  | radicand
  | numerator
  | denominator
  deriving DecidableEq

/-- The text with its commands written as calls; `pending` are the operands that are open, the
innermost first. -/
def restore : List Operand → List Char → List Char
  | pending, '\\' :: 's' :: 'q' :: 'r' :: 't' :: '\x7b' :: cs =>
      's' :: 'q' :: 'r' :: 't' :: '(' :: restore (.radicand :: pending) cs
  | pending, '\\' :: 'f' :: 'r' :: 'a' :: 'c' :: '\x7b' :: cs =>
      'f' :: 'r' :: 'a' :: 'c' :: '(' :: restore (.numerator :: pending) cs
  | .radicand :: pending, '\x7d' :: cs => ')' :: restore pending cs
  | .numerator :: pending, '\x7d' :: '\x7b' :: cs => ',' :: restore (.denominator :: pending) cs
  | .denominator :: pending, '\x7d' :: cs => ')' :: restore pending cs
  | pending, c :: cs => c :: restore pending cs
  | _, [] => []

/-- A text, and the same text without some of the blanks at the ends of arguments of fractions. -/
inductive Tightens : List Char → List Char → Prop where
  | nil : Tightens [] []
  | char {c : Char} {cs tight : List Char} : Tightens cs tight → Tightens (c :: cs) (c :: tight)
  | frac {numerator denominator cs above below tight : List Char} :
      isBalanced '(' ')' numerator → isBalanced '(' ')' denominator →
      splitArguments? 0 numerator = none →
      Tightens (trim numerator) above → Tightens (trim denominator) below → Tightens cs tight →
      Tightens ("frac(".toList ++ (numerator ++ ',' :: (denominator ++ ')' :: cs)))
        ("frac(".toList ++ (above ++ ',' :: (below ++ ')' :: tight)))

/-- Whether a character begins no command and no operand and ends none. -/
def isBare (c : Char) : Bool := c ∉ "\\\x7b\x7d".toList

theorem isBare_iff {c : Char} : isBare c ↔ c ≠ '\\' ∧ c ≠ '\x7b' ∧ c ≠ '\x7d' := by
  simp [isBare]

theorem restore_bare {c : Char} (bare : isBare c) (pending : List Operand) (cs : List Char) :
    restore pending (c :: cs) = c :: restore pending cs := by
  obtain ⟨command, -, closes⟩ := isBare_iff.mp bare
  rw [restore]
  · exact fun _ same _ => command same
  · exact fun _ same _ => command same
  · exact fun _ _ same => closes same
  · exact fun _ _ _ same _ => closes same
  · exact fun _ _ same => closes same

/-- A text that is restored to another wherever it stands. -/
def Restores (text tight : List Char) : Prop :=
  ∀ pending rest, restore pending (text ++ rest) = tight ++ restore pending rest

/-- A root is restored to its call, its operand within. -/
theorem Restores.root {text tight : List Char} (operand : Restores text tight) :
    Restores ('\\' :: ("sqrt\x7b".toList ++ (text ++ ['\x7d'])))
      ("sqrt(".toList ++ (tight ++ [')'])) := by
  intro pending rest
  calc restore pending ('\\' :: ("sqrt\x7b".toList ++ (text ++ ['\x7d'])) ++ rest)
    _ = restore pending ('\\' :: ("sqrt\x7b".toList ++ (text ++ '\x7d' :: rest))) := by simp
    _ = "sqrt(".toList ++ restore (.radicand :: pending) (text ++ '\x7d' :: rest) := rfl
    _ = "sqrt(".toList ++ (tight ++ ')' :: restore pending rest) := by
        rw [operand, restore]
    _ = "sqrt(".toList ++ (tight ++ [')']) ++ restore pending rest := by simp

/-- A fraction is restored to its call, with a comma between its operands. -/
theorem Restores.fraction {text tight other more : List Char} (numerator : Restores text tight)
    (denominator : Restores other more) :
    Restores
      ('\\' :: ("frac\x7b".toList ++ (text ++ '\x7d' :: '\x7b' :: (other ++ ['\x7d']))))
      ("frac(".toList ++ (tight ++ ',' :: (more ++ [')']))) := by
  intro pending rest
  calc restore pending
        ('\\' :: ("frac\x7b".toList ++ (text ++ '\x7d' :: '\x7b' :: (other ++ ['\x7d']))) ++ rest)
    _ = restore pending
          ('\\' :: ("frac\x7b".toList ++
            (text ++ '\x7d' :: '\x7b' :: (other ++ '\x7d' :: rest)))) :=
        by simp
    _ = "frac(".toList ++
          restore (.numerator :: pending) (text ++ '\x7d' :: '\x7b' :: (other ++ '\x7d' :: rest)) :=
        rfl
    _ = "frac(".toList ++
          (tight ++ ',' :: restore (.denominator :: pending) (other ++ '\x7d' :: rest)) := by
        rw [numerator, restore]
    _ = "frac(".toList ++ (tight ++ ',' :: (more ++ ')' :: restore pending rest)) := by
        rw [denominator, restore]
    _ = "frac(".toList ++ (tight ++ ',' :: (more ++ [')'])) ++ restore pending rest := by simp

/-! ## Blanks -/

theorem Tightens.refl (cs : List Char) : Tightens cs cs := by
  induction cs with
  | nil => exact .nil
  | cons c cs ih => exact .char ih

/-- Blanks are left out of two texts, each on its own. -/
theorem Tightens.append {cs tight rest others : List Char} (front : Tightens cs tight)
    (back : Tightens rest others) : Tightens (cs ++ rest) (tight ++ others) := by
  induction front with
  | nil => exact back
  | char _ ih => exact .char ih
  | frac above below within first second _ _ _ ih =>
      simpa only [List.append_assoc, List.cons_append] using
        .frac above below within first second ih

/-- Nothing but blanks is dropped. -/
theorem Tightens.filter_eq {cs tight : List Char} (tightens : Tightens cs tight) :
    (cs.filter fun c => !isBlank c) = tight.filter fun c => !isBlank c := by
  induction tightens with
  | nil => rfl
  | char _ ih => rw [List.filter_cons, List.filter_cons, ih]
  | frac _ _ _ _ _ _ above below ih =>
      rw [filter_trim] at above below
      simp only [List.filter_append, List.filter_cons, above, below, ih]

/-! ## What is recovered -/

/-- The expansion of a text is restored to that text, but for blanks, wherever it stands; and its
braces match. -/
def Recovers (cs text : List Char) : Prop :=
  ∃ tight, Tightens cs tight ∧ Restores text tight ∧ isBalanced '\x7b' '\x7d' text

theorem recovers_nil : Recovers [] [] := ⟨[], .nil, fun _ _ => rfl, rfl⟩

/-- Texts that are recovered are recovered one after the other. -/
theorem Recovers.append {cs text rest others : List Char} (front : Recovers cs text)
    (back : Recovers rest others) : Recovers (cs ++ rest) (text ++ others) := by
  obtain ⟨tight, tightens, restored, balanced⟩ := front
  obtain ⟨more, tightens', restored', balanced'⟩ := back
  refine ⟨tight ++ more, tightens.append tightens', fun pending after => ?_, ?_⟩
  · rw [List.append_assoc, restored, restored', List.append_assoc]
  · exact (isBalanced_append balanced).trans balanced'

theorem recovers_char {c : Char} (bare : isBare c) : Recovers [c] [c] := by
  obtain ⟨-, opens, closes⟩ := isBare_iff.mp bare
  refine ⟨[c], .refl [c], fun pending rest => restore_bare bare pending rest, ?_⟩
  exact closesAll_other opens closes

theorem Recovers.cons {c : Char} {cs text : List Char} (bare : isBare c)
    (rest : Recovers cs text) : Recovers (c :: cs) (c :: text) :=
  (recovers_char bare).append rest

/-- A text without calls is its own expansion. -/
theorem recovers_of_bare {cs : List Char} (bare : ∀ c ∈ cs, isBare c) : Recovers cs cs := by
  induction cs with
  | nil => exact recovers_nil
  | cons c cs ih =>
      obtain ⟨first, others⟩ := List.forall_mem_cons.mp bare
      exact (ih others).cons first

/-- The braces of a command with one operand match if those of the operand do. -/
theorem closesAll_operand {text : List Char} (balanced : isBalanced '\x7b' '\x7d' text)
    (depth : Nat) (rest : List Char) :
    closesAll '\x7b' '\x7d' (depth + 1) (text ++ '\x7d' :: rest) =
      closesAll '\x7b' '\x7d' depth rest := by
  rw [isBalanced_append balanced, closesAll, if_neg (by decide), if_pos rfl,
    decide_eq_true (Nat.succ_pos depth), Bool.true_and, Nat.add_sub_cancel]

/-- A call is recovered if its arguments are. -/
theorem Recovers.call {call : Call} {front : List Char} {inner : List Char → List Char}
    (spelled : Spelled call front)
    (arguments : ∀ argument ∈ call.arguments, Recovers argument (inner argument)) :
    Recovers front (call.command inner) := by
  cases spelled with
  | @sqrt argument balanced =>
      obtain ⟨tight, tightens, restored, matched⟩ := arguments argument List.mem_cons_self
      rw [Call.command_sqrt]
      refine ⟨"sqrt(".toList ++ (tight ++ [')']), ?_, restored.root, ?_⟩
      · exact (Tightens.refl _).append (tightens.append (.refl _))
      · exact closesAll_operand matched 0 []
  | @frac numerator denominator balanced balanced' within =>
      obtain ⟨above, tightens, restored, matched⟩ := arguments (trim numerator) List.mem_cons_self
      obtain ⟨below, tightens', restored', matched'⟩ :=
        arguments (trim denominator) (List.mem_cons_of_mem _ List.mem_cons_self)
      rw [Call.command_frac]
      refine ⟨"frac(".toList ++ (above ++ ',' :: (below ++ [')'])), ?_, restored.fraction restored',
        ?_⟩
      · exact .frac balanced balanced' within tightens tightens' .nil
      · exact (closesAll_operand matched 0 _).trans (closesAll_operand matched' 0 [])

/-! ## Expanding -/

/-- The arguments of a call are parts of its text. -/
theorem Spelled.forall_mem {call : Call} {front : List Char} {p : Char → Prop}
    (spelled : Spelled call front) (all : ∀ c ∈ front, p c) :
    ∀ argument ∈ call.arguments, ∀ c ∈ argument, p c := by
  cases spelled with
  | sqrt =>
      refine List.forall_mem_singleton.mpr fun c inside => all c ?_
      simp [inside]
  | @frac numerator denominator =>
      refine List.forall_mem_cons.mpr ⟨?_, List.forall_mem_singleton.mpr ?_⟩
      · exact forall_mem_trim fun c inside => all c (by simp [inside])
      · exact forall_mem_trim fun c inside => all c (by simp [inside])

/-- If arguments are recovered, so are the calls of a text. -/
theorem recovers_expandCalls {inner : List Char → List Char}
    (arguments : ∀ argument, (∀ c ∈ argument, isBare c) → Recovers argument (inner argument))
    {cs : List Char} (bare : ∀ c ∈ cs, isBare c) : Recovers cs (expandCalls inner cs) := by
  fun_induction expandCalls inner cs with
  | case1 cs call rest found ih =>
      obtain ⟨front, spelled, rfl⟩ := readCall?_eq_some found
      obtain ⟨own, others⟩ := List.forall_mem_append.mp bare
      refine .append (.call spelled fun argument listed => ?_) (ih others)
      exact arguments argument (spelled.forall_mem own argument listed)
  | case2 => exact recovers_nil
  | case3 c rest found ih =>
      obtain ⟨first, others⟩ := List.forall_mem_cons.mp bare
      exact (ih others).cons first

/-- At every depth a text without commands and braces is recovered. -/
theorem recovers_expandNested (room : Nat) {cs : List Char} (bare : ∀ c ∈ cs, isBare c) :
    Recovers cs (expandNested room cs) := by
  induction room generalizing cs with
  | zero => exact recovers_of_bare bare
  | succ room ih => exact recovers_expandCalls (fun _ => ih) bare

/-- **No two formulas are confused.**  In a text without backslashes and braces, the calls that
were expanded are restored, whichever they were; the source is what is restored, but for blanks
around the arguments of fractions.  The braces of the expansion match.  So texts that are expanded
alike are the same but for their blanks. -/
theorem ofAsciiMath_recovers {source other : String} (bare : ∀ c ∈ source.toList, isBare c)
    (bare' : ∀ c ∈ other.toList, isBare c) :
    Tightens source.toList (restore [] (ofAsciiMath source).toList) ∧
      isBalanced '\x7b' '\x7d' (ofAsciiMath source).toList ∧
      (ofAsciiMath source = ofAsciiMath other →
        (source.toList.filter fun c => !isBlank c) = other.toList.filter fun c => !isBlank c) := by
  have restored : ∀ {text : String}, (∀ c ∈ text.toList, isBare c) →
      Tightens text.toList (restore [] (ofAsciiMath text).toList) ∧
        isBalanced '\x7b' '\x7d' (ofAsciiMath text).toList := by
    intro text bare
    obtain ⟨tight, tightens, restored, balanced⟩ := recovers_expandNested maxNesting bare
    have whole := restored [] []
    rw [restore, List.append_nil, List.append_nil] at whole
    rw [ofAsciiMath, String.toList_ofList, whole]
    exact ⟨tightens, balanced⟩
  obtain ⟨tightens, balanced⟩ := restored bare
  refine ⟨tightens, balanced, fun same => ?_⟩
  rw [tightens.filter_eq, (restored bare').1.filter_eq, same]

namespace Example

/-- A call inside a name, calls in arguments between blanks, a fraction without a comma and a root
that is not closed. -/
def spaced : String := "sqsqrt(frac( a , sqrt(b) ))frac(1)sqrt("

/-- `spaced` without the blanks around the arguments of its fraction. -/
def unspaced : String := "sqsqrt(frac(a,sqrt(b)))frac(1)sqrt("

theorem spaced_recovered :
    (∀ c ∈ spaced.toList, isBare c) ∧ (∀ c ∈ unspaced.toList, isBare c) ∧
      ofAsciiMath spaced = ofAsciiMath unspaced ∧
      restore [] (ofAsciiMath spaced).toList = unspaced.toList ∧
      Tightens spaced.toList unspaced.toList ∧
      isBalanced '\x7b' '\x7d' (ofAsciiMath spaced).toList ∧
      (spaced.toList.filter fun c => !isBlank c) = unspaced.toList.filter fun c => !isBlank c := by
  have bare : ∀ c ∈ spaced.toList, isBare c := List.all_eq_true.mp (by decide)
  have bare' : ∀ c ∈ unspaced.toList, isBare c := List.all_eq_true.mp (by decide)
  have same : ofAsciiMath spaced = ofAsciiMath unspaced := by decide +kernel
  have restored : restore [] (ofAsciiMath spaced).toList = unspaced.toList := by decide +kernel
  obtain ⟨tightens, balanced, alike⟩ := ofAsciiMath_recovers bare bare'
  rw [restored] at tightens
  exact ⟨bare, bare', same, restored, tightens, balanced, alike same⟩

end Example

end Rendition.Math
