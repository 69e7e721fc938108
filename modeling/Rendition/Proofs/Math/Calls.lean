/-
# Rendition.Proofs.Math.Calls -- calls are compiled by compiling their arguments

An argument is expanded the same whatever follows it and however deep it stands, as
long as there is room for its calls, and what it becomes is a formula
(`exists_expands`).  A formula is read the same wherever it fits; so a root or a
fraction that is written as a call is compiled from what its arguments are compiled to
alone (`compile_calls`).
-/
import Rendition.Math.MathML
import Rendition.Proofs.Math.Arguments

namespace Rendition.Math

set_option autoImplicit false

open Rendition.Text

/-! ## Finding a call -/

theorem readCall?_sqrt (cs : List Char) :
    readCall? ("sqrt(".toList ++ cs) =
      (closing? 0 cs).map fun (argument, rest) => (.sqrt argument, rest) := by
  show readCall? ('s' :: 'q' :: 'r' :: 't' :: '(' :: cs) = _
  rw [readCall?]
  cases closing? 0 cs <;> rfl

/-- The call of a fraction is split in its own parentheses only. -/
theorem readCall?_frac (cs : List Char) :
    readCall? ("frac(".toList ++ cs) =
      (closing? 0 cs).bind fun (arguments, rest) =>
        (splitArguments? 0 arguments).map fun (numerator, denominator) =>
          (.frac (trim numerator) (trim denominator), rest) := by
  show readCall? ('f' :: 'r' :: 'a' :: 'c' :: '(' :: cs) = _
  rw [readCall?]
  cases closing? 0 cs with
  | none => rfl
  | some found => cases h : splitArguments? 0 found.1 <;> simp [h]

/-- A text that begins with the name of no call begins with no call. -/
theorem readCall?_eq_none {cs : List Char} (root : ¬ "sqrt(".toList <+: cs)
    (fraction : ¬ "frac(".toList <+: cs) : readCall? cs = none := by
  unfold readCall?
  split
  · rename_i rest
    exact absurd ⟨rest, rfl⟩ root
  · rename_i rest
    exact absurd ⟨rest, rfl⟩ fraction
  · rfl

/-- A name that what follows cannot begin with stands in the text already. -/
theorem isPrefix_of_isPrefix_append {name cs rest : List Char}
    (foreign : name.any enders.contains = false) (apart : Apart rest)
    (before : name <+: cs ++ rest) : name <+: cs := by
  rcases List.prefix_or_prefix_of_prefix before (List.prefix_append cs rest) with
    whole | ⟨more, same⟩
  · exact whole
  · cases more with
    | nil => exact ⟨[], by simpa using same.symm⟩
    | cons c more =>
        obtain ⟨after, split⟩ := before
        rw [← same, List.append_assoc, List.append_cancel_left_eq] at split
        have ends := List.contains_iff_mem.mpr (mem_enders (apart c (by rw [← split]; rfl)))
        have inside : c ∈ name := by simp [← same]
        have stays := eq_false_of_any foreign inside
        exact absurd (stays.symm.trans ends) Bool.false_ne_true

theorem expandCalls_nil (inner : List Char → List Char) : expandCalls inner [] = [] := by
  rw [expandCalls]
  rfl

/-- A call becomes a command, and expansion goes on behind it. -/
theorem expandCalls_call {inner : List Char → List Char} {cs rest : List Char} {call : Call}
    (found : readCall? cs = some (call, rest)) :
    expandCalls inner cs = call.command inner ++ expandCalls inner rest := by
  rw [expandCalls]
  split <;> simp_all

theorem expandCalls_cons {inner : List Char → List Char} {c : Char} {cs : List Char}
    (callless : readCall? (c :: cs) = none) :
    expandCalls inner (c :: cs) = c :: expandCalls inner cs := by
  rw [expandCalls]
  split <;> simp_all

def Call.arguments : Call → List (List Char)
  | .sqrt argument => [argument]
  | .frac numerator denominator => [numerator, denominator]

theorem length_trim_le (cs : List Char) : (trim cs).length ≤ cs.length :=
  Nat.le_trans (length_dropTrailingBlanks_le _) (length_skipBlanks_le cs)

/-- A text with so much room begins with a call of shorter arguments with less, in front of a
shorter argument, whatever follows. -/
def BeginsCall (room : Nat) (cs : List Char) : Prop :=
  ∃ lower call after, room = lower + 1 ∧ Argument room after ∧ after.length < cs.length ∧
    (∀ inner ∈ call.arguments, Argument lower inner ∧ inner.length < cs.length) ∧
    ∀ rest, readCall? (cs ++ rest) = some (call, after ++ rest)

theorem beginsCall_sqrt {room : Nat} {tail : List Char}
    (argument : Argument room ("sqrt(".toList ++ tail)) :
    BeginsCall room ("sqrt(".toList ++ tail) := by
  have opened : Argument room ('(' :: tail) :=
    argument.of_plain_append (List.all_eq_true.mp (by decide : "sqrt".toList.all isPlain))
  cases opened with
  | plain plain _ => exact absurd plain (by decide)
  | @group lower inner after inside following =>
      refine ⟨lower, .sqrt inner, after, rfl, following, by grind, ?_, ?_⟩
      · simpa [Call.arguments] using ⟨inside, by omega⟩
      · intro rest
        rw [List.append_assoc, List.append_assoc, List.cons_append, readCall?_sqrt,
          inside.closing?_closed]
        rfl

/-- Without a comma outside parentheses there is no call. -/
theorem beginsCall_frac {room : Nat} {tail : List Char}
    (argument : Argument room ("frac(".toList ++ tail)) :
    (∀ rest, readCall? ("frac(".toList ++ tail ++ rest) = none) ∨
      BeginsCall room ("frac(".toList ++ tail) := by
  have opened : Argument room ('(' :: tail) :=
    argument.of_plain_append (List.all_eq_true.mp (by decide : "frac".toList.all isPlain))
  cases opened with
  | plain plain _ => exact absurd plain (by decide)
  | @group lower inner after inside following =>
      have found : ∀ rest, readCall? ("frac(".toList ++ (inner ++ ')' :: after) ++ rest) =
          (splitArguments? 0 inner).map fun (numerator, denominator) =>
            (.frac (trim numerator) (trim denominator), after ++ rest) := by
        intro rest
        rw [List.append_assoc, List.append_assoc, List.cons_append, readCall?_frac,
          inside.closing?_closed]
        rfl
      cases split : splitArguments? 0 inner with
      | none => exact .inl fun rest => by rw [found, split]; rfl
      | some parts =>
          obtain ⟨numerator, denominator⟩ := parts
          obtain ⟨above, below, rfl⟩ := inside.of_splitArguments? split
          have shorter := length_trim_le numerator
          have shorter' := length_trim_le denominator
          refine .inr ⟨lower, .frac (trim numerator) (trim denominator), after, rfl, following,
            by grind, ?_, ?_⟩
          · simp only [Call.arguments, List.forall_mem_cons, List.length_append, List.length_cons]
            exact ⟨⟨above.trim, by omega⟩, ⟨below.trim, by omega⟩,
              fun _ inside => absurd inside List.not_mem_nil⟩
          · intro rest
            rw [found, split]
            rfl

/-- Whether an argument begins with a call does not depend on what follows, and a call in it ends
in it. -/
theorem Argument.beginsCall {room : Nat} {cs : List Char} (argument : Argument room cs) :
    (∀ rest, Apart rest → readCall? (cs ++ rest) = none) ∨ BeginsCall room cs := by
  by_cases root : "sqrt(".toList <+: cs
  · obtain ⟨tail, rfl⟩ := root
    exact .inr (beginsCall_sqrt argument)
  · by_cases fraction : "frac(".toList <+: cs
    · obtain ⟨tail, rfl⟩ := fraction
      exact (beginsCall_frac argument).imp_left fun callless rest _ => callless rest
    · left
      intro rest apart
      exact readCall?_eq_none (mt (isPrefix_of_isPrefix_append (by decide) apart) root)
        (mt (isPrefix_of_isPrefix_append (by decide) apart) fraction)

/-! ## Expanding -/

/-- With so much room for the arguments of its calls the text is expanded to this, and what follows
is expanded as if it stood alone. -/
def Expands (room : Nat) (cs text : List Char) : Prop :=
  ∀ more, room ≤ more → ∀ rest, Apart rest →
    expandCalls (expandNested more) (cs ++ rest) = text ++ expandCalls (expandNested more) rest

/-- With nothing behind it the text is expanded to this. -/
theorem Expands.alone {room more : Nat} {cs text : List Char} (expands : Expands room cs text)
    (lt : room < more) : expandNested more cs = text := by
  obtain ⟨more, rfl⟩ := Nat.exists_eq_add_of_le' (Nat.one_le_of_lt lt)
  have whole := expands more (Nat.le_of_lt_succ lt) [] (by rintro c ⟨⟩)
  rwa [expandCalls_nil, List.append_nil, List.append_nil] at whole

theorem Call.command_sqrt (inner : List Char → List Char) (argument : List Char) :
    (Call.sqrt argument).command inner =
      '\\' :: ("sqrt\x7b".toList ++ (inner argument ++ ['\x7d'])) := by
  show "\\sqrt\x7b".toList ++ inner argument ++ ['\x7d'] = _
  rw [List.append_assoc]
  rfl

theorem Call.command_frac (inner : List Char → List Char) (numerator denominator : List Char) :
    (Call.frac numerator denominator).command inner =
      '\\' :: ("frac\x7b".toList ++
        (inner numerator ++ '\x7d' :: '\x7b' :: (inner denominator ++ ['\x7d']))) := by
  show "\\frac\x7b".toList ++ inner numerator ++ "\x7d\x7b".toList ++ inner denominator ++
    ['\x7d'] = _
  rw [List.append_assoc, List.append_assoc, List.append_assoc]
  rfl

/-- A call whose arguments become formulas becomes a command in front of formulas. -/
theorem Call.exists_command {room level : Nat} {call : Call}
    (arguments : ∀ inner ∈ call.arguments, ∃ text, Formula level text ∧ Expands room inner text) :
    ∃ head, (∀ more, room < more → call.command (expandNested more) = head) ∧
      ∀ after, Formula (level + 2) after → Formula (level + 2) (head ++ after) := by
  cases call with
  | sqrt argument =>
      obtain ⟨text, formula, expands⟩ := arguments argument List.mem_cons_self
      refine ⟨'\\' :: ("sqrt\x7b".toList ++ (text ++ ['\x7d'])), ?_, ?_⟩
      · intro more lt
        rw [Call.command_sqrt, expands.alone lt]
      · intro after following
        have whole := Formula.root formula following
        simpa only [List.cons_append, List.append_assoc, List.nil_append] using whole
  | frac numerator denominator =>
      obtain ⟨above, formula, expands⟩ := arguments numerator List.mem_cons_self
      obtain ⟨below, formula', expands'⟩ :=
        arguments denominator (List.mem_cons_of_mem _ List.mem_cons_self)
      refine ⟨'\\' :: ("frac\x7b".toList ++
        (above ++ '\x7d' :: '\x7b' :: (below ++ ['\x7d']))), ?_, ?_⟩
      · intro more lt
        rw [Call.command_frac, expands.alone lt, expands'.alone lt]
      · intro after following
        have whole := Formula.fraction formula formula' following
        simpa only [List.cons_append, List.append_assoc, List.nil_append] using whole

/-- **An argument is expanded to a formula, the same wherever it stands.** -/
theorem exists_expands {room : Nat} {cs : List Char} (argument : Argument room cs) :
    ∃ text, Formula (2 * room) text ∧ Expands room cs text := by
  rcases argument.beginsCall with
    none | ⟨lower, call, after, rfl, following, shorter, within, found⟩
  · cases argument with
    | nil => exact ⟨[], .nil, fun _ _ _ _ => rfl⟩
    | @plain _ c cs plain others =>
        obtain ⟨text, formula, expands⟩ := exists_expands others
        refine ⟨c :: text, .plain plain formula, ?_⟩
        intro more le rest apart
        have noCall := none rest apart
        rw [List.cons_append] at noCall ⊢
        rw [expandCalls_cons noCall, expands more le rest apart, List.cons_append]
    | @group lower inner cs inside others =>
        obtain ⟨group, formula, expands⟩ := exists_expands inside
        obtain ⟨text, formula', expands'⟩ := exists_expands others
        refine ⟨'(' :: (group ++ ')' :: text), ?_, ?_⟩
        · exact .group rfl (formula.mono (Nat.le_succ _)) formula'
        · intro more le rest apart
          have closed : Apart (')' :: (cs ++ rest)) := by
            rintro c ⟨⟩
            exact .inr (by decide)
          have noCall := none rest apart
          simp only [List.cons_append, List.append_assoc] at noCall ⊢
          rw [expandCalls_cons noCall, expands more (Nat.le_of_succ_le le) _ closed,
            expandCalls_cons rfl, expands' more le rest apart]
  · have arguments : ∀ inner ∈ call.arguments,
        ∃ text, Formula (2 * lower) text ∧ Expands lower inner text := by
      intro inner member
      obtain ⟨argument, shorter⟩ := within inner member
      exact exists_expands argument
    obtain ⟨head, command, formula⟩ := call.exists_command arguments
    obtain ⟨text, formula', expands⟩ := exists_expands following
    refine ⟨head ++ text, formula text formula', ?_⟩
    intro more le rest apart
    rw [expandCalls_call (found rest), command more le, expands more le rest apart,
      List.append_assoc]
termination_by cs.length
decreasing_by
  · simp
  · grind
  · grind
  · exact shorter
  · assumption

/-! ## A call alone -/

theorem expandNested_of_readCall? {cs : List Char} {call : Call}
    (found : readCall? cs = some (call, [])) (room : Nat) :
    expandNested (room + 1) cs = call.command (expandNested room) := by
  show expandCalls (expandNested room) cs = _
  rw [expandCalls_call found, expandCalls_nil, List.append_nil]

/-- A text of one atom is read as that atom. -/
theorem parseRow_of_read {c : Char} {cs : List Char} {node : Node} (solid : isBlank c = false)
    (read : (AtomReader.withRoom maxNesting none).read (c :: cs) = (node, [])) :
    parseRow (c :: cs) = [node] := by
  have found : skipBlanks (c :: cs) = c :: cs := skipBlanks_cons_of_not_isBlank cs solid
  have bare : ∀ d ∈ (skipBlanks []).head?, isMark d = false := by rintro d ⟨⟩
  rw [parseRow, AtomReader.row_next _ found (by simp), AtomReader.scriptable_eq, read,
    AtomReader.scripts_done _ bare, AtomReader.row_ended _ rfl]
  rfl

/-- Blanks begin no call. -/
theorem readCall?_of_blank {c : Char} (cs : List Char) (blank : isBlank c) :
    readCall? (c :: cs) = none := by
  refine readCall?_eq_none ?_ ?_
  · rintro ⟨rest, same⟩
    obtain ⟨rfl, -⟩ := List.cons.inj same
    exact absurd blank (by decide)
  · rintro ⟨rest, same⟩
    obtain ⟨rfl, -⟩ := List.cons.inj same
    exact absurd blank (by decide)

/-- Blanks in front of a text are kept as they are. -/
theorem expandCalls_append_of_blank (inner : List Char → List Char) {front cs : List Char}
    (blank : ∀ c ∈ front, isBlank c) :
    expandCalls inner (front ++ cs) = front ++ expandCalls inner cs := by
  induction front with
  | nil => rfl
  | cons c front ih =>
      obtain ⟨first, others⟩ := List.forall_mem_cons.mp blank
      rw [List.cons_append, expandCalls_cons (readCall?_of_blank _ first), ih others,
        List.cons_append]

/-- Blanks around an argument are not seen: it is read as what is left of it when it is trimmed. -/
theorem Expands.parseRow_eq {room more level : Nat} {cs text : List Char} {nodes : List Node}
    (expands : Expands room (trim cs) text) (reads : RowReads level text nodes)
    (lt : room < more) (le : level ≤ maxNesting) : parseRow (expandNested more cs) = nodes := by
  obtain ⟨more, rfl⟩ := Nat.exists_eq_add_of_le' (Nat.one_le_of_lt lt)
  obtain ⟨back, split, blank⟩ := exists_dropTrailingBlanks_append (skipBlanks cs)
  have front : ∀ c ∈ cs.takeWhile isBlank, isBlank c := List.all_eq_true.mp List.all_takeWhile
  have after : ∀ c ∈ back, isBlank c := List.dropWhile_eq_nil_iff.mp blank
  have apart : Apart back := fun c start => .inl (after c (List.mem_of_mem_head? start))
  have kept : expandCalls (expandNested more) back = back := by
    have whole := @expandCalls_append_of_blank (expandNested more) back [] after
    rwa [expandCalls_nil, List.append_nil] at whole
  have whole : cs.takeWhile isBlank ++ (trim cs ++ back) = cs := by
    rw [trim, ← split, skipBlanks, List.takeWhile_append_dropWhile]
  have expanded : expandNested (more + 1) cs = cs.takeWhile isBlank ++ (text ++ back) :=
    calc expandCalls (expandNested more) cs
      _ = expandCalls (expandNested more) (cs.takeWhile isBlank ++ (trim cs ++ back)) := by
          rw [whole]
      _ = cs.takeWhile isBlank ++ (text ++ back) := by
          rw [expandCalls_append_of_blank _ front, expands more (Nat.le_of_lt_succ lt) back apart,
            kept]
  have unseen : skipBlanks (cs.takeWhile isBlank) = [] := List.dropWhile_eq_nil_iff.mpr front
  rw [← reads.parseRow_append le blank, expanded, parseRow, parseRow,
    AtomReader.row_congr _ (skipBlanks_append_of_blank unseen)]

/-! ## Calls compiled -/

/-- A body in AsciiMath is expanded and then read like any other. -/
theorem compile_asciiMath (body : String) :
    compile .asciiMath body =
      (Node.row (parseRow (expandNested maxNesting body.toList))).mathML := by
  rw [compile, latexSource, ofAsciiMath, parse, String.toList_ofList]

theorem mathML_row_singleton (node : Node) : (Node.row [node]).mathML = node.mathML := by
  rw [Node.mathML]

theorem mathML_root (radicand : Node) :
    (Node.root radicand).mathML = "<msqrt>" ++ radicand.mathML ++ "</msqrt>" := by
  rw [Node.mathML]
  rfl

theorem mathML_fraction (numerator denominator : Node) :
    (Node.fraction numerator denominator).mathML =
      "<mfrac>" ++ numerator.mathML ++ denominator.mathML ++ "</mfrac>" := by
  rw [Node.mathML]
  show "<mfrac>" ++ (numerator.mathML ++ denominator.mathML) ++ "</mfrac>" = _
  rw [← String.append_assoc]

theorem place_none : Place none [] := ⟨by rintro c ⟨⟩, by rintro c ⟨⟩⟩

/-- A root that is called. -/
theorem compile_sqrt {room : Nat} {argument : String} (matched : Argument room argument.toList)
    (shallow : 2 * room + 2 ≤ maxNesting) :
    compile .asciiMath ("sqrt(" ++ argument ++ ")") =
      "<msqrt>" ++ compile .asciiMath argument ++ "</msqrt>" := by
  have lt : room < 255 := by rw [maxNesting] at shallow; omega
  have lt' : room < maxNesting := Nat.lt_succ_of_lt lt
  obtain ⟨text, formula, expands⟩ := exists_expands matched
  obtain ⟨nodes, reads⟩ := exists_rowReads formula
  have alone : parseRow (expandNested maxNesting argument.toList) = nodes := by
    rw [expands.alone lt', reads.parseRow_eq (Nat.le_of_add_right_le shallow)]
  have call : readCall? ("sqrt(" ++ argument ++ ")").toList = some (.sqrt argument.toList, []) := by
    rw [String.toList_append, String.toList_append, List.append_assoc, readCall?_sqrt]
    exact congrArg _ (matched.closing?_closed [])
  have command : expandNested maxNesting ("sqrt(" ++ argument ++ ")").toList =
      '\\' :: ("sqrt\x7b".toList ++ (text ++ ['\x7d'])) := by
    rw [maxNesting, expandNested_of_readCall? call, Call.command_sqrt, expands.alone lt]
  have root := parseRow_of_read (by decide) (reads.read_root shallow place_none [])
  rw [compile_asciiMath, compile_asciiMath, alone, command, root, mathML_row_singleton, mathML_root]

/-- A fraction that is called. -/
theorem compile_frac {room : Nat} {numerator denominator : String}
    (above : Argument room numerator.toList) (below : Argument room denominator.toList)
    (shallow : 2 * room + 2 ≤ maxNesting)
    (joined : ∀ before after, numerator.toList = before ++ ',' :: after →
      before.count ')' < before.count '(') :
    compile .asciiMath ("frac(" ++ numerator ++ "," ++ denominator ++ ")") =
      "<mfrac>" ++ compile .asciiMath numerator ++ compile .asciiMath denominator ++
        "</mfrac>" := by
  have lt : room < 255 := by rw [maxNesting] at shallow; omega
  have lt' : room < maxNesting := Nat.lt_succ_of_lt lt
  obtain ⟨text, formula, expands⟩ := exists_expands above.trim
  obtain ⟨text', formula', expands'⟩ := exists_expands below.trim
  obtain ⟨nodes, reads⟩ := exists_rowReads formula
  obtain ⟨nodes', reads'⟩ := exists_rowReads formula'
  have le := Nat.le_of_add_right_le shallow
  have alone : parseRow (expandNested maxNesting numerator.toList) = nodes :=
    expands.parseRow_eq reads lt' le
  have alone' : parseRow (expandNested maxNesting denominator.toList) = nodes' :=
    expands'.parseRow_eq reads' lt' le
  have call : readCall? ("frac(" ++ numerator ++ "," ++ denominator ++ ")").toList =
      some (.frac (trim numerator.toList) (trim denominator.toList), []) := by
    have text : ("frac(" ++ numerator ++ "," ++ denominator ++ ")").toList =
        "frac(".toList ++ ((numerator.toList ++ ',' :: denominator.toList) ++ ')' :: []) := by
      simp [String.toList_append]
    have matched := above.append (.plain (by decide : isPlain ',') below)
    have split := above.splitArguments?_comma joined denominator.toList
    rw [text, readCall?_frac, matched.closing?_closed, Option.bind_some]
    simp only [split, Option.map_some]
  have command :
      expandNested maxNesting ("frac(" ++ numerator ++ "," ++ denominator ++ ")").toList =
        '\\' :: ("frac\x7b".toList ++ (text ++ '\x7d' :: '\x7b' :: (text' ++ ['\x7d']))) := by
    rw [maxNesting, expandNested_of_readCall? call, Call.command_frac, expands.alone lt,
      expands'.alone lt]
  have fraction := parseRow_of_read (by decide) (reads.read_fraction reads' shallow place_none [])
  rw [compile_asciiMath, compile_asciiMath, compile_asciiMath, alone, alone', command, fraction,
    mathML_row_singleton, mathML_fraction]

/-- **A call is compiled by compiling its arguments.**  An argument has matching parentheses, at
most 126 deep, and no other bracket and no backslash; every comma of the first argument of `frac`
stands inside parentheses. -/
theorem compile_calls {argument numerator denominator : String} (square : isArgument 126 argument)
    (above : isArgument 126 numerator) (below : isArgument 126 denominator)
    (joined : ∀ place < numerator.toList.length, numerator.toList[place]? = some ',' →
      (numerator.toList.take place).count ')' < (numerator.toList.take place).count '(') :
    compile .asciiMath ("sqrt(" ++ argument ++ ")") =
        "<msqrt>" ++ compile .asciiMath argument ++ "</msqrt>" ∧
      compile .asciiMath ("frac(" ++ numerator ++ "," ++ denominator ++ ")") =
        "<mfrac>" ++ compile .asciiMath numerator ++ compile .asciiMath denominator ++
          "</mfrac>" := by
  constructor
  · exact compile_sqrt (argument_of_isArgument square) (by decide)
  · refine compile_frac (argument_of_isArgument above) (argument_of_isArgument below) (by decide) ?_
    intro before after same
    have enclosed := joined before.length (by simp [same]) (by simp [same])
    rwa [same, List.take_left] at enclosed

namespace Example

/-- Calls inside arguments, names that begin no call, marks without operands and blanks. -/
theorem compile_nested_calls :
    isArgument 126 "sqrt(x)+frac(1)sqrt_" ∧ isArgument 126 " f(a,b)^ " ∧
      isArgument 126 "frac(1,2),y " ∧
      compile .asciiMath "sqrt(sqrt(x)+frac(1)sqrt_)" =
        "<msqrt>" ++ compile .asciiMath "sqrt(x)+frac(1)sqrt_" ++ "</msqrt>" ∧
      compile .asciiMath "frac( f(a,b)^ ,frac(1,2),y )" =
        "<mfrac>" ++ compile .asciiMath " f(a,b)^ " ++ compile .asciiMath "frac(1,2),y " ++
          "</mfrac>" :=
  ⟨by decide, by decide, by decide,
    @compile_calls "sqrt(x)+frac(1)sqrt_" " f(a,b)^ " "frac(1,2),y " (by decide) (by decide)
      (by decide) (by decide)⟩

end Example

end Rendition.Math
