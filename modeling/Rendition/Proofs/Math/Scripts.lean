/-
# Rendition.Proofs.Math.Scripts -- only the last script of each direction counts

A base in braces may be followed by any number of scripts, each a mark and an operand
in braces.  An operand is read as it is read alone, since its closing brace keeps it
apart from what follows (`operand_braced`).  The scripts are read one after the other,
and each replaces an earlier one of its direction (`scripts_written`).  So what is
compiled is the base with the last subscript and the last superscript, in whichever
order the two were written (`compile_scripts`).
-/
import Rendition.Proofs.Math.Calls

namespace Rendition.Math

set_option autoImplicit false

open Rendition.Text

/-! ## Scripts as they are written -/

/-- The two sides of a base where a script may stand. -/
inductive Direction where
  | sub
  | sup
  deriving DecidableEq

def Direction.mark : Direction → Char
  | .sub => '_'
  | .sup => '^'

/-- A script: where it stands, and the text in its braces. -/
structure Script where
  direction : Direction
  operand : String

def braced (text : String) : String := "\x7b" ++ text ++ "\x7d"

def scriptsText : List Script → String
  | [] => ""
  | script :: rest =>
      String.singleton script.direction.mark ++ braced script.operand ++ scriptsText rest

/-- The operand of the last script of a direction. -/
def lastOperand? (direction : Direction) (scripts : List Script) : Option String :=
  (scripts.filter (·.direction = direction)).getLast?.map Script.operand

/-- A later script of a direction wins over an earlier one. -/
theorem lastOperand?_cons (direction : Direction) (script : Script) (rest : List Script) :
    lastOperand? direction (script :: rest) =
      (lastOperand? direction rest).or
        (if script.direction = direction then some script.operand else none) := by
  by_cases same : script.direction = direction
  · cases last : (rest.filter (·.direction = direction)).getLast? <;>
      simp [lastOperand?, same, List.getLast?_cons, last]
  · simp [lastOperand?, same]

theorem toList_braced (text : String) :
    (braced text).toList = '\x7b' :: (text.toList ++ ['\x7d']) := by
  simp [braced]

theorem toList_scriptsText_cons (script : Script) (rest : List Script) :
    (scriptsText (script :: rest)).toList =
      script.direction.mark :: ((braced script.operand).toList ++ (scriptsText rest).toList) := by
  simp [scriptsText]

theorem isMark_mark (direction : Direction) : isMark direction.mark := by
  cases direction <;> decide

theorem not_isBlank_mark (direction : Direction) : isBlank direction.mark = false := by
  cases direction <;> decide

/-! ## Reading them -/

/-- A well-nested text in braces is an operand, and it is read as it is read alone. -/
theorem operand_braced {text : String} (nested : wellNested 255 text) (others : List Char) :
    (AtomReader.withRoom maxNesting none).operand ((braced text).toList ++ others) =
      (parse text, others) := by
  obtain ⟨nodes, reads⟩ := exists_rowReads (formula_of_wellNested nested)
  have alone : parseRow text.toList = nodes := reads.parseRow_eq (by decide)
  have operand := reads.operand_braces (Nat.le_refl 255) place_none others
  rw [parse, alone, toList_braced, List.cons_append, List.append_assoc]
  exact operand

/-- **Of the scripts that are written, the last of each direction is found**, and one that was
found before stays where there is none. -/
theorem scripts_written (scripts : List Script)
    (nested : ∀ script ∈ scripts, wellNested 255 script.operand) (sub sup : Option Node) :
    (AtomReader.withRoom maxNesting none).scripts sub sup (scriptsText scripts).toList =
      ((((lastOperand? .sub scripts).map parse).or sub,
        ((lastOperand? .sup scripts).map parse).or sup), []) := by
  induction scripts generalizing sub sup with
  | nil => exact AtomReader.scripts_done _ (by rintro c ⟨⟩)
  | cons script rest ih =>
      obtain ⟨first, others⟩ := List.forall_mem_cons.mp nested
      have solid := skipBlanks_cons_of_not_isBlank
        ((braced script.operand).toList ++ (scriptsText rest).toList)
        (not_isBlank_mark script.direction)
      rw [toList_scriptsText_cons, AtomReader.scripts_mark _ solid (isMark_mark _),
        operand_braced first, ih others, lastOperand?_cons, lastOperand?_cons]
      cases script.direction with
      | sub => cases lastOperand? .sub rest <;> simp [Direction.mark]
      | sup => cases lastOperand? .sup rest <;> simp [Direction.mark]

/-- A base in braces with its scripts is one node. -/
theorem parse_scripts {base : String} (nested : wellNested 255 base) {scripts : List Script}
    (operands : ∀ script ∈ scripts, wellNested 255 script.operand) :
    parse (braced base ++ scriptsText scripts) =
      .row [(parse base).withScripts ((lastOperand? .sub scripts).map parse)
        ((lastOperand? .sup scripts).map parse)] := by
  have opened : skipBlanks (braced base ++ scriptsText scripts).toList =
      '\x7b' :: (base.toList ++ '\x7d' :: (scriptsText scripts).toList) := by
    rw [String.toList_append, toList_braced, List.cons_append, List.append_assoc]
    exact skipBlanks_cons_of_not_isBlank _ (by decide)
  have read : (AtomReader.withRoom maxNesting none).read
      ('\x7b' :: (base.toList ++ '\x7d' :: (scriptsText scripts).toList)) =
        (parse base, (scriptsText scripts).toList) := by
    have operand := operand_braced nested (scriptsText scripts).toList
    rw [← String.toList_append, AtomReader.operand, opened] at operand
    exact operand
  rw [parse, parseRow, AtomReader.row_next _ opened (by simp), AtomReader.scriptable_eq, read,
    scripts_written scripts operands, AtomReader.row_ended _ rfl, Option.or_none, Option.or_none]
  rfl

/-! ## Compiling them -/

/-- A base with scripts in MathML, the subscript before the superscript; the base alone if there
are none. -/
def scriptedMathML (base : String) : Option String → Option String → String
  | some sub, some sup => "<msubsup>" ++ base ++ sub ++ sup ++ "</msubsup>"
  | some sub, none => "<msub>" ++ base ++ sub ++ "</msub>"
  | none, some sup => "<msup>" ++ base ++ sup ++ "</msup>"
  | none, none => base

/-- The scripts of a node are written after its base. -/
theorem mathML_withScripts (base : Node) (sub sup : Option Node) :
    (base.withScripts sub sup).mathML =
      scriptedMathML base.mathML (sub.map Node.mathML) (sup.map Node.mathML) := by
  cases sub <;> cases sup <;>
    simp [Node.withScripts, scriptedMathML, Node.mathML, tagged, Markup.element, Markup.openTag,
      Markup.closeTag, Markup.attributesText, String.append_assoc]

/-- A base with scripts is compiled part by part. -/
theorem compile_scripts_eq {base : String} (nested : wellNested 255 base) {scripts : List Script}
    (operands : ∀ script ∈ scripts, wellNested 255 script.operand) :
    compile .latex (braced base ++ scriptsText scripts) =
      scriptedMathML (compile .latex base) ((lastOperand? .sub scripts).map (compile .latex))
        ((lastOperand? .sup scripts).map (compile .latex)) := by
  have alone : compile .latex = Node.mathML ∘ parse := rfl
  rw [alone, Function.comp_apply, parse_scripts nested operands, mathML_row_singleton,
    mathML_withScripts, Option.map_map, Option.map_map]
  rfl

/-- **Only the last script of each direction counts.**  A base in braces, followed by any number of
scripts in braces, is compiled as the base with the last subscript and the last superscript; all
texts in the braces have matching brackets, at most 255 deep, and no backslash.  Scripts of
different directions may change places, and without scripts the braces are not seen. -/
theorem compile_scripts (base : String) (scripts : List Script) (nested : wellNested 255 base)
    (operands : ∀ script ∈ scripts, wellNested 255 script.operand) :
    compile .latex (braced base ++ scriptsText scripts) =
        scriptedMathML (compile .latex base) ((lastOperand? .sub scripts).map (compile .latex))
          ((lastOperand? .sup scripts).map (compile .latex)) ∧
      (∀ others : List Script,
        (∀ direction, others.filter (·.direction = direction) =
          scripts.filter (·.direction = direction)) →
        compile .latex (braced base ++ scriptsText others) =
          compile .latex (braced base ++ scriptsText scripts)) ∧
      compile .latex (braced base) = compile .latex base := by
  refine ⟨compile_scripts_eq nested operands, ?_, ?_⟩
  · intro others same
    have operands' : ∀ script ∈ others, wellNested 255 script.operand := by
      intro script member
      have kept : script ∈ others.filter (·.direction = script.direction) :=
        List.mem_filter.mpr ⟨member, by simp⟩
      rw [same] at kept
      exact operands script (List.mem_filter.mp kept).1
    rw [compile_scripts_eq nested operands, compile_scripts_eq nested operands', lastOperand?,
      lastOperand?, lastOperand?, lastOperand?, same, same]
  · have bare := compile_scripts_eq nested (List.forall_mem_nil _)
    rwa [scriptsText, String.append_empty] at bare

namespace Example

/-- Marks without operands end the base and two of the operands, and the first superscript is
replaced by one that holds scripts of its own. -/
theorem compile_replaced_script :
    wellNested 255 "x ^" ∧
      (∀ script ∈ [⟨.sup, "1"⟩, ⟨.sub, "(i_)"⟩, ⟨.sup, "\x7bn\x7d^2 _"⟩],
        wellNested 255 (Script.operand script)) ∧
      compile .latex "\x7bx ^\x7d^\x7b1\x7d_\x7b(i_)\x7d^\x7b\x7bn\x7d^2 _\x7d" =
        "<msubsup>" ++ compile .latex "x ^" ++ compile .latex "(i_)" ++
          compile .latex "\x7bn\x7d^2 _" ++ "</msubsup>" ∧
      compile .latex "\x7bx ^\x7d_\x7b(i_)\x7d^\x7b1\x7d^\x7b\x7bn\x7d^2 _\x7d" =
        compile .latex "\x7bx ^\x7d^\x7b1\x7d_\x7b(i_)\x7d^\x7b\x7bn\x7d^2 _\x7d" := by
  have nested : wellNested 255 "x ^" := by decide
  have operands : ∀ script ∈ [⟨.sup, "1"⟩, ⟨.sub, "(i_)"⟩, ⟨.sup, "\x7bn\x7d^2 _"⟩],
      wellNested 255 (Script.operand script) := by decide
  obtain ⟨last, swapped, -⟩ := compile_scripts "x ^"
    [⟨.sup, "1"⟩, ⟨.sub, "(i_)"⟩, ⟨.sup, "\x7bn\x7d^2 _"⟩] nested operands
  refine ⟨nested, operands, last, ?_⟩
  exact swapped [⟨.sub, "(i_)"⟩, ⟨.sup, "1"⟩, ⟨.sup, "\x7bn\x7d^2 _"⟩] (by rintro ⟨⟩ <;> rfl)

end Example

end Rendition.Math
