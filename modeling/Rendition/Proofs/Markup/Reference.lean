/-
# Rendition.Proofs.Markup.Reference -- when a cross-reference shows its target

A cross-reference without content shows its target.  The output formats take content
for missing if it leaves no markup, plain text takes it for missing only if it has no
nodes; so they agree unless there is content that leaves no trace.

What leaves no trace depends on the format (`Inline.isTraceless`): empty text does in all
of them, a hidden index term only in HTML, a key chord without keys in HTML and DocBook.
A node leaves no markup exactly if it is traceless (`markup_eq_empty_iff`), and what
leaves none in LaTeX leaves none in DocBook, and what leaves none there leaves none in
HTML.
-/
import Mathlib.Tactic.SplitIfs
import Rendition.Markup.Backend
import Rendition.Markup.Plain
import Rendition.Proofs.Text.Escape

namespace Rendition

set_option autoImplicit false

open Rendition.Text Rendition.Markup

/-! ## Content without a trace -/

/-- Whether the angle-bracket formats write nothing for a command: a chord without keys or a menu
without a path. -/
def Command.isTraceless (named : Command) : Bool :=
  named.name = "kbd" ∧ named.keys = [] ∨ named.name = "menu" ∧ named.menuPath = []

mutual

/-- Whether a node leaves no markup in a format. -/
def Inline.isTraceless (backend : Backend) : Inline → Bool
  | .text body _ | .passthrough body _ => body.isEmpty
  | .styled _ _ _ | .link _ _ _ | .crossReference _ _ _ | .math _ _ _ => false
  | .command named _ => backend != .latex && named.isTraceless
  | .footnote content _ id _ =>
      id.isNone &&
        (content.isEmpty || backend == .html && Inline.isTracelessAll backend content)
  | .indexTerm terms visible _ =>
      if backend = .html then (visibleTerm terms visible).isEmpty else terms.isEmpty

def Inline.isTracelessAll (backend : Backend) : List Inline → Bool
  | [] => true
  | node :: rest => node.isTraceless backend && Inline.isTracelessAll backend rest

end

/-! ## The formats -/

/-- What a dialect writes nothing for. -/
structure Dialect.Omits (dialect : Dialect) (backend : Backend) : Prop where
  escape (text : String) : dialect.escape text = "" ↔ text = ""
  styled (style : Style) (content : String) : dialect.styled style content ≠ ""
  link (target content : String) : dialect.link target content ≠ ""
  crossReference (target : Target) (hint : Option Span) (content : String) :
    dialect.crossReference target hint content ≠ ""
  math (formula : Formula) (display : Bool) : dialect.math formula display ≠ ""
  command (named : Command) :
    dialect.command named = "" ↔ backend ≠ .latex ∧ named.isTraceless
  footnoteReference (id : UInt32) : dialect.footnoteReference id ≠ ""
  footnoteDefinition (id : Option UInt32) (content : String) :
    dialect.footnoteDefinition id content = "" ↔ id = none ∧ backend = .html ∧ content = ""
  indexTerm (terms : List String) : dialect.indexTerm terms = "" ↔ backend = .html ∨ terms = []

theorem element_ne_empty (name : String) (attributes : List TagAttribute) (content : String) :
    element name attributes content ≠ "" := by
  simp [element, openTag]

theorem emptyElement_ne_empty (name : String) (attributes : List TagAttribute) :
    emptyElement name attributes ≠ "" := by
  simp [emptyElement]

theorem call_ne_empty (name : String) (arguments : List String) :
    Latex.call name arguments ≠ "" := by
  simp [Latex.call]

/-- What writes nothing for no parts, and something for any. -/
theorem eq_empty_iff_of_cons {f : List String → String} (nil : f [] = "")
    (cons : ∀ part parts, f (part :: parts) ≠ "") (parts : List String) :
    f parts = "" ↔ parts = [] := by
  cases parts with
  | nil => exact iff_of_true nil rfl
  | cons part parts => exact iff_of_false (cons part parts) (List.cons_ne_nil part parts)

/-- How the angle-bracket formats write commands: a chord by its keys and a menu by its path, of
which none leave nothing, and any other command by an element. -/
structure Command.ByElements (write : Command → String) (keys menu : List String → String) :
    Prop where
  noKeys : keys [] = ""
  someKeys : ∀ key others, keys (key :: others) ≠ ""
  noPath : menu [] = ""
  somePath : ∀ first steps, menu (first :: steps) ≠ ""
  kbd : ∀ named : Command, named.name = "kbd" → write named = keys named.keys
  menu : ∀ named : Command, named.name = "menu" → write named = menu named.menuPath
  other : ∀ named : Command, named.name ≠ "kbd" → named.name ≠ "menu" → write named ≠ ""

/-- A command that is written by elements is written as nothing only if it is traceless. -/
theorem Command.ByElements.eq_empty_iff {write : Command → String}
    {keys menu : List String → String} (elements : ByElements write keys menu) (named : Command) :
    write named = "" ↔ named.isTraceless := by
  by_cases kbd : named.name = "kbd"
  · rw [elements.kbd named kbd, eq_empty_iff_of_cons elements.noKeys elements.someKeys]
    simp [isTraceless, kbd]
  · by_cases menu : named.name = "menu"
    · rw [elements.menu named menu, eq_empty_iff_of_cons elements.noPath elements.somePath]
      simp [isTraceless, menu]
    · exact iff_of_false (elements.other named kbd menu) (by simp [isTraceless, kbd, menu])

namespace Html

theorem command_byElements : Command.ByElements command keys menu where
  noKeys := rfl
  someKeys _ others := by cases others <;> exact element_ne_empty _ _ _
  noPath := rfl
  somePath _ steps := by cases steps <;> exact element_ne_empty _ _ _
  kbd named kbd := by simp [command, kbd]
  menu named menu := by simp [command, menu]
  other named kbd menu := by
    simp only [command, kbd, menu, if_false]
    split_ifs <;> exact element_ne_empty _ _ _

theorem dialect_omits (resolve : Resolver) : (dialect resolve).Omits .html where
  escape text := Escape.html_injective.eq_iff' rfl
  styled _ _ := element_ne_empty _ _ _
  link _ _ := element_ne_empty _ _ _
  crossReference _ _ _ := element_ne_empty _ _ _
  math _ _ := element_ne_empty _ _ _
  command named := (command_byElements.eq_empty_iff named).trans (by simp)
  footnoteReference _ := element_ne_empty _ _ _
  footnoteDefinition id content := by
    cases id with
    | none => simp [dialect, footnoteDefinition]
    | some id => simp [dialect, footnoteDefinition, element_ne_empty]
  indexTerm terms := by simp [dialect]

end Html

namespace DocBook

theorem command_byElements : Command.ByElements command keys menu where
  noKeys := rfl
  someKeys _ others := by cases others <;> exact element_ne_empty _ _ _
  noPath := rfl
  somePath _ steps := by cases steps <;> exact element_ne_empty _ _ _
  kbd named kbd := by simp [command, kbd]
  menu named menu := by simp [command, menu]
  other named kbd menu := by
    simp only [command, kbd, menu, if_false]
    split_ifs <;> exact element_ne_empty _ _ _

theorem dialect_omits : dialect.Omits .docBook where
  escape text := Escape.xml_injective.eq_iff' rfl
  styled style _ := by cases style <;> exact element_ne_empty _ _ _
  link _ _ := element_ne_empty _ _ _
  crossReference target _ content := by
    change crossReference target content ≠ ""
    unfold crossReference
    split_ifs
    · exact emptyElement_ne_empty _ _
    · exact element_ne_empty _ _ _
  math _ _ := element_ne_empty _ _ _
  command named := (command_byElements.eq_empty_iff named).trans (by simp)
  footnoteReference _ := emptyElement_ne_empty _ _
  footnoteDefinition id content := by simp [dialect, footnoteDefinition, element_ne_empty]
  indexTerm terms := by
    rw [or_iff_right (by decide)]
    exact eq_empty_iff_of_cons (f := indexTerm) rfl (fun _ _ => element_ne_empty _ _ _) terms

end DocBook

namespace Latex

theorem command_ne_empty (named : Command) : command named ≠ "" := by
  unfold command
  split_ifs <;> exact call_ne_empty _ _

theorem dialect_omits : dialect.Omits .latex where
  escape text := Escape.latex_injective.eq_iff' rfl
  styled _ _ := call_ne_empty _ _
  link _ _ := call_ne_empty _ _
  crossReference target _ content := by
    change crossReference target content ≠ ""
    unfold crossReference
    split_ifs
    · exact call_ne_empty _ _
    · simp
  math _ display := by cases display <;> simp [dialect, math]
  command named := iff_of_false (command_ne_empty named) (by simp)
  footnoteReference _ := by simp [dialect]
  footnoteDefinition id content := by cases id <;> simp [dialect, footnoteDefinition, call]
  indexTerm terms := by
    rw [or_iff_right (by decide)]
    exact eq_empty_iff_of_cons (f := indexTerm) rfl (fun _ _ => call_ne_empty _ _) terms

end Latex

/-! ## Content -/

section Content

variable {dialect : Dialect} {backend : Backend}

mutual

/-- **A node leaves no markup exactly if it is traceless.** -/
theorem Dialect.Omits.markup_eq_empty_iff (omits : dialect.Omits backend) (place : Option Span)
    (node : Inline) : node.markup dialect place = "" ↔ node.isTraceless backend := by
  match node with
  | .text body _ => exact (omits.escape body).trans String.isEmpty_iff.symm
  | .passthrough body _ => exact String.isEmpty_iff.symm
  | .styled style _ _ => exact iff_of_false (omits.styled style _) Bool.false_ne_true
  | .link target [] _ => exact iff_of_false (omits.link target _) Bool.false_ne_true
  | .link target (_ :: _) _ => exact iff_of_false (omits.link target _) Bool.false_ne_true
  | .crossReference target _ _ =>
      exact iff_of_false (omits.crossReference target _ _) Bool.false_ne_true
  | .math formula display _ => exact iff_of_false (omits.math formula display) Bool.false_ne_true
  | .command named _ =>
      change dialect.command named = "" ↔ (backend != .latex && named.isTraceless) = true
      rw [omits.command, Bool.and_eq_true, bne_iff_ne]
  | .footnote [] _ (some id) _ =>
      exact iff_of_false (omits.footnoteReference id) Bool.false_ne_true
  | .footnote [] _ none _ => exact iff_of_true rfl rfl
  | .footnote (first :: rest) _ id _ =>
      change dialect.footnoteDefinition id (Inline.markupAll dialect place (first :: rest)) = "" ↔
        (id.isNone && (false || backend == .html &&
          Inline.isTracelessAll backend (first :: rest))) = true
      rw [omits.footnoteDefinition, omits.markupAll_eq_empty_iff place (first :: rest),
        Bool.false_or, Bool.and_eq_true, Bool.and_eq_true, Option.isNone_iff_eq_none, beq_iff_eq]
  | .indexTerm terms visible _ =>
      have unseen : terms = [] → visibleTerm terms visible = "" := by
        rintro rfl
        cases visible <;> rfl
      change dialect.indexTerm terms ++ dialect.escape (visibleTerm terms visible) = "" ↔
        (if backend = .html then (visibleTerm terms visible).isEmpty else terms.isEmpty) = true
      rw [String.append_eq_empty_iff, omits.indexTerm, omits.escape]
      split_ifs with html
      · simp [html]
      · simpa [html] using unseen

/-- A sequence is written as nothing if and only if it is traceless. -/
theorem Dialect.Omits.markupAll_eq_empty_iff (omits : dialect.Omits backend)
    (place : Option Span) (content : List Inline) :
    Inline.markupAll dialect place content = "" ↔ Inline.isTracelessAll backend content := by
  match content with
  | [] => exact iff_of_true rfl rfl
  | node :: rest =>
      have first := omits.markup_eq_empty_iff place node
      have others := omits.markupAll_eq_empty_iff place rest
      simp [Inline.markupAll, Inline.isTracelessAll, first, others]

end

end Content

section Formats

variable {backend other : Backend} (html : backend = .html → other = .html)
  (latex : other = .latex → backend = .latex)

include html latex

/-- Only HTML hides index terms and the frame of a footnote, and only LaTeX writes all commands:
with these in mind, what leaves no markup in one format leaves none in another. -/
theorem Inline.isTraceless_mono (node : Inline) (traceless : node.isTraceless backend) :
    node.isTraceless other := by
  match node with
  | .text _ _ | .passthrough _ _ => exact traceless
  | .styled _ _ _ | .link _ _ _ | .crossReference _ _ _ | .math _ _ _ =>
      exact absurd traceless Bool.false_ne_true
  | .command _ _ =>
      simp only [Inline.isTraceless, Bool.and_eq_true, bne_iff_ne] at traceless ⊢
      exact ⟨mt latex traceless.1, traceless.2⟩
  | .footnote content _ _ _ =>
      simp only [Inline.isTraceless, Bool.and_eq_true, Bool.or_eq_true, beq_iff_eq] at traceless ⊢
      obtain ⟨unnumbered, nothing | ⟨rfl, inner⟩⟩ := traceless
      · exact ⟨unnumbered, .inl nothing⟩
      · rw [html rfl]
        exact ⟨unnumbered, .inr ⟨rfl, inner⟩⟩
  | .indexTerm terms visible _ =>
      by_cases hidden : backend = .html
      · rw [html hidden]
        rwa [hidden] at traceless
      · obtain rfl : terms = [] := by simpa [Inline.isTraceless, hidden] using traceless
        cases visible <;> simp [Inline.isTraceless, visibleTerm]

/-- What is traceless where more leaves a trace is traceless where less does. -/
theorem Inline.isTracelessAll_mono (content : List Inline)
    (traceless : Inline.isTracelessAll backend content) : Inline.isTracelessAll other content := by
  induction content with
  | nil => rfl
  | cons node rest ih =>
      rw [Inline.isTracelessAll, Bool.and_eq_true] at traceless ⊢
      exact ⟨node.isTraceless_mono html latex traceless.1, ih traceless.2⟩

end Formats

/-! ## Cross-references -/

/-- Every format and plain text show the target of a cross-reference if a test of theirs says so,
and its content otherwise. -/
structure ShowsTargetIf (test : Backend → Bool) (plainTest : Bool) (resolve : Resolver)
    (place : Option Span) (target : Target) (content : List Inline) (span : Span) : Prop where
  html :
    (Inline.crossReference target content span).markup (Html.dialect resolve) place =
      Html.anchor ((resolve target (span.known?.or place)).getD (Html.fallbackAddress target.raw))
        (if test .html then Escape.html target.raw
        else Inline.markupAll (Html.dialect resolve) place content)
  docBook :
    (Inline.crossReference target content span).markup DocBook.dialect place =
      if test .docBook then emptyElement "xref" [("linkend", Escape.xml target.label)]
      else element "link" [("linkend", Escape.xml target.label)]
        (Inline.markupAll DocBook.dialect place content)
  latex :
    (Inline.crossReference target content span).markup Latex.dialect place =
      if test .latex then Latex.call "ref" [Escape.latexAddress target.label]
      else "\\hyperref" ++ Latex.bracketed (Escape.latexAddress target.label) ++
        Latex.braced (Inline.markupAll Latex.dialect place content)
  plain :
    (Inline.crossReference target content span).plain =
      if plainTest then target.raw else Inline.plainAll content

theorem Dialect.Omits.isEmpty_markupAll {dialect : Dialect} {backend : Backend}
    (omits : dialect.Omits backend) (place : Option Span) (content : List Inline) :
    (Inline.markupAll dialect place content).isEmpty = Inline.isTracelessAll backend content := by
  rw [Bool.eq_iff_iff, String.isEmpty_iff]
  exact omits.markupAll_eq_empty_iff place content

variable (resolve : Resolver) (place : Option Span) (target : Target) (content : List Inline)
  (span : Span)

/-- The formats go by what is written of the content, and plain text by its nodes. -/
theorem showsTargetIf_traceless :
    ShowsTargetIf (Inline.isTracelessAll · content) content.isEmpty resolve place target content
      span where
  html := by
    rw [← (Html.dialect_omits resolve).isEmpty_markupAll place content]
    rfl
  docBook := by
    rw [← DocBook.dialect_omits.isEmpty_markupAll place content]
    rfl
  latex := by
    rw [← Latex.dialect_omits.isEmpty_markupAll place content]
    rfl
  plain := by cases content <;> rfl

/-- A reference without content is not written like a link around some. -/
theorem emptyElement_ne_element (value content : String) :
    emptyElement "xref" [("linkend", value)] ≠ element "link" [("linkend", value)] content := by
  intro same
  have lists := congrArg String.toList same
  simp [emptyElement, element, openTag] at lists

theorem anchor_inj {address content other : String}
    (same : Html.anchor address content = Html.anchor address other) : content = other := by
  have lists := congrArg String.toList same
  exact String.toList_inj.mp (by simpa [Html.anchor, element] using lists)

variable {resolve place target content span}

/-- If all of them go by whether there is content, then content that there is leaves a trace, unless
nothing is to be seen of the target either. -/
theorem ShowsTargetIf.traces
    (claimed : ShowsTargetIf (fun _ => content.isEmpty) content.isEmpty resolve place target content
      span) (nonempty : content ≠ []) :
    Inline.isTracelessAll .html content = false ∨
      target.raw = "" ∧ Inline.isTracelessAll .docBook content = false := by
  have shown := showsTargetIf_traceless resolve place target content span
  have nodes : content.isEmpty = false := by simpa using nonempty
  cases html : Inline.isTracelessAll .html content with
  | false => exact .inl rfl
  | true =>
      refine .inr ⟨?_, Bool.eq_false_iff.mpr fun docBook => ?_⟩
      · have same := shown.html.symm.trans claimed.html
        simp only [html, nodes, if_true, Bool.false_eq_true, if_false] at same
        have trace := (Html.dialect_omits resolve).markupAll_eq_empty_iff place content
        exact (Escape.html_injective.eq_iff' rfl).mp ((anchor_inj same).trans (trace.mpr html))
      · have same := shown.docBook.symm.trans claimed.docBook
        simp only [docBook, nodes, if_true, Bool.false_eq_true, if_false] at same
        exact emptyElement_ne_element _ _ same

theorem showsTargetIf_isEmpty
    (traces : Inline.isTracelessAll .html content = false ∨
      target.raw = "" ∧ Inline.isTracelessAll .docBook content = false) :
    ShowsTargetIf (fun _ => content.isEmpty) content.isEmpty resolve place target content span := by
  have shown := showsTargetIf_traceless resolve place target content span
  have docBook : Inline.isTracelessAll .docBook content = false := by
    rcases traces with html | ⟨-, docBook⟩
    · exact Bool.eq_false_iff.mpr fun traceless => Bool.eq_false_iff.mp html
        (Inline.isTracelessAll_mono (by decide) (by decide) content traceless)
    · exact docBook
  have latex : Inline.isTracelessAll .latex content = false :=
    Bool.eq_false_iff.mpr fun traceless => Bool.eq_false_iff.mp docBook
      (Inline.isTracelessAll_mono (by decide) (by decide) content traceless)
  have nodes : content.isEmpty = false := by
    cases content with
    | nil => exact absurd docBook (by decide)
    | cons first rest => rfl
  rw [nodes]
  refine ⟨?_, ?_, ?_, ?_⟩
  · cases html : Inline.isTracelessAll .html content with
    | false =>
        rw [← html]
        exact shown.html
    | true =>
        -- the link text is empty either way
        have unseen : target.raw = "" := (traces.resolve_left (by simp [html])).1
        have trace := (Html.dialect_omits resolve).markupAll_eq_empty_iff place content
        rw [shown.html, unseen, trace.mpr html]
        simp only [html]
        rfl
  · rw [← docBook]
    exact shown.docBook
  · rw [← latex]
    exact shown.latex
  · rw [← nodes]
    exact shown.plain

variable (resolve place target content span)

/-- **When a cross-reference shows its target.**  In each format it does so exactly if its content
leaves no trace there, and in plain text exactly if it has no content.  All of them go by whether
there is content exactly if there is none, or it leaves a trace in HTML, or it leaves one in DocBook
and nothing is to be seen of the target. -/
theorem crossReference_shows_target :
    ShowsTargetIf (Inline.isTracelessAll · content) content.isEmpty resolve place target content
        span ∧
      (ShowsTargetIf (fun _ => content.isEmpty) content.isEmpty resolve place target content span ↔
        content = [] ∨ Inline.isTracelessAll .html content = false ∨
          target.raw = "" ∧ Inline.isTracelessAll .docBook content = false) := by
  refine ⟨showsTargetIf_traceless resolve place target content span, fun claimed => ?_, ?_⟩
  · by_cases nothing : content = []
    · exact .inl nothing
    · exact .inr (claimed.traces nothing)
  · rintro (rfl | traces)
    · exact showsTargetIf_traceless resolve place target [] span
    · exact showsTargetIf_isEmpty traces

namespace Example

def hidden : List Inline := [.indexTerm ["t"] false .unknown]

/-- In a cross-reference it makes HTML show the target, DocBook and LaTeX a link around the mark of
the term, and plain text nothing. -/
theorem hidden_shows_target :
    ¬ShowsTargetIf (fun _ => hidden.isEmpty) hidden.isEmpty .none none (.ofRaw "x") hidden
        .unknown ∧
      (Inline.crossReference (.ofRaw "x") hidden .unknown).markup (Html.dialect .none) none =
        "<a href=\"#x\">x</a>" ∧
      (Inline.crossReference (.ofRaw "x") hidden .unknown).markup DocBook.dialect none =
        "<link linkend=\"x\"><indexterm><primary>t</primary></indexterm></link>" ∧
      (Inline.crossReference (.ofRaw "x") hidden .unknown).markup Latex.dialect none =
        "\\hyperref[x]\x7b\\index\x7bt\x7d\x7d" ∧
      (Inline.crossReference (.ofRaw "x") hidden .unknown).plain = "" := by
  refine ⟨fun claimed => absurd claimed.html ?_, ?_, ?_, ?_, ?_⟩ <;> decide

end Example

end Rendition
