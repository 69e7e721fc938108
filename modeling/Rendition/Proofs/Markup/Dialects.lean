/-
# Rendition.Proofs.Markup.Dialects -- what the dialects write is well formed

A dialect `Writes` a format if each of its functions gives a fragment of the
format, whatever texts it is given and for all content that is itself a
fragment.  HTML does so for every resolver (`Html.dialect_writes`), and so does
DocBook (`DocBook.dialect_writes`).  The one recursion over inline content then
writes a fragment for all content without passthroughs (`fragment_markupAll`):
each constructor is one law of the dialect.

Math is the same tree of elements in both formats (`fragment_mathML`).
-/
import Rendition.Proofs.Markup.Fragment
import Rendition.Proofs.Math.Arity
import Rendition.Proofs.Tree.Passthrough

namespace Rendition

set_option autoImplicit false

open Rendition.Markup

variable {format : TagFormat}

/-! ## Math -/

/-- Elements of MathML are well formed. -/
theorem fragment_of_elements {count : Nat} {text : String} (elements : Math.Elements count text) :
    Fragment format text := by
  induction elements with
  | nil => exact fragment_empty
  | @leaf kind _ _ _ literal _ ih =>
      have known : TagFormat.html.hasElement kind.tag := by cases kind <;> decide
      rw [← Math.tagged_eq]
      exact .append (fragment_plain (hasElement_of_html known)
        (.text (literal.mono isTextChar_of_isUnreserved).of_docBook)) ih
  | @branch kind _ _ _ _ _ _ _ inner ih =>
      have known : TagFormat.html.hasElement kind.tag := by cases kind <;> decide
      rw [← Math.tagged_eq]
      exact .append (fragment_plain (hasElement_of_html known) inner) ih

theorem fragment_mathML (node : Math.Node) : Fragment format node.mathML :=
  fragment_of_elements (Math.elements_mathML node)

theorem fragment_mathElement {content : String} (inner : Fragment format content)
    (display : Bool) : Fragment format (Math.mathElement content display) := by
  refine fragment_element (hasElement_of_html (by decide)) ?_ inner
  refine attributeList_cons (by decide) (literal_constant (by decide)) ?_
  refine attributeList_singleton (by decide) (literal_constant ?_)
  cases display <;> decide

/-! ## The laws of a dialect -/

/-- A dialect whose markup is well formed in a format. -/
structure Dialect.Writes (dialect : Dialect) (format : TagFormat) : Prop where
  escape (text : String) : Fragment format (dialect.escape text)
  styled (style : Style) {content : String} :
    Fragment format content → Fragment format (dialect.styled style content)
  link (target : String) {content : String} :
    Fragment format content → Fragment format (dialect.link target content)
  crossReference (target : Target) (hint : Option Span) {content : String} :
    Fragment format content → Fragment format (dialect.crossReference target hint content)
  math (formula : Formula) (display : Bool) : Fragment format (dialect.math formula display)
  command (named : Command) : Fragment format (dialect.command named)
  footnoteReference (id : UInt32) : Fragment format (dialect.footnoteReference id)
  footnoteDefinition (id : Option UInt32) {content : String} :
    Fragment format content → Fragment format (dialect.footnoteDefinition id content)
  indexTerm (terms : List String) : Fragment format (dialect.indexTerm terms)

/-! ## HTML -/

namespace Html

/-- A link is well formed whatever address the resolver gives. -/
theorem fragment_anchor (address : String) {content : String} (inner : Fragment .html content) :
    Fragment .html (anchor address content) :=
  fragment_element (by decide)
    (attributeList_singleton (by decide) (literal_attributeValue address)) inner

/-- An element with a class. -/
theorem fragment_classed {name kind content : String} (known : TagFormat.html.hasElement name)
    (constant : kind.toList.all isValueChar) (inner : Fragment .html content) :
    Fragment .html (element name [("class", kind)] content) :=
  fragment_element known (attributeList_singleton (by decide) (literal_constant constant)) inner

theorem fragment_math (formula : Formula) (display : Bool) :
    Fragment .html (math formula display) := by
  refine fragment_classed ?_ (by decide) (fragment_mathElement (fragment_mathML _) display)
  cases display <;> decide

theorem fragment_menuStep {kind : String} (constant : kind.toList.all isValueChar)
    (item : String) : Fragment .html (menuStep kind item) := by
  have space : Fragment .html "&#160;" :=
    .text (literal_reference (by decide : "#160" ∈ TagFormat.html.references))
  have arrow : Fragment .html "&#8250;" :=
    .text (literal_reference (by decide : "#8250" ∈ TagFormat.html.references))
  have caret : Fragment .html (element "b" [("class", "caret")] "&#8250;") :=
    fragment_classed (by decide) (by decide) arrow
  have blank : Fragment .html " " := fragment_constant (by decide)
  exact ((space.append caret).append blank).append
    (fragment_classed (by decide) constant (fragment_html item))

theorem fragment_menuSteps (path : List String) : Fragment .html (menuSteps path) := by
  -- the last step is of another class, so a step is known only with the one after it
  match path with
  | [] => exact fragment_empty
  | [item] => exact fragment_menuStep (by decide) item
  | submenu :: next :: rest =>
      exact (fragment_menuStep (by decide) submenu).append (fragment_menuSteps (next :: rest))

theorem fragment_menu (path : List String) : Fragment .html (menu path) := by
  match path with
  | [] => exact fragment_empty
  | [only] => exact fragment_classed (by decide) (by decide) (fragment_html only)
  | first :: next :: rest =>
      exact fragment_classed (by decide) (by decide)
        ((fragment_classed (by decide) (by decide) (fragment_html first)).append
          (fragment_menuSteps (next :: rest)))

theorem fragment_keys (names : List String) : Fragment .html (keys names) := by
  have each : ∀ key ∈ names.map fun key => element "kbd" [] (Escape.html key),
      Fragment .html key := by
    rw [List.forall_mem_map]
    exact fun key _ => fragment_plain (by decide) (fragment_html key)
  unfold keys
  split
  · exact fragment_empty
  · rename_i key alone
    exact each key (by rw [alone]; exact List.mem_singleton_self key)
  · exact fragment_classed (by decide) (by decide)
      (fragment_intercalate (fragment_constant (by decide)) each)

theorem fragment_command (named : Command) : Fragment .html (command named) := by
  unfold command
  split_ifs with image icon kbd button menu
  · refine fragment_classed (by decide) (by decide) (.void (by decide) ?_)
    exact attributeList_cons (by decide) (literal_attributeValue _)
      (attributeList_singleton (by decide) (literal_attributeValue _))
  · refine fragment_classed (by decide) (by decide) (fragment_element (by decide) ?_ fragment_empty)
    have fixed : Literal .html isValueChar "fa fa-" := literal_constant (by decide)
    exact attributeList_singleton (by decide) (fixed.append (literal_attributeValue _))
  · exact fragment_keys _
  · exact fragment_classed (by decide) (by decide) (fragment_html _)
  · exact fragment_menu _
  · refine fragment_element (by decide) ?_ (fragment_html _)
    refine attributeList_cons (by decide) (literal_constant (by decide)) ?_
    refine attributeList_cons (by decide) (literal_attributeValue _) ?_
    cases named.target with
    | none => exact attributeList_nil
    | some target =>
        exact attributeList_singleton (by decide) (literal_attributeValue target)

theorem literal_footnoteAddress (id : UInt32) : Literal .html isValueChar (footnoteAddress id) :=
  (literal_constant (by decide)).append (literal_repr _)

theorem fragment_footnoteReference (id : UInt32) : Fragment .html (footnoteReference id) := by
  refine fragment_classed (by decide) (by decide) (fragment_between (by decide) ?_ (by decide))
  refine fragment_element (by decide) ?_ (fragment_repr _)
  refine attributeList_cons (by decide) (literal_constant (by decide)) ?_
  refine attributeList_cons (by decide) (literal_footnoteAddress id) ?_
  exact attributeList_singleton (by decide) (literal_constant (by decide))

theorem fragment_footnoteDefinition (id : Option UInt32) {content : String}
    (inner : Fragment .html content) : Fragment .html (footnoteDefinition id content) := by
  cases id with
  | none => exact inner
  | some id =>
      refine fragment_element (by decide) ?_ ?_
      · refine attributeList_cons (by decide) (literal_constant (by decide)) ?_
        refine attributeList_singleton (by decide) ?_
        exact (literal_constant (by decide)).append (literal_repr _)
      · refine .append (fragment_between (by decide) ?_ (by decide)) inner
        exact fragment_element (by decide)
          (attributeList_singleton (by decide) (literal_footnoteAddress id)) (fragment_repr _)

/-- **HTML is well formed whatever the resolver answers.** -/
theorem dialect_writes (resolve : Resolver) : (dialect resolve).Writes .html where
  escape := fragment_html
  styled style _ inner := by
    refine fragment_plain ?_ inner
    cases style <;> decide
  link target _ inner := fragment_anchor target inner
  crossReference target hint content inner := by
    refine fragment_anchor _ ?_
    split
    · exact fragment_html target.raw
    · exact inner
  math := fragment_math
  command := fragment_command
  footnoteReference := fragment_footnoteReference
  footnoteDefinition id _ inner := fragment_footnoteDefinition id inner
  indexTerm _ := fragment_empty

end Html

/-! ## DocBook -/

namespace DocBook

/-- A tag with one escaped attribute. -/
theorem attributeList_xml {name : String} (named : isName name) (value : String) :
    AttributeList .docBook (attributesText [(name, Escape.xml value)]) :=
  attributeList_singleton named (literal_xml value)

theorem fragment_emptyElement {name : String} {attributes : List TagAttribute}
    (named : isName name) (listed : AttributeList .docBook (attributesText attributes)) :
    Fragment .docBook (emptyElement name attributes) :=
  .short rfl named listed

/-- An element around literal text. -/
theorem fragment_leaf {name : String} (known : TagFormat.docBook.hasElement name)
    (text : String) : Fragment .docBook (element name [] (Escape.xml text)) :=
  fragment_plain known (fragment_xml text)

theorem fragment_styled (style : Style) {content : String} (inner : Fragment .docBook content) :
    Fragment .docBook (styled style content) := by
  cases style with
  | strong | mark =>
      exact fragment_element (by decide)
        (attributeList_singleton (by decide) (literal_constant (by decide))) inner
  | emphasis | monospace | superscript | subscript => exact fragment_plain (by decide) inner

theorem fragment_crossReference (target : Target) {content : String}
    (inner : Fragment .docBook content) : Fragment .docBook (crossReference target content) := by
  unfold crossReference
  split_ifs
  · exact fragment_emptyElement (by decide) (attributeList_xml (by decide) _)
  · exact fragment_element (by decide) (attributeList_xml (by decide) _) inner

theorem fragment_math (formula : Formula) (display : Bool) :
    Fragment .docBook (math formula display) := by
  refine fragment_plain ?_ (fragment_mathElement (fragment_mathML _) display)
  cases display <;> decide

theorem fragment_menuSteps (path : List String) : Fragment .docBook (menuSteps path) := by
  match path with
  | [] => exact fragment_empty
  | [item] => exact fragment_leaf (by decide) item
  | submenu :: next :: rest =>
      exact (fragment_leaf (by decide) submenu).append (fragment_menuSteps (next :: rest))

theorem fragment_menu (path : List String) : Fragment .docBook (menu path) := by
  match path with
  | [] => exact fragment_empty
  | [only] => exact fragment_leaf (by decide) only
  | first :: next :: rest =>
      exact fragment_plain (by decide)
        ((fragment_leaf (by decide) first).append (fragment_menuSteps (next :: rest)))

theorem fragment_keys (names : List String) : Fragment .docBook (keys names) := by
  have each : ∀ key ∈ names.map fun key => element "keycap" [] (Escape.xml key),
      Fragment .docBook key := by
    rw [List.forall_mem_map]
    exact fun key _ => fragment_leaf (by decide) key
  unfold keys
  split
  · exact fragment_empty
  · rename_i key alone
    exact each key (by rw [alone]; exact List.mem_singleton_self key)
  · exact fragment_plain (by decide) (fragment_join each)

theorem fragment_command (named : Command) : Fragment .docBook (command named) := by
  unfold command
  split_ifs with image icon kbd button menu
  · refine fragment_plain (by decide) (.append ?_ ?_)
    · exact fragment_plain (by decide)
        (fragment_emptyElement (by decide) (attributeList_xml (by decide) _))
    · exact fragment_plain (by decide) (fragment_leaf (by decide) _)
  · exact fragment_element (by decide)
      (attributeList_singleton (by decide) (literal_constant (by decide)))
      (fragment_between (by decide) (fragment_xml _) (by decide))
  · exact fragment_keys _
  · exact fragment_leaf (by decide) _
  · exact fragment_menu _
  · refine fragment_element (by decide) ?_ (fragment_xml _)
    refine attributeList_cons (by decide) (literal_constant (by decide)) ?_
    refine attributeList_cons (by decide) (literal_xml _) ?_
    cases named.target with
    | none => exact attributeList_nil
    | some target => exact attributeList_xml (by decide) target

theorem literal_footnoteId (id : UInt32) : Literal .docBook isValueChar (footnoteId id) :=
  (literal_constant (by decide)).append (literal_repr _)

theorem fragment_footnoteDefinition (id : Option UInt32) {content : String}
    (inner : Fragment .docBook content) : Fragment .docBook (footnoteDefinition id content) := by
  refine fragment_element (by decide) ?_ (fragment_plain (by decide) inner)
  cases id with
  | none => exact attributeList_nil
  | some id => exact attributeList_singleton (by decide) (literal_footnoteId id)

/-- The levels of an index term are elements around escaped text. -/
theorem fragment_indexLevels (terms : List String) : Fragment .docBook (indexLevels terms) := by
  have known : ∀ level ∈ ["primary", "secondary", "tertiary"],
      TagFormat.docBook.hasElement level := by decide
  refine fragment_join fun part inside => ?_
  obtain ⟨position, short, rfl⟩ := List.mem_iff_getElem.mp inside
  rw [List.getElem_zipWith]
  exact fragment_leaf (known _ (List.getElem_mem _)) _

/-- **DocBook is well formed.** -/
theorem dialect_writes : dialect.Writes .docBook where
  escape := fragment_xml
  styled style _ inner := fragment_styled style inner
  link target _ inner :=
    fragment_element (by decide) (attributeList_xml (by decide) target) inner
  crossReference target _ _ inner := fragment_crossReference target inner
  math := fragment_math
  command := fragment_command
  footnoteReference id :=
    fragment_emptyElement (by decide)
      (attributeList_singleton (by decide) (literal_footnoteId id))
  footnoteDefinition id _ inner := fragment_footnoteDefinition id inner
  indexTerm terms := by
    change Fragment .docBook (indexTerm terms)
    unfold indexTerm
    split_ifs
    · exact fragment_empty
    · exact fragment_plain (by decide) (fragment_indexLevels terms)

end DocBook

/-! ## Inline content -/

variable {dialect : Dialect}

mutual

/-- **A dialect that keeps its laws writes a fragment for every node without passthroughs.** -/
theorem fragment_markup (writes : dialect.Writes format) (place : Option Span) (inline : Inline)
    (clean : inline.noPassthrough) : Fragment format (inline.markup dialect place) := by
  match inline with
  | .text body _ => exact writes.escape body
  | .styled style content _ =>
      exact writes.styled style (fragment_markupAll writes place content clean)
  | .link target [] _ => exact writes.link target (writes.escape target)
  | .link target (first :: rest) _ =>
      exact writes.link target (fragment_markupAll writes place (first :: rest) clean)
  | .crossReference target content span =>
      exact writes.crossReference target _ (fragment_markupAll writes place content clean)
  | .math formula display _ => exact writes.math formula display
  | .passthrough _ _ => exact absurd clean Bool.false_ne_true
  | .command named _ => exact writes.command named
  | .footnote [] _ (some id) _ => exact writes.footnoteReference id
  | .footnote [] _ none _ => exact fragment_empty
  | .footnote (first :: rest) _ id _ =>
      exact writes.footnoteDefinition id (fragment_markupAll writes place (first :: rest) clean)
  | .indexTerm terms visible _ =>
      exact (writes.indexTerm terms).append (writes.escape (visibleTerm terms visible))

/-- A sequence of nodes without passthroughs is written in well-formed markup. -/
theorem fragment_markupAll (writes : dialect.Writes format) (place : Option Span)
    (content : List Inline) (clean : Inline.noPassthroughAll content) :
    Fragment format (Inline.markupAll dialect place content) := by
  match content with
  | [] => exact fragment_empty
  | inline :: rest =>
      rw [Inline.noPassthroughAll, Bool.and_eq_true] at clean
      exact (fragment_markup writes place inline clean.1).append
        (fragment_markupAll writes place rest clean.2)

end

end Rendition
