/-
# Rendition.Proofs.Markup.Visible -- what a reader of HTML sees

A reader sees what is left of HTML without its tags, with the entities as the
characters they stand for (`visible`).  Of text, formatted content, links,
cross-references and index terms a reader sees the plain text, whatever the
addresses are (`visible_markupAll`).

Markup *shows* a text if a reader sees that text in front of whatever follows
(`Shows`): a tag shows nothing since no escaped value can end it, and escaped text
shows itself.  Only a cross-reference whose content leaves no trace shows more than
its plain text, namely its target; `isProse` leaves those out.
-/
import Mathlib.Tactic.SplitIfs
import Rendition.Markup.Html
import Rendition.Markup.Plain
import Rendition.Proofs.Text.Escape

namespace Rendition

set_option autoImplicit false

open Rendition.Text Rendition.Markup

namespace Html

/-! ## Reading -/

/-- The text outside of tags; `inTag` says whether it begins in one.  A tag goes from an angle
bracket to the next closing one. -/
def outsideTags (inTag : Bool) : List Char → List Char
  | [] => []
  | c :: cs =>
      if inTag then outsideTags (c != '>') cs
      else if c = '<' then outsideTags true cs
      else c :: outsideTags false cs

/-- The text with the four entities as the characters they stand for. -/
def decoded : List Char → List Char
  | '&' :: 'a' :: 'm' :: 'p' :: ';' :: cs => '&' :: decoded cs
  | '&' :: 'l' :: 't' :: ';' :: cs => '<' :: decoded cs
  | '&' :: 'g' :: 't' :: ';' :: cs => '>' :: decoded cs
  | '&' :: 'q' :: 'u' :: 'o' :: 't' :: ';' :: cs => '\x22' :: decoded cs
  | c :: cs => c :: decoded cs
  | [] => []

/-- What a reader sees of a stretch of markup that begins outside of tags. -/
def seen (cs : List Char) : List Char := decoded (outsideTags false cs)

def visible (markup : String) : String := String.ofList (seen markup.toList)

/-- A reader sees a text of the markup, in front of whatever follows. -/
def Shows (markup text : String) : Prop :=
  ∀ rest, seen (markup.toList ++ rest) = text.toList ++ seen rest

theorem Shows.visible_eq {markup text : String} (shows : Shows markup text) :
    visible markup = text := by
  have alone := shows []
  rw [List.append_nil, show seen [] = [] from rfl, List.append_nil] at alone
  rw [visible, alone, String.ofList_toList]

theorem shows_empty : Shows "" "" := fun _ => rfl

/-- What is seen of two pieces is seen one after the other. -/
theorem Shows.append {markup text more others : String} (left : Shows markup text)
    (right : Shows more others) : Shows (markup ++ more) (text ++ others) := by
  intro rest
  rw [String.toList_append, List.append_assoc, left, right, String.toList_append,
    List.append_assoc]

/-! ## Text -/

theorem decoded_cons {c : Char} (plain : c ≠ '&') (cs : List Char) :
    decoded (c :: cs) = c :: decoded cs := by
  rw [decoded] <;> simp_all

/-- A character is seen as itself, however it is escaped. -/
theorem shows_htmlEntity (c : Char) : Shows (Escape.htmlEntity c) (String.singleton c) := by
  intro rest
  unfold Escape.htmlEntity
  split_ifs with amp lt gt quote
  · subst amp
    simp [seen, outsideTags, decoded]
  · subst lt
    simp [seen, outsideTags, decoded]
  · subst gt
    simp [seen, outsideTags, decoded]
  · subst quote
    simp [seen, outsideTags, decoded]
  · simp [seen, outsideTags, lt, decoded_cons amp]

/-- Escaped text shows itself. -/
theorem shows_html (text : String) : Shows (Escape.html text) text := by
  intro rest
  rw [Escape.html, toList_substitute]
  induction text.toList with
  | nil => rfl
  | cons c cs ih =>
      have first := shows_htmlEntity c
      rw [List.flatMap_cons, List.append_assoc, first, ih]
      simp

/-! ## Tags -/

/-- A tag ends at its first closing bracket. -/
theorem outsideTags_tag {tag : List Char} (unclosed : '>' ∉ tag) (rest : List Char) :
    outsideTags true (tag ++ '>' :: rest) = outsideTags false rest := by
  induction tag with
  | nil => simp [outsideTags]
  | cons c tag ih =>
      obtain ⟨first, others⟩ := not_or.mp (mt List.mem_cons.mpr unclosed)
      rw [List.cons_append, outsideTags, if_pos rfl, bne_iff_ne.mpr (Ne.symm first), ih others]

/-- A tag shows nothing. -/
theorem shows_tag {tag : String} (unclosed : '>' ∉ tag.toList) : Shows ("<" ++ tag ++ ">") "" := by
  intro rest
  have stretch : ("<" ++ tag ++ ">").toList ++ rest = '<' :: (tag.toList ++ '>' :: rest) := by
    simp
  rw [stretch, seen, outsideTags, if_neg Bool.false_ne_true, if_pos rfl, outsideTags_tag unclosed]
  rfl

/-- Of an element its content is seen and nothing of its tags. -/
theorem shows_element {name content text : String} {attributes : List TagAttribute}
    (named : '>' ∉ name.toList) (listed : '>' ∉ (attributesText attributes).toList)
    (inner : Shows content text) : Shows (element name attributes content) text := by
  have opening : Shows (openTag name attributes) "" := by
    have tag : openTag name attributes = "<" ++ (name ++ attributesText attributes) ++ ">" := by
      simp [openTag, String.append_assoc]
    rw [tag]
    exact shows_tag (by simp [named, listed])
  have closing : Shows (closeTag name) "" := by
    have tag : closeTag name = "<" ++ ("/" ++ name) ++ ">" := by
      simp [closeTag, ← String.append_assoc]
    rw [tag]
    exact shows_tag (by simp [named])
  simpa [element] using (opening.append inner).append closing

/-- No value ends the tag that it stands in. -/
theorem notMem_attributeValue (text : String) : '>' ∉ (Escape.attributeValue text).toList :=
  Escape.writesEntities_attributeValue.notMem (by decide) (by decide) text

/-- The address of a link is not seen. -/
theorem shows_anchor {content text : String} (inner : Shows content text) (address : String) :
    Shows (anchor address content) text := by
  refine shows_element (by decide) ?_ inner
  simp [attributesText, notMem_attributeValue]

end Html

/-! ## Prose -/

mutual

/-- Whether a node is prose: text, formatted content, a link, an index term, or a cross-reference
whose content, if it has any, has a plain text; to any depth. -/
def Inline.isProse : Inline → Bool
  | .text _ _ | .indexTerm _ _ _ => true
  | .styled _ content _ | .link _ content _ => Inline.isProseAll content
  | .crossReference _ content _ =>
      Inline.isProseAll content && (content.isEmpty || Inline.plainAll content != "")
  | .math _ _ _ | .passthrough _ _ | .command _ _ | .footnote _ _ _ _ => false

def Inline.isProseAll : List Inline → Bool
  | [] => true
  | node :: rest => node.isProse && Inline.isProseAll rest

end

namespace Html

variable (resolve : Resolver) (place : Option Span)

/-- A cross-reference shows its content, if there is anything to see of it. -/
theorem shows_crossReference {content text : String} (target : Target) (hint : Option Span)
    (inner : Shows content text) (visible : text ≠ "") :
    Shows (crossReference resolve target hint content) text := by
  have written : content.isEmpty = false := by
    rw [Bool.eq_false_iff]
    intro empty
    obtain rfl := String.isEmpty_iff.mp empty
    exact visible inner.visible_eq.symm
  rw [crossReference, written]
  exact shows_anchor inner _

mutual

/-- A reader sees of a prose node its plain text. -/
theorem shows_markup (node : Inline) (prose : node.isProse) :
    Shows (node.markup (dialect resolve) place) node.plain := by
  match node with
  | .text body _ => exact shows_html body
  | .styled style content _ =>
      refine shows_element ?_ (by decide) (shows_markupAll content prose)
      cases style <;> decide
  | .link target [] _ => exact shows_anchor (shows_html target) target
  | .link target (first :: rest) _ => exact shows_anchor (shows_markupAll _ prose) target
  | .crossReference target [] _ => exact shows_anchor (shows_html target.raw) _
  | .crossReference target (first :: rest) span =>
      simp only [Inline.isProse, Bool.and_eq_true, Bool.or_eq_true, bne_iff_ne] at prose
      exact shows_crossReference resolve target _ (shows_markupAll _ prose.1)
        (prose.2.resolve_left (by simp))
  | .indexTerm terms visible _ =>
      exact shows_empty.append (shows_html (visibleTerm terms visible))

theorem shows_markupAll (content : List Inline) (prose : Inline.isProseAll content) :
    Shows (Inline.markupAll (dialect resolve) place content) (Inline.plainAll content) := by
  match content with
  | [] => exact shows_empty
  | node :: rest =>
      rw [Inline.isProseAll, Bool.and_eq_true] at prose
      exact (shows_markup node prose.1).append (shows_markupAll rest prose.2)

end

/-- **A reader sees the plain text.**  Without its tags and with its entities read, the HTML of
prose is its plain text, wherever it stands and whatever a resolver answers. -/
theorem visible_markupAll (resolve : Resolver) (place : Option Span) (content : List Inline)
    (prose : Inline.isProseAll content) :
    visible (Inline.markupAll (dialect resolve) place content) = Inline.plainAll content :=
  (shows_markupAll resolve place content prose).visible_eq

namespace Example

/-- A resolver whose answers would end a tag if they were not escaped. -/
def hostile : Resolver := fun target _ => some ("\"><b>" ++ target.raw)

/-- A reference with formatted content, one without content, a link and an index term. -/
def referring : List Inline :=
  [.ofText "a < ", .crossReference (.ofRaw "x&y") [.ofStyled .strong [.ofText "&lt;"]] .unknown,
    .crossReference (.ofRaw "<x>") [] .unknown, .link "p>q" [] .unknown,
    .indexTerm ["t", "u"] true .unknown]

theorem referring_visible :
    Inline.isProseAll referring ∧
      visible (Inline.markupAll (dialect hostile) none referring) = "a < &lt;<x>p>qt" := by
  have prose : Inline.isProseAll referring := by decide
  refine ⟨prose, ?_⟩
  rw [visible_markupAll hostile none referring prose]
  decide

end Example

end Html

end Rendition
