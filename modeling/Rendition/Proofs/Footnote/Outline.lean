/-
# Rendition.Proofs.Footnote.Outline -- numbering changes nothing but footnotes

The *outline* of a document has a bare mark in the place of each footnote: the
footnote's key and span are kept, its content and its number are not.  All else is
in the outline as it is in the document.  A document has the same outline before
and after its footnotes are numbered (`outline_resolveDocument`).
-/
import Rendition.Footnote.Resolve
import Rendition.Proofs.Tree.Content

namespace Rendition

set_option autoImplicit false

mutual

/-- A node with bare marks in the place of its footnotes. -/
def Inline.outline : Inline → Inline
  | .styled style content span => .styled style (Inline.outlineAll content) span
  | .link target content span => .link target (Inline.outlineAll content) span
  | .crossReference target content span => .crossReference target (Inline.outlineAll content) span
  | .footnote _ key _ span => .footnote [] key none span
  | .text body span => .text body span
  | .math formula display span => .math formula display span
  | .passthrough body span => .passthrough body span
  | .command named span => .command named span
  | .indexTerm terms visible span => .indexTerm terms visible span

def Inline.outlineAll : List Inline → List Inline
  | [] => []
  | inline :: rest => inline.outline :: Inline.outlineAll rest

end

def Document.outline (document : Document) : Document := document.mapContent Inline.outlineAll

namespace Footnote

mutual

/-- Whatever becomes of a footnote, its outline is a bare mark. -/
theorem outline_resolve (inline : Inline) (ledger : Ledger) :
    (resolve inline ledger).1.outline = inline.outline := by
  cases inline with
  | styled _ content _ | link _ content _ | crossReference _ content _ =>
      have inner := outlineAll_resolveAll content ledger
      simp only [resolve, Inline.outline, inner]
  | footnote | text | math | passthrough | command | indexTerm => rfl

theorem outlineAll_resolveAll (content : List Inline) (ledger : Ledger) :
    Inline.outlineAll (resolveAll content ledger).1 = Inline.outlineAll content := by
  match content with
  | [] => rfl
  | inline :: rest =>
      have first := outline_resolve inline ledger
      have others := outlineAll_resolveAll rest (resolve inline ledger).2
      simp only [resolveAll, Inline.outlineAll, first, others]

end

/-- **Numbering changes nothing but footnotes**: with bare marks in the place of its footnotes, a
numbered document is the document that was numbered. -/
theorem outline_resolveDocument (document : Document) :
    (resolveDocument document).document.outline = document.outline := by
  have unseen : Revision.Unseen resolveAll Inline.outlineAll := by
    intro passage ledger
    exact outlineAll_resolveAll passage ledger
  exact unseen.mapContent_document document .empty

end Footnote

end Rendition
