/-
# Rendition.Index.Collect -- the index terms of a document

Terms are collected in reading order from all passages, also from inside
footnotes, links and formatted content.  Tables have no passages.
-/
import Rendition.Index.Catalog
import Rendition.Tree.Passages

namespace Rendition.Index

set_option autoImplicit false

mutual

def terms : Inline → List (List String)
  | .indexTerm levels _ _ => [levels]
  | .styled _ content _ | .link _ content _ | .crossReference _ content _
  | .footnote content _ _ _ => termsAll content
  | .text _ _ | .math _ _ _ | .passthrough _ _ | .command _ _ => []

def termsAll : List Inline → List (List String)
  | [] => []
  | inline :: rest => terms inline ++ termsAll rest

end

def collect (document : Document) : Catalog :=
  .ofTerms (document.passages.flatMap termsAll)

end Rendition.Index
