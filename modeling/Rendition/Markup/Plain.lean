/-
# Rendition.Markup.Plain -- inline content as plain text

What remains of content without its markup: used for titles, previews and
search.  Footnotes and hidden index terms leave nothing.
-/
import Rendition.Markup.Command
import Rendition.Markup.Dialect

namespace Rendition

set_option autoImplicit false

mutual

def Inline.plain : Inline → String
  | .text body _ => body
  | .styled _ content _ => Inline.plainAll content
  | .link target [] _ => target
  | .link _ content _ => Inline.plainAll content
  | .crossReference target [] _ => target.raw
  | .crossReference _ content _ => Inline.plainAll content
  | .math formula _ _ => formula.body
  | .passthrough body _ => body
  | .command named _ => named.caption
  | .footnote _ _ _ _ => ""
  | .indexTerm terms visible _ => visibleTerm terms visible

def Inline.plainAll : List Inline → String
  | [] => ""
  | inline :: rest => inline.plain ++ Inline.plainAll rest

end

end Rendition
