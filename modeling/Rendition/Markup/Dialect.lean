/-
# Rendition.Markup.Dialect -- inline content as markup

A dialect gives the markup of each leaf and the frame around each kind of
content.  `Inline.markup` is the one recursion that all dialects share.

A node that is linked or referred to by its own place passes that place as a
hint; a node without a place passes the place of the block around it.
-/
import Rendition.Tree.Inline

namespace Rendition

set_option autoImplicit false

/-- The markup of one output format. -/
structure Dialect where
  /-- Literal text. -/
  escape : String → String
  /-- Formatted content. -/
  styled : Style → String → String
  /-- A link to a target. -/
  link : String → String → String
  /-- A cross-reference, with the hint of its place; the content is empty if it has none. -/
  crossReference : Target → Option Span → String → String
  /-- Math, set off as a block or inside a line. -/
  math : Formula → Bool → String
  /-- A named macro. -/
  command : Command → String
  /-- A further mention of a footnote. -/
  footnoteReference : UInt32 → String
  /-- A footnote where it is defined. -/
  footnoteDefinition : Option UInt32 → String → String
  /-- The mark of an index term, without its visible text. -/
  indexTerm : List String → String

/-- The target as written, without a number sign in front. -/
def Target.label (target : Target) : String :=
  match target.raw.toList with
  | '#' :: rest => String.ofList rest
  | _ => target.raw

/-- The visible text of an index term: its first level. -/
def visibleTerm (terms : List String) (visible : Bool) : String :=
  if visible then terms.headD "" else ""

mutual

/-- The markup of a node; `place` is the place of the block around it. -/
def Inline.markup (dialect : Dialect) (place : Option Span) : Inline → String
  | .text body _ => dialect.escape body
  | .styled style content _ => dialect.styled style (Inline.markupAll dialect place content)
  | .link target [] _ => dialect.link target (dialect.escape target)
  | .link target content _ => dialect.link target (Inline.markupAll dialect place content)
  | .crossReference target content span =>
      dialect.crossReference target (span.known?.or place) (Inline.markupAll dialect place content)
  | .math formula display _ => dialect.math formula display
  | .passthrough body _ => body
  | .command named _ => dialect.command named
  | .footnote [] _ (some id) _ => dialect.footnoteReference id
  | .footnote [] _ none _ => ""
  | .footnote content _ id _ =>
      dialect.footnoteDefinition id (Inline.markupAll dialect place content)
  | .indexTerm terms visible _ =>
      dialect.indexTerm terms ++ dialect.escape (visibleTerm terms visible)

def Inline.markupAll (dialect : Dialect) (place : Option Span) : List Inline → String
  | [] => ""
  | inline :: rest => inline.markup dialect place ++ Inline.markupAll dialect place rest

end

end Rendition
