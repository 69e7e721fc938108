/-
# Rendition.Markup.DocBook -- inline content in DocBook

Cross-references name the raw target, without a leading number sign, as the
id they link to.
-/
import Rendition.Escape
import Rendition.Markup.Command
import Rendition.Markup.Dialect
import Rendition.Markup.Element
import Rendition.Math.MathML

namespace Rendition.DocBook

set_option autoImplicit false

open Rendition.Markup

def styled (style : Style) (content : String) : String :=
  match style with
  | .strong => element "emphasis" [("role", "strong")] content
  | .emphasis => element "emphasis" [] content
  | .monospace => element "literal" [] content
  | .mark => element "emphasis" [("role", "marked")] content
  | .superscript => element "superscript" [] content
  | .subscript => element "subscript" [] content

/-- A cross-reference: a link around content, a bare reference without it. -/
def crossReference (target : Target) (content : String) : String :=
  let attributes := [("linkend", Escape.xml target.label)]
  if content.isEmpty then emptyElement "xref" attributes else element "link" attributes content

def math (formula : Formula) (display : Bool) : String :=
  element (if display then "informalequation" else "inlineequation") []
    (Math.mathElement (Math.compile formula.form formula.body) display)

/-- The steps of a menu path below the first: submenus and at last the item. -/
def menuSteps : List String → String
  | [] => ""
  | [item] => element "guimenuitem" [] (Escape.xml item)
  | submenu :: rest => element "guisubmenu" [] (Escape.xml submenu) ++ menuSteps rest

def menu : List String → String
  | [] => ""
  | [only] => element "guimenu" [] (Escape.xml only)
  | first :: steps =>
      element "menuchoice" [] (element "guimenu" [] (Escape.xml first) ++ menuSteps steps)

/-- A key chord: one key alone, several in a combination. -/
def keys (keys : List String) : String :=
  match keys.map fun key => element "keycap" [] (Escape.xml key) with
  | [] => ""
  | [key] => key
  | several => element "keycombo" [] (String.join several)

def command (command : Command) : String :=
  let target := command.target.getD ""
  if command.name = "image" then
    element "inlinemediaobject" []
      (element "imageobject" [] (emptyElement "imagedata" [("fileref", Escape.xml target)]) ++
        element "textobject" [] (element "phrase" [] (Escape.xml command.caption)))
  else if command.name = "icon" then
    element "phrase" [("role", "icon")] ("[" ++ Escape.xml target ++ "]")
  else if command.name = "kbd" then keys command.keys
  else if command.name = "btn" then element "guibutton" [] (Escape.xml command.body)
  else if command.name = "menu" then menu command.menuPath
  else
    element "phrase"
      (("role", "macro") :: ("remap", Escape.xml command.name) ::
        command.target.toList.map fun target => ("annotations", Escape.xml target))
      (Escape.xml command.body)

def footnoteId (id : UInt32) : String := "_footnotedef_" ++ id.toNat.repr

/-- A footnote where it is defined. -/
def footnoteDefinition (id : Option UInt32) (content : String) : String :=
  element "footnote" (id.toList.map fun id => ("xml:id", footnoteId id)) (element "para" [] content)

/-- The levels of an index term, at most three. -/
def indexLevels (terms : List String) : String :=
  String.join (["primary", "secondary", "tertiary"].zipWith
    (fun level term => element level [] (Escape.xml (Text.trimmed term))) terms)

/-- The mark of an index term. -/
def indexTerm (terms : List String) : String :=
  if terms.isEmpty then "" else element "indexterm" [] (indexLevels terms)

def dialect : Dialect where
  escape := Escape.xml
  styled := styled
  link target content := element "link" [("xl:href", Escape.xml target)] content
  crossReference target _ content := crossReference target content
  math := math
  command := command
  footnoteReference id := emptyElement "footnoteref" [("linkend", footnoteId id)]
  footnoteDefinition := footnoteDefinition
  indexTerm := indexTerm

end Rendition.DocBook
