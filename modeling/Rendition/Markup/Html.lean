/-
# Rendition.Markup.Html -- inline content in HTML

Cross-references ask a resolver for their address and fall back to the target
as written.  Index terms leave no mark.
-/
import Rendition.Escape
import Rendition.Markup.Command
import Rendition.Markup.Dialect
import Rendition.Markup.Element
import Rendition.Math.MathML

namespace Rendition

set_option autoImplicit false

/-- Finds the address of a cross-reference, given a hint of where it stands. -/
abbrev Resolver := Target → Option Span → Option String

/-- The resolver that knows no address. -/
def Resolver.none : Resolver := fun _ _ => .none

namespace Html

open Rendition.Markup

/-- The address of a target that no resolver knows: bare names are fragments of the page. -/
def fallbackAddress (raw : String) : String :=
  if raw.toList.head? = some '#' ∨ '.' ∈ raw.toList then raw else "#" ++ raw

def styleTag : Style → String
  | .strong => "strong"
  | .emphasis => "em"
  | .monospace => "code"
  | .mark => "mark"
  | .superscript => "sup"
  | .subscript => "sub"

/-- A link to an address. -/
def anchor (address content : String) : String :=
  element "a" [("href", Escape.attributeValue address)] content

/-- A cross-reference; without content it shows the target as written. -/
def crossReference (resolve : Resolver) (target : Target) (hint : Option Span)
    (content : String) : String :=
  anchor ((resolve target hint).getD (fallbackAddress target.raw))
    (if content.isEmpty then Escape.html target.raw else content)

def math (formula : Formula) (display : Bool) : String :=
  element (if display then "div" else "span") [("class", "math")]
    (Math.mathElement (Math.compile formula.form formula.body) display)

/-- A step of a menu path below the first, after an arrow. -/
def menuStep (kind item : String) : String :=
  "&#160;" ++ element "b" [("class", "caret")] "&#8250;" ++ " " ++
    element "b" [("class", kind)] (Escape.html item)

/-- The steps of a menu path below the first: submenus and at last the item. -/
def menuSteps : List String → String
  | [] => ""
  | [item] => menuStep "menuitem" item
  | submenu :: rest => menuStep "submenu" submenu ++ menuSteps rest

def menu : List String → String
  | [] => ""
  | [only] => element "b" [("class", "menuref")] (Escape.html only)
  | first :: steps =>
      element "span" [("class", "menuseq")]
        (element "b" [("class", "menu")] (Escape.html first) ++ menuSteps steps)

/-- A key chord: one key alone, several in a frame with plus signs between. -/
def keys (keys : List String) : String :=
  match keys.map fun key => element "kbd" [] (Escape.html key) with
  | [] => ""
  | [key] => key
  | several => element "span" [("class", "keyseq")] ("+".intercalate several)

def command (command : Command) : String :=
  let target := command.target.getD ""
  if command.name = "image" then
    element "span" [("class", "image")]
      (openTag "img"
        [("src", Escape.attributeValue target), ("alt", Escape.attributeValue command.caption)])
  else if command.name = "icon" then
    element "span" [("class", "icon")]
      (element "i" [("class", "fa fa-" ++ Escape.attributeValue target)] "")
  else if command.name = "kbd" then keys command.keys
  else if command.name = "btn" then element "b" [("class", "button")] (Escape.html command.body)
  else if command.name = "menu" then menu command.menuPath
  else
    element "span"
      (("class", "unknown-macro") :: ("data-name", Escape.attributeValue command.name) ::
        command.target.toList.map fun target => ("data-target", Escape.attributeValue target))
      (Escape.html command.body)

/-- The id of the anchor where a footnote is defined in the text. -/
def footnoteAnchor (id : UInt32) : String := "_footnoteref_" ++ id.toNat.repr

/-- The address of a footnote in the list of footnotes. -/
def footnoteAddress (id : UInt32) : String := "#_footnotedef_" ++ id.toNat.repr

/-- A further mention of a footnote. -/
def footnoteReference (id : UInt32) : String :=
  element "sup" [("class", "footnoteref")]
    ("[" ++ element "a"
      [("class", "footnote"), ("href", footnoteAddress id), ("title", "View footnote.")]
      id.toNat.repr ++ "]")

/-- A footnote where it is defined; without a number only its content. -/
def footnoteDefinition (id : Option UInt32) (content : String) : String :=
  match id with
  | some id =>
      element "span" [("class", "footnote"), ("id", footnoteAnchor id)]
        ("[" ++ element "a" [("href", footnoteAddress id)] id.toNat.repr ++ "] " ++ content)
  | none => content

def dialect (resolve : Resolver) : Dialect where
  escape := Escape.html
  styled style content := element (styleTag style) [] content
  link := anchor
  crossReference := crossReference resolve
  math := math
  command := command
  footnoteReference := footnoteReference
  footnoteDefinition := footnoteDefinition
  indexTerm _ := ""

end Html

end Rendition
