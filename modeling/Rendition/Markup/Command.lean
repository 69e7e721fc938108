/-
# Rendition.Markup.Command -- what the named macros show

The key chord of `kbd:[Ctrl+T]`, the path of `menu:File[Save > As]` and the
text that stands for an image are the same in all formats.
-/
import Rendition.Text.Fields
import Rendition.Tree.Inline

namespace Rendition.Command

set_option autoImplicit false

open Rendition.Text

/-- The keys of a chord: the parts between plus signs.  A lone plus sign, or a second one at the
end, is the plus key itself. -/
def keysOf (body : List Char) : List (List Char) :=
  let body := trim body
  if body = ['+'] then [['+']]
  else if ['+', '+'].isSuffixOf body then items '+' body.dropLast.dropLast ++ [['+']]
  else items '+' body

def keys (command : Command) : List String := (keysOf command.body.toList).map String.ofList

/-- The path of a menu selection: the target, then the parts of the body. -/
def menuPath (command : Command) : List String :=
  let parts := match command.target with
    | some target => target.toList :: fields '>' command.body.toList
    | none => fields '>' command.body.toList
  ((parts.map trim).filter (! ·.isEmpty)).map String.ofList

/-- The text that stands for the command: its body, or its target if the body is empty. -/
def caption (command : Command) : String :=
  if command.body.isEmpty then command.target.getD "" else command.body

end Rendition.Command
