/-
# Rendition.Options.Basic -- the options of a rendering

Two options: the backend and a navigation payload that is passed through.  Both
may be left out; anything else is refused.
-/
import Rendition.Renderer.Basic

namespace Rendition

set_option autoImplicit false

structure Options where
  backend : Backend
  navigation : Json

namespace Options

def default : Options := ⟨.html, .null⟩

/-- The navigation payload as a context value. -/
def navigationValue (options : Options) : Value := .ofPayload JsonNumber.text options.navigation

def renderer (options : Options) : Renderer :=
  (Renderer.ofBackend options.backend).withNavigation options.navigationValue

/-- The option of a name set to a value that is read from its notation; none for any other name. -/
def set? {α : Type} (text? : α → Option String) (json? : α → Option Json) (options : Options)
    (name : String) (value : α) : Option Options :=
  if name = "backend" then do
    return { options with backend := ← Backend.ofName? (← text? value) }
  else if name = "navigation" then do return { options with navigation := ← json? value }
  else none

/-- The options of a list of names and values; none if a name occurs twice. -/
def ofEntries? {α : Type} (text? : α → Option String) (json? : α → Option Json)
    (entries : List (String × α)) : Option Options :=
  if (entries.map Prod.fst).Nodup then
    entries.foldlM (fun options entry => set? text? json? options entry.1 entry.2) default
  else none

def ofJson? (json : Json) : Option Options := do
  ofEntries? Json.string? some (← json.members?)

end Options

end Rendition
