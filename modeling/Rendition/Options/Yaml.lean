/-
# Rendition.Options.Yaml -- options read from YAML

A text that is blank, or that holds nothing but comments and the start of a
document, gives the defaults.  Null is not a mapping and is refused.
-/
import Rendition.Options.Basic
import Rendition.Text.Blank
import Rendition.Yaml.Document

namespace Rendition.Options

set_option autoImplicit false

def ofNode? : Yaml → Option Options
  | .mapping entries => ofEntries? Yaml.scalar? Yaml.toJson? entries
  | .plain "" => some default
  | _ => none

def ofYaml? (text : String) : Option Options :=
  if (Text.trimmed text).isEmpty then some default
  else (Yaml.readDocument? text).bind ofNode?

end Rendition.Options
