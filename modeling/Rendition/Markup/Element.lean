/-
# Rendition.Markup.Element -- tags and elements

The angle-bracket formats write every tag through these functions.  Attribute
values are given as they stand in the output, already escaped.
-/
namespace Rendition.Markup

set_option autoImplicit false

/-- An attribute name and its escaped value. -/
abbrev TagAttribute := String × String

def attributesText : List TagAttribute → String
  | [] => ""
  | (name, value) :: rest => " " ++ name ++ "=\"" ++ value ++ "\"" ++ attributesText rest

def openTag (name : String) (attributes : List TagAttribute) : String :=
  "<" ++ name ++ attributesText attributes ++ ">"

def closeTag (name : String) : String := "</" ++ name ++ ">"

def element (name : String) (attributes : List TagAttribute) (content : String) : String :=
  openTag name attributes ++ content ++ closeTag name

/-- An element without content, in the short form of XML. -/
def emptyElement (name : String) (attributes : List TagAttribute) : String :=
  "<" ++ name ++ attributesText attributes ++ "/>"

end Rendition.Markup
