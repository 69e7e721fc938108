/-
# Rendition.Yaml.Token -- the tokens of a document

Tokens are the scalars and signs of a text, together with the starts and ends of
blocks, which no sign shows.  A node that is left out has no token; which tokens
can follow it says where that is allowed.
-/
namespace Rendition.Yaml

set_option autoImplicit false

inductive Token where
  | documentStart
  | documentEnd
  | blockSequence
  | blockMapping
  | blockEnd
  | openBracket
  | closeBracket
  | openBrace
  | closeBrace
  | entry
  | separator
  | key
  | value
  | plain (text : String)
  | quoted (text : String)
  deriving DecidableEq

/-! ## What ends a node that is left out -/

namespace Token

/-- Whether a document is over, or was empty. -/
def endsDocument (token : Token) : Bool := token = .documentStart || token = .documentEnd

/-- Whether an element of a block sequence is over. -/
def endsElement (token : Token) : Bool := token = .entry || token = .blockEnd

/-- Whether a key or value of a block mapping is over. -/
def endsMember (token : Token) : Bool := token = .key || token = .value || token = .blockEnd

/-- Whether a value in brackets is over. -/
def endsBracketed (token : Token) : Bool :=
  token = .separator || token = .closeBracket || token = .closeBrace

end Token

end Rendition.Yaml
