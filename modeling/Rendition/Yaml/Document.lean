/-
# Rendition.Yaml.Document -- from tokens to the node of a document

Every reader takes the node at the start of a list of tokens and returns it with
the tokens after it.  What may stand there depends on the `Surrounding`: blocks
do not stand in brackets, and a block sequence without a start of its own, at
the column of its key, only in a block mapping.  An element, key or value that is
left out is the absent node.

Keys are scalars.  In brackets a question mark with nothing after it takes the
next sign with it.

Of four steps of the readers at least one consumes a token, so four times the
number of tokens bounds the recursion.
-/
import Rendition.Yaml.Basic
import Rendition.Yaml.Tokenize

namespace Rendition.Yaml

set_option autoImplicit false

/-- What surrounds a node: a document or a block sequence, a block mapping, or brackets. -/
inductive Surrounding where
  | block
  | mapping
  | brackets
  deriving DecidableEq

/-! ## Nodes -/

mutual

def readNode? : (fuel : Nat) → Surrounding → List Token → Option (Yaml × List Token)
  | 0, _, _ => none
  | _, _, .plain text :: rest => some (.plain text, rest)
  | _, _, .quoted text :: rest => some (.quoted text, rest)
  | fuel + 1, _, .openBracket :: rest => do
      let (elements, rest) ← readBracketed? fuel rest
      return (.sequence elements, rest)
  | fuel + 1, _, .openBrace :: rest => do
      let (entries, rest) ← readBraced? fuel rest
      return (.mapping entries, rest)
  | fuel + 1, surrounding, .blockSequence :: rest =>
      if surrounding = .brackets then none
      else do
        let (elements, rest) ← readElements? fuel rest
        return (.sequence elements, rest)
  | fuel + 1, surrounding, .blockMapping :: rest =>
      if surrounding = .brackets then none
      else do
        let (entries, rest) ← readMembers? fuel rest
        return (.mapping entries, rest)
  | fuel + 1, .mapping, .entry :: rest => do
      let (elements, rest) ← readUnindented? fuel (.entry :: rest)
      return (.sequence elements, rest)
  | _, _, _ => none

/-- The node in front; absent if a token that ends it is there instead. -/
def readOptional? : (fuel : Nat) → Surrounding → (Token → Bool) → List Token →
    Option (Yaml × List Token)
  | 0, _, _, _ => none
  | fuel + 1, surrounding, ends, tokens =>
      if tokens.head?.any ends then some (absent, tokens) else readNode? fuel surrounding tokens

/-- The node after the sign for a value; absent if there is no such sign. -/
def readValue? : (fuel : Nat) → Surrounding → (Token → Bool) → List Token →
    Option (Yaml × List Token)
  | 0, _, _, _ => none
  | fuel + 1, surrounding, ends, .value :: rest => readOptional? fuel surrounding ends rest
  | _, _, _, tokens => some (absent, tokens)

/-- The elements of a block sequence. -/
def readElements? : (fuel : Nat) → List Token → Option (List Yaml × List Token)
  | 0, _ => none
  | _, .blockEnd :: rest => some ([], rest)
  | fuel + 1, .entry :: rest => do
      let (element, rest) ← readOptional? fuel .block Token.endsElement rest
      let (elements, rest) ← readElements? fuel rest
      return (element :: elements, rest)
  | _, _ => none

/-- The elements of a sequence at the column of its key. -/
def readUnindented? : (fuel : Nat) → List Token → Option (List Yaml × List Token)
  | 0, _ => none
  | fuel + 1, .entry :: rest => do
      let ends (token : Token) : Bool := token.endsElement || token.endsMember
      let (element, rest) ← readOptional? fuel .block ends rest
      let (elements, rest) ← readUnindented? fuel rest
      return (element :: elements, rest)
  | _, tokens => some ([], tokens)

/-- The entries of a block mapping. -/
def readMembers? : (fuel : Nat) → List Token → Option (List (String × Yaml) × List Token)
  | 0, _ => none
  | _, .blockEnd :: rest => some ([], rest)
  | fuel + 1, .key :: rest => do
      let (key, rest) ← readOptional? fuel .mapping Token.endsMember rest
      let (value, rest) ← readValue? fuel .mapping Token.endsMember rest
      let (entries, rest) ← readMembers? fuel rest
      return ((← key.scalar?, value) :: entries, rest)
  | _, _ => none

/-- The elements up to the closing bracket. -/
def readBracketed? : (fuel : Nat) → List Token → Option (List Yaml × List Token)
  | 0, _ => none
  | _, .closeBracket :: rest => some ([], rest)
  | fuel + 1, tokens => do
      let (element, rest) ← readBracketElement? fuel tokens
      match rest with
      | .separator :: rest =>
          let (elements, rest) ← readBracketed? fuel rest
          return (element :: elements, rest)
      | .closeBracket :: rest => return ([element], rest)
      | _ => none

/-- One element in brackets; with a key it is a mapping of one entry. -/
def readBracketElement? : (fuel : Nat) → List Token → Option (Yaml × List Token)
  | 0, _ => none
  | fuel + 1, .key :: rest => do
      let (key, rest) ← match rest with
        | .value :: rest => pure (absent, rest)
        | .separator :: rest => pure (absent, rest)
        | .closeBracket :: rest => pure (absent, rest)
        | rest => readNode? fuel .brackets rest
      let (value, rest) ← readValue? fuel .brackets Token.endsBracketed rest
      return (.mapping [(← key.scalar?, value)], rest)
  | fuel + 1, tokens => readNode? fuel .brackets tokens

/-- The entries up to the closing brace; a node without the sign for a key has no value. -/
def readBraced? : (fuel : Nat) → List Token → Option (List (String × Yaml) × List Token)
  | 0, _ => none
  | _, .closeBrace :: rest => some ([], rest)
  | fuel + 1, tokens => do
      let (key, value, rest) ← match tokens with
        | .key :: rest => do
            let ends (token : Token) : Bool := token = .value || token.endsBracketed
            let (key, rest) ← readOptional? fuel .brackets ends rest
            let (value, rest) ← readValue? fuel .brackets Token.endsBracketed rest
            pure (key, value, rest)
        | tokens => do
            let (key, rest) ← readNode? fuel .brackets tokens
            pure (key, absent, rest)
      let entry := (← key.scalar?, value)
      match rest with
      | .separator :: rest =>
          let (entries, rest) ← readBraced? fuel rest
          return (entry :: entries, rest)
      | .closeBrace :: rest => return ([entry], rest)
      | _ => none

end

/-! ## Documents -/

/-- The node of the only document of a list of tokens; absent if the document is empty or there is
none. -/
def document? (tokens : List Token) : Option Yaml := do
  let fuel := 4 * tokens.length + 4
  let (node, rest) ← match tokens with
    | [] => pure (absent, [])
    | .documentStart :: rest =>
        if rest.head?.all Token.endsDocument then pure (absent, rest)
        else readNode? fuel .block rest
    | tokens => readNode? fuel .block tokens
  if rest.all (· = .documentEnd) then return node else none

/-- The node of a text; none if it is no document, more than one, or deeper than 128 collections. -/
def readDocument? (text : String) : Option Yaml := do
  let cs := text.toList
  if cs.all isPrintable then
    let node ← document? (← tokens? (places cs))
    if node.depth ≤ 128 then return node else none
  else none

end Rendition.Yaml
