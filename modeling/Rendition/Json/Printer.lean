/-
# Rendition.Json.Printer -- JSON values as compact text

Members are written in their order, without blanks.  In strings the quote, the
backslash and the control characters are escaped, and nothing else.
-/
import Rendition.Json.Basic
import Rendition.Text.Substitution

namespace Rendition.Json

set_option autoImplicit false

def hexDigit (n : Nat) : Char := (Nat.toDigits 16 n).headD '0'

def escapeChar (c : Char) : String :=
  if c = '\x22' then "\\\""
  else if c = '\\' then "\\\\"
  else if c = '\x08' then "\\b"
  else if c = '\x0c' then "\\f"
  else if c = '\n' then "\\n"
  else if c = '\r' then "\\r"
  else if c = '\t' then "\\t"
  else if c.toNat < 0x20 then
    String.ofList ['\\', 'u', '0', '0', hexDigit (c.toNat / 16), hexDigit (c.toNat % 16)]
  else String.singleton c

/-- A string in quotes. -/
def quoted (s : String) : String := "\"" ++ Text.substitute escapeChar s ++ "\""

mutual

/-- A value as text. -/
def text : Json → String
  | .null => "null"
  | .bool true => "true"
  | .bool false => "false"
  | .number value => value.text
  | .string value => quoted value
  | .array elements => "[" ++ textOfElements elements ++ "]"
  | .object members => "\x7b" ++ textOfMembers members ++ "\x7d"

def textOfElements : List Json → String
  | [] => ""
  | [json] => json.text
  | json :: rest => json.text ++ "," ++ textOfElements rest

def textOfMembers : List (String × Json) → String
  | [] => ""
  | [(key, value)] => quoted key ++ ":" ++ value.text
  | (key, value) :: rest => quoted key ++ ":" ++ value.text ++ "," ++ textOfMembers rest

end

end Rendition.Json
