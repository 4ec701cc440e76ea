import Storefront.Json.Basic
import Storefront.Text.Basic

namespace Storefront.Json

open Text

/-- One character of a string: only the quote, the backslash and the control characters below
U+0020 are escaped. -/
def escaped (c : Char) : List Char :=
  if c = '"' then ['\\', '"']
  else if c = '\\' then ['\\', '\\']
  else if c = '\n' then ['\\', 'n']
  else if c = '\r' then ['\\', 'r']
  else if c = '\t' then ['\\', 't']
  else if c.toNat = 8 then ['\\', 'b']
  else if c.toNat = 12 then ['\\', 'f']
  else if c.toNat < 0x20 then
    ['\\', 'u', '0', '0', hexDigit (c.toNat / 16), hexDigit (c.toNat % 16)]
  else [c]

def stringToken (s : String) : List Char :=
  '"' :: (s.toList.flatMap escaped ++ ['"'])

mutual

def tokens : Json → List (List Char)
  | .null => ["null".toList]
  | .boolean true => ["true".toList]
  | .boolean false => ["false".toList]
  | .number lexeme => [lexeme.toList]
  | .string s => [stringToken s]
  | .array [] => [['['], [']']]
  | .array (v :: vs) => ['['] :: (tokens v ++ (itemTokens vs ++ [[']']]))
  | .object [] => [['\x7b'], ['\x7d']]
  | .object ((k, v) :: ms) =>
    ['\x7b'] :: stringToken k :: [':'] :: (tokens v ++ (memberTokens ms ++ [['\x7d']]))

def itemTokens : List Json → List (List Char)
  | [] => []
  | v :: vs => [','] :: (tokens v ++ itemTokens vs)

def memberTokens : List (String × Json) → List (List Char)
  | [] => []
  | (k, v) :: ms => [','] :: stringToken k :: [':'] :: (tokens v ++ memberTokens ms)

end

def text (v : Json) : String :=
  String.ofList (tokens v).flatten

end Storefront.Json
