import Storefront.Json.Basic
import Storefront.Text.Quoted

namespace Storefront

inductive Found where
  | null
  | boolean (b : Bool)
  | number
  | string (s : String)
  | array
  | object
  deriving Repr, DecidableEq

namespace Found

def ofJson : Json → Found
  | .null => .null
  | .boolean b => .boolean b
  | .number _ => .number
  | .string s => .string s
  | .array _ => .array
  | .object _ => .object

def message : Found → String
  | .null => "null"
  | .boolean true => "boolean `true`"
  | .boolean false => "boolean `false`"
  | .number => "number"
  | .string s => "string " ++ Text.quoted s
  | .array => "sequence"
  | .object => "map"

end Found

namespace Json

def wantedNumeral : String := "string containing a number"

inductive Cause where
  | endInValue
  | endInList
  | endInObject
  | endInString
  | expectedWord
  | expectedValue
  | expectedColon
  | expectedItemEnd
  | expectedMemberEnd
  | keyNotString
  | trailingComma
  | trailingText
  | invalidNumber
  | invalidEscape
  | loneSurrogate
  | unpairedSurrogate
  | controlCharacter
  | tooDeep
  | notNumeral (found : Found)
  deriving Repr, DecidableEq

def Cause.message : Cause → String
  | .endInValue => "EOF while parsing a value"
  | .endInList => "EOF while parsing a list"
  | .endInObject => "EOF while parsing an object"
  | .endInString => "EOF while parsing a string"
  | .expectedWord => "expected ident"
  | .expectedValue => "expected value"
  | .expectedColon => "expected `:`"
  | .expectedItemEnd => "expected `,` or `]`"
  | .expectedMemberEnd => "expected `,` or `\x7d`"
  | .keyNotString => "key must be a string"
  | .trailingComma => "trailing comma"
  | .trailingText => "trailing characters"
  | .invalidNumber => "invalid number"
  | .invalidEscape => "invalid escape"
  | .loneSurrogate => "lone leading surrogate in hex escape"
  | .unpairedSurrogate => "unexpected end of hex escape"
  | .controlCharacter => "control character (\\u0000-\\u001F) found while parsing a string"
  | .tooDeep => "recursion limit exceeded"
  | .notNumeral found => "invalid type: " ++ found.message ++ ", expected " ++ wantedNumeral

/-- A cause with the place where reading stopped. Lines count from one, columns are bytes. -/
structure Fault where
  cause : Cause
  line : Nat
  column : Nat
  deriving Repr, DecidableEq

def Fault.message (f : Fault) : String :=
  f.cause.message ++ " at line " ++ toString f.line ++ " column " ++ toString f.column

def locate (line column : Nat) : List Char → Nat → Nat × Nat
  | [], _ => (line, column)
  | c :: cs, bytes =>
    if bytes < c.utf8Size then (line, column + bytes)
    else if c = '\n' then locate (line + 1) 0 cs (bytes - c.utf8Size)
    else locate line (column + c.utf8Size) cs (bytes - c.utf8Size)

end Json

end Storefront
