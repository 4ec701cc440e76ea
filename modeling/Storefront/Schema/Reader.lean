import Storefront.Instant.Reader
import Storefront.Json.Reader
import Storefront.Number.Double
import Storefront.Schema.Basic

namespace Storefront

/-- A number that is the plain text of a double takes the usual text of the double. -/
def Number.usualText (lexeme : String) : String :=
  match Double.ofLexeme? lexeme with
  | some x => if !x.isInfinite && x.plainText = lexeme then x.text else lexeme
  | none => lexeme

/-- The spelling of a number in a free member of a record. Whole numbers of 128 bits keep theirs,
only that zero has no sign. -/
def Number.respell (lexeme : String) : String :=
  match wholeNumber? lexeme.toList with
  | some n =>
    if n = 0 then "0" else if -(Nat.pow 2 127 : Int) ≤ n ∧ n < (Nat.pow 2 128 : Int) then lexeme else usualText lexeme
  | none => usualText lexeme

inductive Mismatch where
  | kind (found : Found) (wanted : String)
  | number
  | instant (fault : Instant.Fault)
  | literal (found : String) (literals : List String)
  | choiceKeys
  | tooMany (count : Nat)
  | numeral (fault : Json.Fault)
  | afterNumeral (count : Nat)
  deriving Repr, DecidableEq

namespace Mismatch

def tick (s : String) : String :=
  "`" ++ s ++ "`"

def wantedLiterals : List String → String
  | [] => "there are no variants"
  | [a] => "expected " ++ tick a
  | [a, b] => "expected " ++ tick a ++ " or " ++ tick b
  | literals => "expected one of " ++ ", ".intercalate (literals.map tick)

def message : Mismatch → String
  | .kind found wanted => "invalid type: " ++ found.message ++ ", expected " ++ wanted
  | .number => "invalid number"
  | .instant fault => fault.message
  | .literal found literals =>
    "unknown variant " ++ tick found ++ ", " ++ wantedLiterals literals
  | .choiceKeys => "invalid value: map, expected map with a single key"
  | .tooMany count => "invalid length " ++ toString count ++ ", expected fewer elements in array"
  | .numeral fault => fault.message
  | .afterNumeral count => "invalid length " ++ toString count ++ ", expected fewer elements in map"

def wanted {α : Type} (v : Json) (what : String) : Except Mismatch α :=
  .error (.kind (.ofJson v) what)

end Mismatch

open Mismatch

namespace Json

/-- The number that a marked object stands for. It is read before further members are refused. -/
def unmark : List (String × Json) → Except Mismatch Json
  | [] => .error (.afterNumeral 0)
  | (_, .string text) :: rest => do
    let v ← (readNumeral text).mapError .numeral
    if rest.isEmpty then return v else throw (.afterNumeral (rest.length + 1))
  | (_, v) :: _ => wanted v wantedNumeral

mutual

def respell : Json → Except Mismatch Json
  | .null => .ok .null
  | .boolean b => .ok (.boolean b)
  | .number lexeme => .ok (.number (Number.respell lexeme))
  | .string s => .ok (.string s)
  | .array items => (respellItems items).map .array
  | .object members =>
    if isMarked members then unmark members else (respellMembers members).map .object

def respellItems : List Json → Except Mismatch (List Json)
  | [] => .ok []
  | v :: vs => do
    let w ← respell v
    return w :: (← respellItems vs)

def respellMembers : List (String × Json) → Except Mismatch (List (String × Json))
  | [] => .ok []
  | (k, v) :: ms => do
    let w ← respell v
    return (k, w) :: (← respellMembers ms)

end

end Json

namespace Choice

def literal (c : Choice) (s : String) : Except Mismatch { s : String // s ∈ c.literals } :=
  if h : s ∈ c.literals then .ok ⟨s, h⟩ else .error (.literal s c.literals)

/-- A choice is written as its literal, or as an object that holds null under the literal. -/
def ofJson (c : Choice) : Json → Except Mismatch { s : String // s ∈ c.literals }
  | .string s => c.literal s
  | .object [(key, v)] => do
    let x ← c.literal key
    if v = .null then return x else wanted v "unit"
  | .object _ => .error .choiceKeys
  | v => wanted v "string or map"

end Choice

mutual

def Shape.ofJson : (s : Shape) → Json → Except Mismatch s.Value
  | .text, v =>
    match v with
    | .string s => .ok s
    | v => wanted v "a string"
  | .integer, v =>
    match v with
    | .number lexeme => (Number.int64? lexeme).elim (.error .number) .ok
    | v => wanted v "i64"
  | .double, v =>
    match v with
    | .number lexeme => (Number.Double.ofLexeme? lexeme).elim (.error .number) .ok
    | v => wanted v "f64"
  | .flag, v =>
    match v with
    | .boolean b => .ok b
    | v => wanted v "a boolean"
  | .instant, v =>
    match v with
    | .string s => (Instant.read s).mapError .instant
    | v => wanted v "an RFC 3339 formatted date and time string"
  | .anything, v => v.respell
  | .members, v =>
    match v with
    | .object ms => Json.respellMembers ms
    | v => wanted v "a map"
  | .choice c, v => c.ofJson v
  | .list item, v =>
    match v with
    | .array vs => vs.mapM item.ofJson
    | v => wanted v "a sequence"
  | .record label fields, v =>
    match v with
    | .object ms => ms.foldlM (fun x m ↦ fields.assign x m.1 m.2) fields.blank
    | .array vs => do
      let x ← fields.ofItems vs
      if fields.rows.length < vs.length then .error (.tooMany vs.length) else .ok x
    | v => wanted v ("struct " ++ label)

/-- Set the member with a local name; null leaves it absent, other names are ignored. -/
def Fields.assign : (f : Fields) → f.Record → String → Json → Except Mismatch f.Record
  | .nil, x, _, _ => .ok x
  | .cons row shape rest, (x, more), key, v =>
    if row.localName = key then
      if v = .null then .ok (none, more) else (shape.ofJson v).map fun x ↦ (some x, more)
    else (rest.assign more key v).map fun more ↦ (x, more)

def Fields.ofItems : (f : Fields) → List Json → Except Mismatch f.Record
  | .nil, _ => .ok ()
  | .cons row shape rest, [] => .ok (Fields.cons row shape rest).blank
  | .cons _ shape rest, v :: vs => do
    let x ← if v = .null then .ok none else (shape.ofJson v).map some
    let more ← rest.ofItems vs
    return (x, more)

end

def Schema.ofJson (s : Schema) (v : Json) : Except Mismatch s.Record :=
  s.shape.ofJson v

end Storefront
