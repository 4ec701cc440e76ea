import Storefront.Codec
import Storefront.Instant.Basic
import Storefront.Json.Reader
import Storefront.Number.Double
import Storefront.Schema.Basic
import Storefront.Schema.Reader

namespace Storefront

/-- An infinite double has no JSON number. -/
def Number.Double.toJson (x : Number.Double) : Json :=
  if x.isInfinite then .null else .number x.text

def Number.int64Json (n : Int64) : Json :=
  .number (String.ofList (intText n.toInt))

mutual

def Shape.toJson : (s : Shape) → s.Value → Json
  | .text, s => .string s
  | .integer, n => Number.int64Json n
  | .double, x => Number.Double.toJson x
  | .flag, b => .boolean b
  | .instant, i => .string (Instant.exactText i)
  | .anything, v => v
  | .members, ms => .object ms
  | .choice _, c => .string c.val
  | .list item, xs => .array (List.map item.toJson xs)
  | .record _ fields, x => .object (fields.toMembers x)

def Fields.toMembers : (f : Fields) → f.Record → List (String × Json)
  | .nil, _ => []
  | .cons row shape rest, (some x, more) => (row.localName, shape.toJson x) :: rest.toMembers more
  | .cons _ _ rest, (none, more) => rest.toMembers more

end

def Schema.toJson (s : Schema) (x : s.Record) : Json :=
  .object (s.fields.toMembers x)

inductive ModelError where
  | unregistered (name : String)
  | unreadable (fault : Json.Fault)
  | mismatch (m : Mismatch)
  deriving Repr, DecidableEq

def ModelError.message : ModelError → String
  | .unregistered name => "Type not registered: " ++ name
  | .unreadable fault => "Serialization error: " ++ fault.message
  | .mismatch m => "Serialization error: " ++ m.message

def readText {α : Type} (read : Json → Except Mismatch α) (text : String) : Except ModelError α := do
  let v ← (Json.parse text).mapError .unreadable
  (read v).mapError .mismatch

def Schema.parse (s : Schema) (text : String) : Except ModelError s.Record :=
  readText s.ofJson text

def Choice.parse (c : Choice) (text : String) :
    Except ModelError { s : String // s ∈ c.literals } :=
  readText c.ofJson text

namespace Registry

def encode (r : Registry) (s : Schema) (x : s.Record) : Except ModelError Json :=
  if r.contains s.name then .ok (r.toWire (.ofJson (s.toJson x)) (.named s.name))
  else .error (.unregistered s.name)

def decode (r : Registry) (s : Schema) (wire : Json) : Except ModelError s.Record :=
  if r.contains s.name then (s.ofJson (r.toModel wire (.named s.name)).toJson).mapError .mismatch
  else .error (.unregistered s.name)

end Registry

end Storefront
