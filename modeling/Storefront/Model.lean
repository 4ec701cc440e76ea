import Storefront.Instant.Basic
import Storefront.Json.Basic

namespace Storefront

/-- A value on the domain side. Dates are read, and an object may repeat a key. -/
inductive Model where
  | null
  | boolean (b : Bool)
  | number (lexeme : String)
  | string (s : String)
  | date (i : Instant)
  | array (items : List Model)
  | object (members : List (String × Model))
  deriving Inhabited

namespace Model

mutual

def same : Model → Model → Bool
  | .null, .null => true
  | .boolean a, .boolean b => a == b
  | .number a, .number b => a == b
  | .string a, .string b => a == b
  | .date a, .date b => a == b
  | .array a, .array b => sameItems a b
  | .object a, .object b => sameMembers a b
  | _, _ => false

def sameItems : List Model → List Model → Bool
  | [], [] => true
  | v :: vs, w :: ws => same v w && sameItems vs ws
  | _, _ => false

def sameMembers : List (String × Model) → List (String × Model) → Bool
  | [], [] => true
  | (k, v) :: ms, (l, w) :: ns => k == l && same v w && sameMembers ms ns
  | _, _ => false

end

mutual

theorem same_iff : ∀ {v w : Model}, same v w ↔ v = w
  | .null, w => by cases w <;> simp [same]
  | .boolean a, w => by cases w <;> simp [same]
  | .number a, w => by cases w <;> simp [same]
  | .string a, w => by cases w <;> simp [same]
  | .date a, w => by cases w <;> simp [same]
  | .array a, w => by cases w <;> simp [same, sameItems_iff]
  | .object a, w => by cases w <;> simp [same, sameMembers_iff]

theorem sameItems_iff : ∀ {vs ws : List Model}, sameItems vs ws ↔ vs = ws
  | [], ws => by cases ws <;> simp [sameItems]
  | v :: vs, ws => by cases ws <;> simp [sameItems, same_iff, sameItems_iff]

theorem sameMembers_iff : ∀ {ms ns : List (String × Model)}, sameMembers ms ns ↔ ms = ns
  | [], ns => by cases ns <;> simp [sameMembers]
  | (k, v) :: ms, ns => by
    cases ns <;> simp [sameMembers, same_iff, sameMembers_iff, Prod.ext_iff]

end

instance : DecidableEq Model := fun _ _ ↦ decidable_of_iff _ same_iff

mutual

def ofJson : Json → Model
  | .null => .null
  | .boolean b => .boolean b
  | .number lexeme => .number lexeme
  | .string s => .string s
  | .array items => .array (ofItems items)
  | .object members => .object (ofMembers members)

def ofItems : List Json → List Model
  | [] => []
  | v :: vs => ofJson v :: ofItems vs

def ofMembers : List (String × Json) → List (String × Model)
  | [] => []
  | (k, v) :: ms => (k, ofJson v) :: ofMembers ms

end

mutual

/-- The JSON value with the structure of a value; dates become text, and of the members with one
key the first keeps its place and the last its value. -/
def toJson : Model → Json
  | .null => .null
  | .boolean b => .boolean b
  | .number lexeme => .number lexeme
  | .string s => .string s
  | .date i => .string i.text
  | .array items => .array (toItems items)
  | .object members => .object (Entries.ofList (toMembers members))

def toItems : List Model → List Json
  | [] => []
  | v :: vs => toJson v :: toItems vs

def toMembers : List (String × Model) → List (String × Json)
  | [] => []
  | (k, v) :: ms => (k, toJson v) :: toMembers ms

end

def get? (key : String) : Model → Option Model
  | .object members => Entries.find? key members
  | _ => none

def asString? : Model → Option String
  | .string s => some s
  | _ => none

def asDate? : Model → Option Instant
  | .date i => some i
  | _ => none

def isNull : Model → Bool
  | .null => true
  | _ => false

end Model

end Storefront
