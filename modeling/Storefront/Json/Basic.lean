import Storefront.Entries

namespace Storefront

/-- A JSON value. A number is kept as its lexeme, an object as its members in order. -/
inductive Json where
  | null
  | boolean (b : Bool)
  | number (lexeme : String)
  | string (s : String)
  | array (items : List Json)
  | object (members : List (String × Json))
  deriving Repr, Inhabited

namespace Json

/-- As the first key of an object it marks a number, which is spelled by the string under it. -/
def numberMark : String := "$serde_json::private::Number"

def isMarked : List (String × Json) → Bool
  | [] => false
  | (key, _) :: _ => key = numberMark

mutual

def same : Json → Json → Bool
  | .null, .null => true
  | .boolean a, .boolean b => a == b
  | .number a, .number b => a == b
  | .string a, .string b => a == b
  | .array a, .array b => sameItems a b
  | .object a, .object b => sameMembers a b
  | _, _ => false

def sameItems : List Json → List Json → Bool
  | [], [] => true
  | v :: vs, w :: ws => same v w && sameItems vs ws
  | _, _ => false

def sameMembers : List (String × Json) → List (String × Json) → Bool
  | [], [] => true
  | (k, v) :: ms, (l, w) :: ns => k == l && same v w && sameMembers ms ns
  | _, _ => false

end

mutual

theorem same_iff : ∀ {v w : Json}, same v w ↔ v = w
  | .null, w => by cases w <;> simp [same]
  | .boolean a, w => by cases w <;> simp [same]
  | .number a, w => by cases w <;> simp [same]
  | .string a, w => by cases w <;> simp [same]
  | .array a, w => by cases w <;> simp [same, sameItems_iff]
  | .object a, w => by cases w <;> simp [same, sameMembers_iff]

theorem sameItems_iff : ∀ {vs ws : List Json}, sameItems vs ws ↔ vs = ws
  | [], ws => by cases ws <;> simp [sameItems]
  | v :: vs, ws => by cases ws <;> simp [sameItems, same_iff, sameItems_iff]

theorem sameMembers_iff : ∀ {ms ns : List (String × Json)}, sameMembers ms ns ↔ ms = ns
  | [], ns => by cases ns <;> simp [sameMembers]
  | (k, v) :: ms, ns => by
    cases ns <;> simp [sameMembers, same_iff, sameMembers_iff, Prod.ext_iff]

end

instance : DecidableEq Json := fun _ _ ↦ decidable_of_iff _ same_iff

def get? (key : String) : Json → Option Json
  | .object members => Entries.find? key members
  | _ => none

def asString? : Json → Option String
  | .string s => some s
  | _ => none

end Json

end Storefront
