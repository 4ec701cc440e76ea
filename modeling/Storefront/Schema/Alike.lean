import Storefront.Schema.Basic

namespace Storefront

/-- The two zeros count as one number. -/
def Number.Double.alike (x y : Number.Double) : Bool :=
  x = y || (x.isZero && y.isZero)

namespace Json

mutual

def alike : Json → Json → Bool
  | .null, .null => true
  | .boolean a, .boolean b => a == b
  | .number a, .number b => a == b
  | .string a, .string b => a == b
  | .array a, .array b => alikeItems a b
  | .object a, .object b => a.length == b.length && alikeMembers a b
  | _, _ => false

def alikeItems : List Json → List Json → Bool
  | [], [] => true
  | v :: vs, w :: ws => alike v w && alikeItems vs ws
  | _, _ => false

def alikeMembers : List (String × Json) → List (String × Json) → Bool
  | [], _ => true
  | (k, v) :: ms, ns =>
    (match Entries.find? k ns with
    | some w => alike v w
    | none => false) && alikeMembers ms ns

end

end Json

def sameValue {α : Type} [DecidableEq α] (x y : α) : Bool :=
  x = y

def alikeLists {α : Type} (alike : α → α → Bool) : List α → List α → Bool
  | [], [] => true
  | x :: xs, y :: ys => alike x y && alikeLists alike xs ys
  | _, _ => false

mutual

def Shape.alike : (s : Shape) → s.Value → s.Value → Bool
  | .text, x, y => @sameValue String _ x y
  | .integer, x, y => @sameValue Int64 _ x y
  | .double, x, y => Number.Double.alike x y
  | .flag, x, y => @sameValue Bool _ x y
  | .instant, x, y => @sameValue Instant _ x y
  | .anything, x, y => Json.alike x y
  | .members, x, y => Json.alike (.object x) (.object y)
  | .choice _, x, y => x.val == y.val
  | .list item, x, y => alikeLists item.alike x y
  | .record _ fields, x, y => fields.alike x y

def Fields.alike : (f : Fields) → f.Record → f.Record → Bool
  | .nil, _, _ => true
  | .cons _ shape rest, (x, xs), (y, ys) =>
    (match x, y with
    | some x, some y => shape.alike x y
    | none, none => true
    | _, _ => false) && rest.alike xs ys

end

end Storefront
