import Storefront.Schema.Codec

namespace Storefront

namespace Fields

def entries : (f : Fields) → f.Record → List (Row × Json)
  | .nil, _ => []
  | .cons row shape rest, (some x, more) => (row, shape.toJson x) :: rest.entries more
  | .cons _ _ rest, (none, more) => rest.entries more

theorem toMembers_eq : ∀ (f : Fields) (x : f.Record),
    f.toMembers x = (f.entries x).map fun e ↦ (e.1.localName, e.2)
  | .nil, _ => rfl
  | .cons _ _ rest, (some _, more) => congrArg (List.cons _) (rest.toMembers_eq more)
  | .cons _ _ rest, (none, more) => rest.toMembers_eq more

theorem map_entries_sublist : ∀ (f : Fields) (x : f.Record),
    ((f.entries x).map Prod.fst).Sublist f.rows
  | .nil, _ => .slnil
  | .cons row _ rest, (some _, more) => (rest.map_entries_sublist more).cons_cons row
  | .cons row _ rest, (none, more) => (rest.map_entries_sublist more).cons row

def assignAll (f : Fields) (entries : List (String × Json)) (x : f.Record) :
    Except Mismatch f.Record :=
  entries.foldlM (fun x e ↦ f.assign x e.1 e.2) x

theorem assignAll_cons (f : Fields) (e : String × Json) (entries : List (String × Json))
    (x : f.Record) : f.assignAll (e :: entries) x = (f.assign x e.1 e.2).bind (f.assignAll entries) :=
  rfl

end Fields

mutual

/-- Every member that is present satisfies a condition, through records and lists at any depth. -/
def Shape.EveryMember (p : (s : Shape) → s.Value → Prop) : (s : Shape) → s.Value → Prop
  | .list item, (xs : List item.Value) => ∀ x ∈ xs, item.EveryMember p x
  | .record _ fields, x => fields.EveryMember p x
  | .text, _ | .integer, _ | .double, _ | .flag, _ | .instant, _ | .anything, _ | .members, _
  | .choice _, _ => True

def Fields.EveryMember (p : (s : Shape) → s.Value → Prop) : (f : Fields) → f.Record → Prop
  | .nil, _ => True
  | .cons _ shape rest, (x, more) =>
    (∀ y ∈ x, p shape y ∧ shape.EveryMember p y) ∧ rest.EveryMember p more

end

namespace Shape

def NotNull : (s : Shape) → s.Value → Prop
  | .anything, v => v ≠ Json.null
  | _, _ => True

def IsFinite : (s : Shape) → s.Value → Prop
  | .double, x => ¬ Number.Double.isInfinite x
  | _, _ => True

/-- What is written as null is a free null or an infinite double. -/
theorem toJson_ne_null_iff {s : Shape} {x : s.Value} :
    s.toJson x ≠ .null ↔ s.NotNull x ∧ s.IsFinite x := by
  cases s with
  | double =>
    change (if Number.Double.isInfinite x then Json.null else .number (Number.Double.text x)) ≠
      .null ↔ True ∧ ¬ Number.Double.isInfinite x
    split
    · next h => exact iff_of_false (fun hne ↦ hne rfl) fun hf ↦ hf.2 h
    · next h => exact iff_of_true nofun ⟨trivial, h⟩
  | anything => exact (and_iff_left trivial).symm
  | text | integer | flag | instant | members | choice c | list item | record label fields =>
    exact iff_of_true nofun ⟨trivial, trivial⟩

end Shape

end Storefront
