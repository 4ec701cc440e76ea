import Storefront.Proofs.Codec.WellFormed
import Storefront.Proofs.Model.Settle

namespace Storefront.Registry

/-- A domain value has a declared shape. Under a composite type only the declared members matter,
those of the type that stands for it in the value. -/
inductive Conforms (r : Registry) : Model → Descriptor → Prop
  | null (d : Descriptor) : Conforms r .null d
  | primitive {m : Model} {p : Primitive} : m.NoDates → m.NoRepeats → Conforms r m (.primitive p)
  | choice {m : Model} {name : String} : r.isChoice name → m.NoDates → m.NoRepeats →
      Conforms r m (.named name)
  | unregistered {m : Model} {name : String} : ¬ r.contains name → m.NoDates → m.NoRepeats →
      Conforms r m (.named name)
  | nullable {m : Model} {d : Descriptor} : Conforms r m d → Conforms r m (.nullable d)
  | optional {m : Model} {d : Descriptor} : Conforms r m d → Conforms r m (.optional d)
  | array {items : List Model} {d : Descriptor} : (∀ m ∈ items, Conforms r m d) →
      Conforms r (.array items) (.array d)
  | map {members : List (String × Model)} {d : Descriptor} : (Entries.keys members).Nodup →
      (∀ e ∈ members, Conforms r e.2 d) → Conforms r (.object members) (.map d)
  | date {i : Instant} : i.Settled → i.Regular → Conforms r (.date i) .date
  | composite {members : List (String × Model)} {name : String} {t : Table} : r.contains name →
      (Entries.keys members).Nodup →
      r.table? (r.resolve (Model.object members).tag? name) = some t →
      (∀ row ∈ t.rows, ∀ m, Entries.find? row.localName members = some m →
        Conforms r m row.type) →
      Conforms r (.object members) (.named name)

mutual

/-- The value with the members of every composite in the order of its table, without those that
the table does not declare. -/
def arrange (r : Registry) : Model → Descriptor → Model
  | .array items, d =>
    match d.bare with
    | .array e => .array ((itemArranges r items).map fun put ↦ put e)
    | _ => .array items
  | .object members, d =>
    match d.bare with
    | .map e => .object ((memberArranges r members).map fun (k, put) ↦ (k, put e))
    | .named name =>
      match r.chosen? (Model.object members).tag? name with
      | some table => .object (Entries.gather table.rows Row.localName fun row ↦
          (Entries.find? row.localName (memberArranges r members)).map fun put ↦ put row.type)
      | none => .object members
    | _ => .object members
  | m, _ => m

def itemArranges (r : Registry) : List Model → List (Descriptor → Model)
  | [] => []
  | m :: ms => (fun d ↦ arrange r m d) :: itemArranges r ms

def memberArranges (r : Registry) : List (String × Model) → List (String × (Descriptor → Model))
  | [] => []
  | (k, m) :: ms => (k, fun d ↦ arrange r m d) :: memberArranges r ms

end

variable {r : Registry} {d e : Descriptor}

section Arrange

theorem itemArranges_eq (items : List Model) :
    itemArranges r items = items.map fun m d ↦ r.arrange m d := by
  induction items with
  | nil => rfl
  | cons m ms ih => exact congrArg (List.cons _) ih

theorem memberArranges_eq (members : List (String × Model)) :
    memberArranges r members = members.map fun e ↦ (e.1, fun d ↦ r.arrange e.2 d) := by
  induction members with
  | nil => rfl
  | cons e es ih => exact congrArg (List.cons _) ih

theorem arrange_array_eq (items : List Model) (d : Descriptor) :
    r.arrange (.array items) d = match d.bare with
      | .array e => .array ((itemArranges r items).map fun put ↦ put e)
      | _ => .array items :=
  rfl

theorem arrange_object_eq (members : List (String × Model)) (d : Descriptor) :
    r.arrange (.object members) d = match d.bare with
      | .map e => .object ((memberArranges r members).map fun (k, put) ↦ (k, put e))
      | .named name =>
        match r.chosen? (Model.object members).tag? name with
        | some table => .object (Entries.gather table.rows Row.localName fun row ↦
            (Entries.find? row.localName (memberArranges r members)).map fun put ↦ put row.type)
        | none => .object members
      | _ => .object members :=
  rfl

theorem arrange_array (h : d.bare = .array e) (items : List Model) :
    r.arrange (.array items) d = .array (items.map (r.arrange · e)) := by
  rw [arrange_array_eq, h, itemArranges_eq]
  dsimp only
  rw [List.map_map]
  rfl

theorem arrange_map (h : d.bare = .map e) (members : List (String × Model)) :
    r.arrange (.object members) d = .object (members.map fun m ↦ (m.1, r.arrange m.2 e)) := by
  rw [arrange_object_eq, h, memberArranges_eq]
  dsimp only
  rw [List.map_map]
  rfl

theorem arrange_table {name : String} {t : Table} {members : List (String × Model)}
    (h : d.bare = .named name) (ht : r.chosen? (Model.object members).tag? name = some t) :
    r.arrange (.object members) d = .object (Entries.gather t.rows Row.localName fun row ↦
      (Entries.find? row.localName members).map (r.arrange · row.type)) := by
  rw [arrange_object_eq, h, memberArranges_eq]
  dsimp only
  rw [ht]
  simp only [Entries.find?_map (fun m d ↦ r.arrange m d), Option.map_map]
  rfl

theorem arrange_kept (h : d.Keeps r.table?) (m : Model) : r.arrange m d = m := by
  cases m with
  | null | boolean b | number lexeme | string s | date i => rfl
  | array items =>
    rw [arrange_array_eq]
    cases hd : d.bare with
    | array e => exact absurd hd (h.array e)
    | primitive | date | nullable | optional | map | named => rfl
  | object members =>
    rw [arrange_object_eq]
    cases hd : d.bare with
    | map e => exact absurd hd (h.object.1 e)
    | named name =>
      dsimp only
      rw [chosen?_eq_none_iff.2 (h.object.2 name hd)]
    | primitive | date | nullable | optional | array => rfl

theorem arrange_congr {d' : Descriptor} (h : d.bare = d'.bare) (m : Model) :
    r.arrange m d = r.arrange m d' := by
  cases m with
  | null | boolean b | number lexeme | string s | date i => rfl
  | array items => rw [arrange_array_eq, arrange_array_eq, h]
  | object members => rw [arrange_object_eq, arrange_object_eq, h]

end Arrange

theorem Conforms.noDates {m : Model} {p : Primitive} (h : r.Conforms m (.primitive p)) :
    m.NoDates := by
  cases h with
  | null => exact Model.everyDate_null
  | primitive hd _ => exact hd

/-- A date is the only value whose text appears when it is written. -/
theorem asString?_toJson {m : Model} (h : m.NoDates) : m.toJson.asString? = m.asString? := by
  cases m with
  | date i => exact absurd (Model.everyDate_date.1 h) id
  | null | boolean | number | string | array | object => rfl

/-- What is written for an object is read by the table by which it was written. -/
theorem chosen?_gather_toWire (hr : r.WellFormed) {name : String} {t : Table}
    {members : List (String × Model)} (ht : r.chosen? (Model.object members).tag? name = some t)
    (hm : ∀ row ∈ t.rows, ∀ m, Entries.find? row.localName members = some m →
      r.Conforms m row.type) :
    r.chosen? (Json.object (Entries.gather t.rows Row.wire fun row ↦
      (Entries.find? row.localName members).map (r.toWire · row.type))).tag? name = some t := by
  apply hr.chosen?_congr ht
  intro f p hp
  have hf := Entries.find?_gather (hr.nodup_wires_of_chosen? ht) (fun row ↦
    (Entries.find? row.localName members).map (r.toWire · row.type)) hp
  simp only [Model.tag?, Model.get?, Json.tag?, Json.get?, hf, toWire_primitive]
  cases hfind : Entries.find? f members with
  | none => rfl
  | some m => exact asString?_toJson (hm _ hp m hfind).noDates

theorem toModel_toWire_kept (hr : r.WellFormed) {m : Model} (h : d.Keeps r.table?)
    (hd : m.NoDates) (hn : m.NoRepeats) : r.toModel (r.toWire m d) d = r.arrange m d := by
  rw [hr.toWire_kept h, hr.toModel_kept h, Model.ofJson_toJson hd hn, arrange_kept h]

def leaf : Model :=
  .object [("unknown", .boolean true),
    ("dates", .array [.date ⟨1704067200, 0, by decide, by decide, by decide⟩]),
    ("kind", .string "Leaf")]

theorem conforms_leaf : linked.Conforms leaf (.named "Node") := by
  have ht : linked.table? (linked.resolve leaf.tag? "Node") = some leafTable := by
    decide +kernel
  refine .composite (by decide +kernel) (by decide +kernel) ht ?_
  intro row hrow m hm
  simp only [leafTable, List.mem_cons, List.not_mem_nil, or_false] at hrow
  rcases hrow with rfl | rfl
  · obtain rfl : Model.string "Leaf" = m := by simpa [Entries.find?] using hm
    exact .primitive (Model.everyDate_string "Leaf") (Model.noRepeats_string "Leaf")
  · obtain rfl : _ = m := by simpa [Entries.find?] using hm
    refine .array ?_
    intro m hm
    rw [List.mem_singleton.1 hm]
    exact .date (by decide +kernel) (by decide +kernel)

end Storefront.Registry
