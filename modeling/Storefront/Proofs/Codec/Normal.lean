import Storefront.Proofs.Codec.WellFormed
import Storefront.Proofs.Model.Settle

namespace Storefront.Registry

mutual

/-- The wire form of a wire value: declared members only, in the order of the tables, and dates as
they are written. -/
def normal (r : Registry) : Json → Descriptor → Json
  | .string s, d =>
    match d.bare with
    | .date => .string (Model.wireDateText s)
    | _ => .string s
  | .array items, d =>
    match d.bare with
    | .array e => .array ((itemNormals r items).map fun norm ↦ norm e)
    | _ => .array items
  | .object members, d =>
    match d.bare with
    | .map e => .object ((memberNormals r members).map fun (k, norm) ↦ (k, norm e))
    | .named name =>
      match r.chosen? (Json.object members).tag? name with
      | some table => .object (Entries.gather table.rows Row.wire fun row ↦
          (Entries.find? row.wire (memberNormals r members)).map fun norm ↦ norm row.type)
      | none => .object members
    | _ => .object members
  | v, _ => v

def itemNormals (r : Registry) : List Json → List (Descriptor → Json)
  | [] => []
  | v :: vs => (fun d ↦ normal r v d) :: itemNormals r vs

def memberNormals (r : Registry) : List (String × Json) → List (String × (Descriptor → Json))
  | [] => []
  | (k, v) :: ms => (k, fun d ↦ normal r v d) :: memberNormals r ms

end

variable {r : Registry} {d e : Descriptor}

section Equations

theorem itemNormals_eq (items : List Json) :
    itemNormals r items = items.map fun v d ↦ r.normal v d := by
  induction items with
  | nil => rfl
  | cons v vs ih => exact congrArg (List.cons _) ih

theorem memberNormals_eq (members : List (String × Json)) :
    memberNormals r members = members.map fun e ↦ (e.1, fun d ↦ r.normal e.2 d) := by
  induction members with
  | nil => rfl
  | cons e es ih => exact congrArg (List.cons _) ih

theorem normal_string_eq (s : String) (d : Descriptor) :
    r.normal (.string s) d = match d.bare with
      | .date => .string (Model.wireDateText s)
      | _ => .string s :=
  rfl

theorem normal_array_eq (items : List Json) (d : Descriptor) :
    r.normal (.array items) d = match d.bare with
      | .array e => .array ((itemNormals r items).map fun norm ↦ norm e)
      | _ => .array items :=
  rfl

theorem normal_object_eq (members : List (String × Json)) (d : Descriptor) :
    r.normal (.object members) d = match d.bare with
      | .map e => .object ((memberNormals r members).map fun (k, norm) ↦ (k, norm e))
      | .named name =>
        match r.chosen? (Json.object members).tag? name with
        | some table => .object (Entries.gather table.rows Row.wire fun row ↦
            (Entries.find? row.wire (memberNormals r members)).map fun norm ↦ norm row.type)
        | none => .object members
      | _ => .object members :=
  rfl

theorem normal_date (h : d.bare = .date) (s : String) :
    r.normal (.string s) d = .string (Model.wireDateText s) := by
  rw [normal_string_eq, h]

theorem normal_string (h : d.bare ≠ .date) (s : String) : r.normal (.string s) d = .string s := by
  rw [normal_string_eq]
  cases hd : d.bare with
  | date => exact absurd hd h
  | primitive | nullable | optional | array | map | named => rfl

theorem normal_array (h : d.bare = .array e) (items : List Json) :
    r.normal (.array items) d = .array (items.map (r.normal · e)) := by
  rw [normal_array_eq, h, itemNormals_eq]
  dsimp only
  rw [List.map_map]
  rfl

theorem normal_keptArray (h : ∀ e, d.bare ≠ .array e) (items : List Json) :
    r.normal (.array items) d = .array items := by
  rw [normal_array_eq]
  cases hd : d.bare with
  | array e => exact absurd hd (h e)
  | primitive | date | nullable | optional | map | named => rfl

theorem normal_map (h : d.bare = .map e) (members : List (String × Json)) :
    r.normal (.object members) d = .object (members.map fun m ↦ (m.1, r.normal m.2 e)) := by
  rw [normal_object_eq, h, memberNormals_eq]
  dsimp only
  rw [List.map_map]
  rfl

theorem normal_table {name : String} {t : Table} {members : List (String × Json)}
    (h : d.bare = .named name) (ht : r.chosen? (Json.object members).tag? name = some t) :
    r.normal (.object members) d = .object (Entries.gather t.rows Row.wire fun row ↦
      (Entries.find? row.wire members).map (r.normal · row.type)) := by
  rw [normal_object_eq, h, memberNormals_eq]
  dsimp only
  rw [ht]
  simp only [Entries.find?_map (fun v d ↦ r.normal v d), Option.map_map]
  rfl

theorem normal_keptObject (h : d.KeepsObject r.table?) (members : List (String × Json)) :
    r.normal (.object members) d = .object members := by
  rw [normal_object_eq]
  cases hd : d.bare with
  | map e => exact absurd hd (h.1 e)
  | named name =>
    dsimp only
    rw [chosen?_eq_none_iff.2 (h.2 name hd)]
  | primitive | date | nullable | optional | array => rfl

theorem normal_primitive (p : Primitive) (v : Json) : r.normal v (.primitive p) = v := by
  cases v <;> rfl

end Equations

theorem noRepeats_normal (hr : r.WellFormed) {v : Json} (hv : v.NoRepeats) (d : Descriptor) :
    (r.normal v d).NoRepeats := by
  induction v using Json.induct generalizing d with
  | null | boolean b | number lexeme => exact hv
  | string s =>
    by_cases h : d.bare = .date
    · simp [normal_date h]
    · simp [normal_string h]
  | array items ih =>
    rcases d.array_cases with ⟨e, h⟩ | h
    · rw [normal_array h]
      refine Json.noRepeats_array.2 (List.forall_mem_map.2 ?_)
      intro v hmem
      exact ih v hmem (Json.noRepeats_array.1 hv v hmem) e
    · rwa [normal_keptArray h]
  | object members ih =>
    obtain ⟨hn, hm⟩ := Json.noRepeats_object.1 hv
    rcases r.object_cases (Json.object members).tag? d with ⟨e, h⟩ | ⟨name, t, h, ht⟩ | h
    · rw [normal_map h]
      refine Json.noRepeats_object.2 ⟨by rwa [Entries.keys_map (r.normal · e)], ?_⟩
      exact List.forall_mem_map.2 fun m hmem ↦ ih m hmem (hm m hmem) e
    · rw [normal_table h ht]
      refine Json.noRepeats_object.2
        ⟨Entries.nodup_keys_gather (hr.nodup_wires_of_chosen? ht) _, ?_⟩
      intro entry hmem
      obtain ⟨row, -, -, hv⟩ := Entries.mem_gather.1 hmem
      obtain ⟨v, hf, hv⟩ := Option.map_eq_some_iff.1 hv
      have hmem := Entries.mem_of_find? hf
      exact hv ▸ ih _ hmem (hm _ hmem) row.type
    · rwa [normal_keptObject h]

section Choice

variable {name : String} {t : Table} {members : List (String × Json)}

/-- The domain value of an object is written by the table by which the object was read. -/
theorem chosen?_gather_toModel (hr : r.WellFormed)
    (ht : r.chosen? (Json.object members).tag? name = some t) :
    r.chosen? (Model.object (Entries.gather t.rows Row.localName fun row ↦
      (Entries.find? row.wire members).map (r.toModel · row.type))).tag? name = some t := by
  apply hr.chosen?_congr ht
  intro f p hp
  have hf := Entries.find?_gather (hr.nodup_locals_of_chosen? ht) (fun row ↦
    (Entries.find? row.wire members).map (r.toModel · row.type)) hp
  simp only [Model.tag?, Model.get?, Json.tag?, Json.get?, hf, toModel_primitive]
  cases Entries.find? f members with
  | none => rfl
  | some v => cases v <;> rfl

theorem chosen?_gather_normal (hr : r.WellFormed)
    (ht : r.chosen? (Json.object members).tag? name = some t) :
    r.chosen? (Json.object (Entries.gather t.rows Row.wire fun row ↦
      (Entries.find? row.wire members).map (r.normal · row.type))).tag? name = some t := by
  apply hr.chosen?_congr ht
  intro f p hp
  have hf := Entries.find?_gather (hr.nodup_wires_of_chosen? ht) (fun row ↦
    (Entries.find? row.wire members).map (r.normal · row.type)) hp
  simp only [Json.tag?, Json.get?, hf, normal_primitive, Option.map_id']

end Choice

end Storefront.Registry
