import Storefront.Codec
import Storefront.Proofs.Model.Within

namespace Storefront

namespace Descriptor

def KeepsObject (d : Descriptor) (table? : String → Option Table) : Prop :=
  (∀ e, d.bare ≠ .map e) ∧ ∀ name, d.bare = .named name → table? name = none

theorem KeepsObject.congr {d : Descriptor} {table? table?' : String → Option Table}
    (h : d.KeepsObject table?) (he : ∀ name, d.bare = .named name → table?' name = table? name) :
    d.KeepsObject table?' :=
  ⟨h.1, fun name hn ↦ (he name hn).trans (h.2 name hn)⟩

theorem object_cases (d : Descriptor) (table? : String → Option Table) :
    (∃ e, d.bare = .map e) ∨ (∃ name t, d.bare = .named name ∧ table? name = some t) ∨
      d.KeepsObject table? := by
  cases hd : d.bare with
  | map e => exact .inl ⟨e, rfl⟩
  | named name =>
    cases ht : table? name with
    | none =>
      refine .inr (.inr ⟨?_, ?_⟩)
      · intro e he
        rw [hd] at he
        cases he
      · intro other ho
        rw [hd] at ho
        cases ho
        exact ht
    | some t => exact .inr (.inl ⟨name, t, rfl, ht⟩)
  | primitive | date | nullable | optional | array =>
    refine .inr (.inr ⟨?_, ?_⟩)
    · intro e he
      rw [hd] at he
      cases he
    · intro other ho
      rw [hd] at ho
      cases ho

theorem array_cases (d : Descriptor) : (∃ e, d.bare = .array e) ∨ ∀ e, d.bare ≠ .array e := by
  by_cases h : ∃ e, d.bare = .array e
  · exact .inl h
  · exact .inr fun e he ↦ h ⟨e, he⟩

structure Keeps (d : Descriptor) (table? : String → Option Table) : Prop where
  date : d.bare ≠ .date
  array : ∀ e, d.bare ≠ .array e
  object : d.KeepsObject table?

theorem keeps_primitive (p : Primitive) (table? : String → Option Table) :
    (primitive p).Keeps table? where
  date := nofun
  array := nofun
  object := ⟨nofun, nofun⟩

theorem keeps_named {name : String} {table? : String → Option Table} (h : table? name = none) :
    (named name).Keeps table? where
  date := nofun
  array := nofun
  object := by
    refine ⟨nofun, ?_⟩
    intro other ho
    cases ho
    exact h

end Descriptor

namespace Registry

variable {r : Registry} {d e : Descriptor}

section Reading

theorem itemReaders_eq (items : List Json) :
    itemReaders r items = items.map fun v d ↦ r.toModel v d := by
  induction items with
  | nil => rfl
  | cons v vs ih => exact congrArg (List.cons _) ih

theorem memberReaders_eq (members : List (String × Json)) :
    memberReaders r members = members.map fun e ↦ (e.1, fun d ↦ r.toModel e.2 d) := by
  induction members with
  | nil => rfl
  | cons e es ih => exact congrArg (List.cons _) ih

theorem toModel_string_eq (s : String) (d : Descriptor) :
    r.toModel (.string s) d = match d.bare with
      | .date => .ofDateText s
      | _ => .string s :=
  rfl

theorem toModel_array_eq (items : List Json) (d : Descriptor) :
    r.toModel (.array items) d = match d.bare with
      | .array e => .array ((itemReaders r items).map fun read ↦ read e)
      | _ => .ofJson (.array items) :=
  rfl

theorem toModel_object_eq (members : List (String × Json)) (d : Descriptor) :
    r.toModel (.object members) d = match d.bare with
      | .map e => .object ((memberReaders r members).map fun (k, read) ↦ (k, read e))
      | .named name =>
        match r.wireTable? (.object members) name with
        | some table => .object (table.rows.filterMap fun row ↦
            (Entries.find? row.wire (memberReaders r members)).map fun read ↦
              (row.localName, read row.type))
        | none => .ofJson (.object members)
      | _ => .ofJson (.object members) :=
  rfl

theorem toModel_date (h : d.bare = .date) (s : String) :
    r.toModel (.string s) d = .ofDateText s := by
  rw [toModel_string_eq, h]

theorem toModel_string (h : d.bare ≠ .date) (s : String) : r.toModel (.string s) d = .string s := by
  rw [toModel_string_eq]
  cases hd : d.bare with
  | date => exact absurd hd h
  | primitive | nullable | optional | array | map | named => rfl

theorem toModel_array (h : d.bare = .array e) (items : List Json) :
    r.toModel (.array items) d = .array (items.map (r.toModel · e)) := by
  rw [toModel_array_eq, h, itemReaders_eq]
  dsimp only
  rw [List.map_map]
  rfl

theorem toModel_keptArray (h : ∀ e, d.bare ≠ .array e) (items : List Json) :
    r.toModel (.array items) d = .ofJson (.array items) := by
  rw [toModel_array_eq]
  cases hd : d.bare with
  | array e => exact absurd hd (h e)
  | primitive | date | nullable | optional | map | named => rfl

theorem toModel_map (h : d.bare = .map e) (members : List (String × Json)) :
    r.toModel (.object members) d = .object (members.map fun m ↦ (m.1, r.toModel m.2 e)) := by
  rw [toModel_object_eq, h, memberReaders_eq]
  dsimp only
  rw [List.map_map]
  rfl

theorem toModel_table {name : String} {t : Table} {members : List (String × Json)}
    (h : d.bare = .named name) (ht : r.wireTable? (.object members) name = some t) :
    r.toModel (.object members) d = .object (Entries.gather t.rows Row.localName fun row ↦
      (Entries.find? row.wire members).map (r.toModel · row.type)) := by
  rw [toModel_object_eq, h, memberReaders_eq]
  dsimp only
  rw [ht]
  simp only [Entries.gather, Entries.find?_map (fun v d ↦ r.toModel v d), Option.map_map]
  rfl

theorem toModel_keptObject {members : List (String × Json)}
    (h : d.KeepsObject (r.wireTable? (.object members))) :
    r.toModel (.object members) d = .ofJson (.object members) := by
  rw [toModel_object_eq]
  cases hd : d.bare with
  | map e => exact absurd hd (h.1 e)
  | named name =>
    dsimp only
    rw [h.2 name hd]
  | primitive | date | nullable | optional | array => rfl

theorem toModel_primitive (p : Primitive) (v : Json) :
    r.toModel v (.primitive p) = .ofJson v := by
  cases v <;> rfl

theorem toModel_congr {d' : Descriptor} (h : d.bare = d'.bare) (v : Json) :
    r.toModel v d = r.toModel v d' := by
  cases v with
  | null | boolean b | number lexeme => rfl
  | string s => rw [toModel_string_eq, toModel_string_eq, h]
  | array items => rw [toModel_array_eq, toModel_array_eq, h]
  | object members => rw [toModel_object_eq, toModel_object_eq, h]

end Reading

section Writing

theorem itemWriters_eq (items : List Model) :
    itemWriters r items = items.map fun m d ↦ r.toWire m d := by
  induction items with
  | nil => rfl
  | cons m ms ih => exact congrArg (List.cons _) ih

theorem memberWriters_eq (members : List (String × Model)) :
    memberWriters r members = members.map fun e ↦ (e.1, fun d ↦ r.toWire e.2 d) := by
  induction members with
  | nil => rfl
  | cons e es ih => exact congrArg (List.cons _) ih

theorem toWire_string_eq (s : String) (d : Descriptor) :
    r.toWire (.string s) d = match d.bare with
      | .date => .string (Model.wireDateText s)
      | _ => .string s :=
  rfl

theorem toWire_array_eq (items : List Model) (d : Descriptor) :
    r.toWire (.array items) d = match d.bare with
      | .array e => .array ((itemWriters r items).map fun write ↦ write e)
      | _ => (Model.array items).toJson :=
  rfl

theorem toWire_object_eq (members : List (String × Model)) (d : Descriptor) :
    r.toWire (.object members) d = match d.bare with
      | .map e =>
        .object (Entries.ofList ((memberWriters r members).map fun (k, write) ↦ (k, write e)))
      | .named name =>
        match r.modelTable? (.object members) name with
        | some table => .object (Entries.ofList (table.rows.filterMap fun row ↦
            (Entries.find? row.localName (memberWriters r members)).map fun write ↦
              (row.wire, write row.type)))
        | none => (Model.object members).toJson
      | _ => (Model.object members).toJson :=
  rfl

theorem toWire_dateText (i : Instant) (d : Descriptor) : r.toWire (.date i) d = .string i.text :=
  rfl

theorem toWire_date (h : d.bare = .date) (s : String) :
    r.toWire (.string s) d = .string (Model.wireDateText s) := by
  rw [toWire_string_eq, h]

theorem toWire_string (h : d.bare ≠ .date) (s : String) : r.toWire (.string s) d = .string s := by
  rw [toWire_string_eq]
  cases hd : d.bare with
  | date => exact absurd hd h
  | primitive | nullable | optional | array | map | named => rfl

theorem toWire_array (h : d.bare = .array e) (items : List Model) :
    r.toWire (.array items) d = .array (items.map (r.toWire · e)) := by
  rw [toWire_array_eq, h, itemWriters_eq]
  dsimp only
  rw [List.map_map]
  rfl

theorem toWire_keptArray (h : ∀ e, d.bare ≠ .array e) (items : List Model) :
    r.toWire (.array items) d = (Model.array items).toJson := by
  rw [toWire_array_eq]
  cases hd : d.bare with
  | array e => exact absurd hd (h e)
  | primitive | date | nullable | optional | map | named => rfl

theorem toWire_map_ofList (h : d.bare = .map e) (members : List (String × Model)) :
    r.toWire (.object members) d =
      .object (Entries.ofList (members.map fun m ↦ (m.1, r.toWire m.2 e))) := by
  rw [toWire_object_eq, h, memberWriters_eq]
  dsimp only
  rw [List.map_map]
  rfl

theorem toWire_map (h : d.bare = .map e) {members : List (String × Model)}
    (hn : (Entries.keys members).Nodup) :
    r.toWire (.object members) d = .object (members.map fun m ↦ (m.1, r.toWire m.2 e)) := by
  rw [toWire_map_ofList h]
  apply congrArg
  apply Entries.ofList_of_nodup
  rwa [Entries.keys_map (r.toWire · e)]

/-- Rows may share a wire name; then the last of them that the value has counts. -/
theorem toWire_table_ofList {name : String} {t : Table} {members : List (String × Model)}
    (h : d.bare = .named name) (ht : r.modelTable? (.object members) name = some t) :
    r.toWire (.object members) d = .object (Entries.ofList (Entries.gather t.rows Row.wire fun row ↦
      (Entries.find? row.localName members).map (r.toWire · row.type))) := by
  rw [toWire_object_eq, h, memberWriters_eq]
  dsimp only
  rw [ht]
  simp only [Entries.gather, Entries.find?_map (fun m d ↦ r.toWire m d), Option.map_map]
  rfl

theorem toWire_table {name : String} {t : Table} {members : List (String × Model)}
    (h : d.bare = .named name) (ht : r.modelTable? (.object members) name = some t)
    (hn : (t.rows.map Row.wire).Nodup) :
    r.toWire (.object members) d = .object (Entries.gather t.rows Row.wire fun row ↦
      (Entries.find? row.localName members).map (r.toWire · row.type)) := by
  rw [toWire_table_ofList h ht]
  exact congrArg _ (Entries.ofList_of_nodup (Entries.nodup_keys_gather hn _))

theorem toWire_keptObject {members : List (String × Model)}
    (h : d.KeepsObject (r.modelTable? (.object members))) :
    r.toWire (.object members) d = (Model.object members).toJson := by
  rw [toWire_object_eq]
  cases hd : d.bare with
  | map e => exact absurd hd (h.1 e)
  | named name =>
    dsimp only
    rw [h.2 name hd]
  | primitive | date | nullable | optional | array => rfl

theorem toWire_primitive (p : Primitive) (m : Model) :
    r.toWire m (.primitive p) = m.toJson := by
  cases m <;> rfl

theorem toWire_congr {d' : Descriptor} (h : d.bare = d'.bare) (m : Model) :
    r.toWire m d = r.toWire m d' := by
  cases m with
  | null | boolean b | number lexeme | date i => rfl
  | string s => rw [toWire_string_eq, toWire_string_eq, h]
  | array items => rw [toWire_array_eq, toWire_array_eq, h]
  | object members => rw [toWire_object_eq, toWire_object_eq, h]

end Writing

end Registry

end Storefront
