import Storefront.Proofs.Codec.Basic

namespace Storefront

namespace Descriptor

/-- The descriptor without nullable and optional wrappers, at every depth. -/
def unwrapped : Descriptor → Descriptor
  | .nullable d | .optional d => d.unwrapped
  | .array d => .array d.unwrapped
  | .map d => .map d.unwrapped
  | .primitive p => .primitive p
  | .date => .date
  | .named name => .named name

variable {d e : Descriptor}

theorem bare_unwrapped_eq_date_iff : d.unwrapped.bare = .date ↔ d.bare = .date := by
  induction d with
  | nullable d ih | optional d ih => exact ih
  | date => exact Iff.rfl
  | primitive | array | map | named => exact iff_of_false nofun nofun

theorem bare_unwrapped_eq_array_iff :
    d.unwrapped.bare = .array e ↔ ∃ inner, d.bare = .array inner ∧ inner.unwrapped = e := by
  induction d with
  | nullable d ih | optional d ih => exact ih
  | array d ih => simp [unwrapped, bare]
  | primitive | date | map | named => exact iff_of_false nofun nofun

theorem bare_unwrapped_eq_map_iff :
    d.unwrapped.bare = .map e ↔ ∃ inner, d.bare = .map inner ∧ inner.unwrapped = e := by
  induction d with
  | nullable d ih | optional d ih => exact ih
  | map d ih => simp [unwrapped, bare]
  | primitive | date | array | named => exact iff_of_false nofun nofun

theorem bare_unwrapped_eq_named_iff {name : String} :
    d.unwrapped.bare = .named name ↔ d.bare = .named name := by
  induction d with
  | nullable d ih | optional d ih => exact ih
  | named => exact Iff.rfl
  | primitive | date | array | map => exact iff_of_false nofun nofun

theorem bare_unwrapped_ne_array (h : ∀ e, d.bare ≠ .array e) : ∀ e, d.unwrapped.bare ≠ .array e := by
  intro e he
  obtain ⟨inner, he, -⟩ := bare_unwrapped_eq_array_iff.1 he
  exact h inner he

theorem KeepsObject.unwrapped {table? table?' : String → Option Table} (h : d.KeepsObject table?)
    (he : ∀ name, table? name = none → table?' name = none) : d.unwrapped.KeepsObject table?' := by
  constructor
  · intro e hm
    obtain ⟨inner, hm, -⟩ := bare_unwrapped_eq_map_iff.1 hm
    exact h.1 inner hm
  · intro name hn
    exact he name (h.2 name (bare_unwrapped_eq_named_iff.1 hn))

end Descriptor

def Row.unwrapped (row : Row) : Row :=
  { row with type := row.type.unwrapped }

def Table.unwrapped (t : Table) : Table :=
  { t with rows := t.rows.map Row.unwrapped }

namespace Registry

/-- The registry with the wrappers left out of every field of every table. -/
def unwrapped (r : Registry) : Registry :=
  { r with
    tables := r.tables.map fun e ↦ (e.1, e.2.unwrapped)
    nodup_tables := by
      rw [Entries.keys_map Table.unwrapped]
      exact r.nodup_tables }

variable (r : Registry)

theorem table?_unwrapped (name : String) :
    r.unwrapped.table? name = (r.table? name).map Table.unwrapped :=
  Entries.find?_map Table.unwrapped name r.tables

theorem isChoice_unwrapped (name : String) : r.unwrapped.isChoice name = r.isChoice name :=
  rfl

theorem contains_unwrapped (name : String) : r.unwrapped.contains name = r.contains name := by
  rw [contains, table?_unwrapped, Option.isSome_map, contains]

/-- The wrappers have no say in which type the data is treated as. -/
theorem resolve_unwrapped (tag? : String → Option String) (declared : String) :
    r.unwrapped.resolve tag? declared = r.resolve tag? declared := by
  simp only [resolve, isChoice_unwrapped, table?_unwrapped, contains_unwrapped]
  cases r.table? declared <;> rfl

theorem wireTable?_unwrapped (v : Json) (name : String) :
    r.unwrapped.wireTable? v name = (r.wireTable? v name).map Table.unwrapped := by
  simp only [wireTable?, resolve_unwrapped, isChoice_unwrapped, table?_unwrapped]
  split <;> rfl

theorem modelTable?_unwrapped (m : Model) (name : String) :
    r.unwrapped.modelTable? m name = (r.modelTable? m name).map Table.unwrapped := by
  simp only [modelTable?, resolve_unwrapped, isChoice_unwrapped, contains_unwrapped,
    table?_unwrapped]
  split <;> rfl

variable {r}

theorem toModel_unwrapped (v : Json) (d : Descriptor) :
    r.unwrapped.toModel v d.unwrapped = r.toModel v d := by
  induction v using Json.induct generalizing d with
  | null | boolean b | number lexeme => rfl
  | string s =>
    by_cases h : d.bare = .date
    · rw [toModel_date h, toModel_date (Descriptor.bare_unwrapped_eq_date_iff.2 h)]
    · rw [toModel_string h, toModel_string (mt Descriptor.bare_unwrapped_eq_date_iff.1 h)]
  | array items ih =>
    rcases d.array_cases with ⟨e, he⟩ | hk
    · have hu : d.unwrapped.bare = .array e.unwrapped :=
        Descriptor.bare_unwrapped_eq_array_iff.2 ⟨e, he, rfl⟩
      rw [toModel_array he, toModel_array hu]
      exact congrArg _ (List.map_congr_left fun v hv ↦ ih v hv e)
    · rw [toModel_keptArray hk, toModel_keptArray (Descriptor.bare_unwrapped_ne_array hk)]
  | object members ih =>
    rcases d.object_cases (r.wireTable? (.object members)) with ⟨e, he⟩ | ⟨name, t, hn, ht⟩ | hk
    · have hu : d.unwrapped.bare = .map e.unwrapped :=
        Descriptor.bare_unwrapped_eq_map_iff.2 ⟨e, he, rfl⟩
      rw [toModel_map he, toModel_map hu]
      exact congrArg _ (List.map_congr_left fun m hm ↦ congrArg _ (ih m hm e))
    -- the wrappers inside a table are those that the registry leaves out
    · have hu : r.unwrapped.wireTable? (.object members) name = some t.unwrapped := by
        rw [wireTable?_unwrapped, ht]
        rfl
      rw [toModel_table hn ht, toModel_table (Descriptor.bare_unwrapped_eq_named_iff.2 hn) hu,
        Table.unwrapped, Entries.gather_map]
      apply congrArg
      apply Entries.gather_congr
      intro row _
      apply Option.map_congr
      intro v hv
      exact ih _ (Entries.mem_of_find? hv) row.type
    · have hu : d.unwrapped.KeepsObject (r.unwrapped.wireTable? (.object members)) := by
        refine hk.unwrapped fun name hn ↦ ?_
        rw [wireTable?_unwrapped, hn]
        rfl
      rw [toModel_keptObject hk, toModel_keptObject hu]

theorem toWire_unwrapped (m : Model) (d : Descriptor) :
    r.unwrapped.toWire m d.unwrapped = r.toWire m d := by
  induction m using Model.induct generalizing d with
  | null | boolean b | number lexeme | date i => rfl
  | string s =>
    by_cases h : d.bare = .date
    · rw [toWire_date h, toWire_date (Descriptor.bare_unwrapped_eq_date_iff.2 h)]
    · rw [toWire_string h, toWire_string (mt Descriptor.bare_unwrapped_eq_date_iff.1 h)]
  | array items ih =>
    rcases d.array_cases with ⟨e, he⟩ | hk
    · have hu : d.unwrapped.bare = .array e.unwrapped :=
        Descriptor.bare_unwrapped_eq_array_iff.2 ⟨e, he, rfl⟩
      rw [toWire_array he, toWire_array hu]
      exact congrArg _ (List.map_congr_left fun m hm ↦ ih m hm e)
    · rw [toWire_keptArray hk, toWire_keptArray (Descriptor.bare_unwrapped_ne_array hk)]
  | object members ih =>
    rcases d.object_cases (r.modelTable? (.object members)) with ⟨e, he⟩ | ⟨name, t, hn, ht⟩ | hk
    · have hu : d.unwrapped.bare = .map e.unwrapped :=
        Descriptor.bare_unwrapped_eq_map_iff.2 ⟨e, he, rfl⟩
      rw [toWire_map_ofList he, toWire_map_ofList hu]
      apply congrArg
      apply congrArg
      exact List.map_congr_left fun m hm ↦ congrArg _ (ih m hm e)
    · have hu : r.unwrapped.modelTable? (.object members) name = some t.unwrapped := by
        rw [modelTable?_unwrapped, ht]
        rfl
      rw [toWire_table_ofList hn ht,
        toWire_table_ofList (Descriptor.bare_unwrapped_eq_named_iff.2 hn) hu, Table.unwrapped,
        Entries.gather_map]
      apply congrArg
      apply congrArg
      apply Entries.gather_congr
      intro row _
      apply Option.map_congr
      intro m hm
      exact ih _ (Entries.mem_of_find? hm) row.type
    · have hu : d.unwrapped.KeepsObject (r.unwrapped.modelTable? (.object members)) := by
        refine hk.unwrapped fun name hn ↦ ?_
        rw [modelTable?_unwrapped, hn]
        rfl
      rw [toWire_keptObject hk, toWire_keptObject hu]

/-- Nullable and optional wrappers change nothing, wherever they stand: conversions are the same
without any of them, also for a value that is not there. -/
theorem conversions_unwrapped (r : Registry) (d : Descriptor) :
    (∀ v : Option Json, v.map (r.unwrapped.toModel · d.unwrapped) = v.map (r.toModel · d)) ∧
      ∀ m : Option Model, m.map (r.unwrapped.toWire · d.unwrapped) = m.map (r.toWire · d) := by
  constructor
  · intro v
    exact Option.map_congr fun v _ ↦ toModel_unwrapped v d
  · intro m
    exact Option.map_congr fun m _ ↦ toWire_unwrapped m d

end Registry

end Storefront
