import Storefront.Catalog.Checkout
import Storefront.Catalog.Headless
import Storefront.Proofs.Codec.Basic

namespace Storefront.Registry

structure Distinct (r : Registry) : Prop where
  nodup_wires : ∀ e ∈ r.tables, (e.2.rows.map Row.wire).Nodup
  nodup_locals : ∀ e ∈ r.tables, (e.2.rows.map Row.localName).Nodup
  not_choice : ∀ e ∈ r.tables, ¬ r.isChoice e.1

/-- Tables can be read both ways: names are not shared within a table nor between the two kinds of
types, and a member that chooses a type has one name and a primitive shape in every table. -/
structure WellFormed (r : Registry) : Prop where
  nodup_wires : ∀ e ∈ r.tables, (e.2.rows.map Row.wire).Nodup
  nodup_locals : ∀ e ∈ r.tables, (e.2.rows.map Row.localName).Nodup
  not_choice : ∀ e ∈ r.tables, ¬ r.isChoice e.1
  tag_row : ∀ e ∈ r.tables, ∀ tag ∈ e.2.discriminator, ∀ other ∈ r.tables,
    ∃ p ∈ Primitive.all, (⟨tag, tag, .primitive p⟩ : Row) ∈ other.2.rows

theorem WellFormed.distinct {r : Registry} (hr : r.WellFormed) : r.Distinct :=
  ⟨hr.nodup_wires, hr.nodup_locals, hr.not_choice⟩

theorem wellFormed_iff {r : Registry} : r.WellFormed ↔
    (∀ e ∈ r.tables, (e.2.rows.map Row.wire).Nodup) ∧
    (∀ e ∈ r.tables, (e.2.rows.map Row.localName).Nodup) ∧
    (∀ e ∈ r.tables, ¬ r.isChoice e.1) ∧
    ∀ e ∈ r.tables, ∀ tag ∈ e.2.discriminator, ∀ other ∈ r.tables,
      ∃ p ∈ Primitive.all, (⟨tag, tag, .primitive p⟩ : Row) ∈ other.2.rows :=
  ⟨fun h ↦ ⟨h.1, h.2, h.3, h.4⟩, fun h ↦ ⟨h.1, h.2.1, h.2.2.1, h.2.2.2⟩⟩

theorem distinct_iff {r : Registry} : r.Distinct ↔
    (∀ e ∈ r.tables, (e.2.rows.map Row.wire).Nodup) ∧
    (∀ e ∈ r.tables, (e.2.rows.map Row.localName).Nodup) ∧ ∀ e ∈ r.tables, ¬ r.isChoice e.1 :=
  ⟨fun h ↦ ⟨h.1, h.2, h.3⟩, fun h ↦ ⟨h.1, h.2.1, h.2.2⟩⟩

instance (r : Registry) : Decidable r.Distinct :=
  decidable_of_iff _ distinct_iff.symm

instance (r : Registry) : Decidable r.WellFormed :=
  decidable_of_iff _ wellFormed_iff.symm

theorem wellFormed_checkout : Checkout.catalog.registry.WellFormed := by
  decide +kernel

theorem wellFormed_headless : Headless.catalog.registry.WellFormed := by
  decide +kernel

def nodeTable : Table where
  discriminator := some "kind"
  rows := [⟨"kind", "kind", .primitive .string⟩, ⟨"next_node", "next", .nullable (.named "Node")⟩,
    ⟨"seen_at", "seenAt", .date⟩]

def leafTable : Table where
  discriminator := none
  rows := [⟨"kind", "kind", .primitive .string⟩, ⟨"leaf_dates", "dates", .array .date⟩]

def linked : Registry :=
  (Registry.empty.addTable "Node" nodeTable).addTable "Leaf" leafTable

theorem wellFormed_linked : linked.WellFormed := by
  decide +kernel

variable {r : Registry} {name : String} {t : Table}

theorem mem_tables (h : r.table? name = some t) : (name, t) ∈ r.tables :=
  Entries.mem_of_find? h

theorem mem_tables_of_wireTable? {v : Json} (h : r.wireTable? v name = some t) :
    ∃ actual, (actual, t) ∈ r.tables := by
  rw [wireTable?] at h
  split at h
  · cases h
  · exact ⟨_, mem_tables h⟩

theorem mem_tables_of_modelTable? {m : Model} (h : r.modelTable? m name = some t) :
    ∃ actual, (actual, t) ∈ r.tables := by
  rw [modelTable?] at h
  split at h
  · cases h
  · exact ⟨_, mem_tables h⟩

/-- The table that stands for a declared type when the data answers the discriminator. -/
def chosen? (r : Registry) (tag? : String → Option String) (declared : String) : Option Table :=
  if r.contains declared then r.table? (r.resolve tag? declared) else none

theorem chosen?_eq_some_iff {tag? : String → Option String} :
    r.chosen? tag? name = some t ↔ r.contains name ∧ r.table? (r.resolve tag? name) = some t := by
  rw [chosen?]
  split
  · next h => simp [h]
  · next h => simp [h]

theorem mem_tables_of_chosen? {tag? : String → Option String} (h : r.chosen? tag? name = some t) :
    ∃ actual, (actual, t) ∈ r.tables := by
  rw [chosen?] at h
  split at h
  · exact ⟨_, mem_tables h⟩
  · cases h

theorem table?_eq_none (h : ¬ r.contains name) : r.table? name = none := by
  simpa [contains] using h

theorem keeps_of_not_contains (h : ¬ r.contains name) :
    (Descriptor.named name).Keeps r.table? :=
  Descriptor.keeps_named (table?_eq_none h)

theorem resolve_of_not_contains {tag? : String → Option String} (h : ¬ r.contains name) :
    r.resolve tag? name = name := by
  simp [resolve, table?_eq_none h]

/-- A type stands for itself, or gives way to a registered one that the data names. -/
theorem resolve_cases (r : Registry) (tag? : String → Option String) (declared : String) :
    r.resolve tag? declared = declared ∨ ∃ tag, tag? tag = some (r.resolve tag? declared) ∧
      r.contains (r.resolve tag? declared) := by
  rw [resolve]
  split
  · exact .inl rfl
  · split
    · exact .inl rfl
    · split
      · exact .inl rfl
      · next hv =>
        split
        · next hc =>
          obtain ⟨tag, -, htag⟩ := Option.bind_eq_some_iff.1 hv
          exact .inr ⟨tag, htag, (Bool.and_eq_true_iff.1 hc).2⟩
        · exact .inl rfl

theorem contains_resolve {tag? : String → Option String} (h : r.contains name) :
    r.contains (r.resolve tag? name) := by
  rcases r.resolve_cases tag? name with he | ⟨tag, -, hc⟩
  · rwa [he]
  · exact hc

theorem chosen?_eq_none_iff {tag? : String → Option String} :
    r.chosen? tag? name = none ↔ r.table? name = none := by
  rw [chosen?]
  split
  · next h =>
    obtain ⟨t, ht⟩ := Option.isSome_iff_exists.1 h
    obtain ⟨u, hu⟩ := Option.isSome_iff_exists.1 (contains_resolve h)
    rw [ht, hu]
    simp
  · next h => simp [table?_eq_none h]

theorem object_cases (r : Registry) (tag? : String → Option String) (d : Descriptor) :
    (∃ e, d.bare = .map e) ∨
      (∃ name t, d.bare = .named name ∧ r.chosen? tag? name = some t) ∨
      d.KeepsObject r.table? := by
  rcases d.object_cases (r.chosen? tag?) with h | h | h
  · exact .inl h
  · exact .inr (.inl h)
  · exact .inr (.inr ⟨h.1, fun name hn ↦ chosen?_eq_none_iff.1 (h.2 name hn)⟩)

/-- The chosen table depends only on the answer to the discriminator of the declared type. -/
theorem resolve_congr {tag? tag?' : String → Option String}
    (h : ∀ t, r.table? name = some t → ∀ f ∈ t.discriminator, tag? f = tag?' f) :
    r.resolve tag? name = r.resolve tag?' name := by
  rw [resolve, resolve]
  split
  · rfl
  · cases ht : r.table? name with
    | none => rfl
    | some t =>
      have hb : t.discriminator.bind tag? = t.discriminator.bind tag?' := by
        cases hf : t.discriminator with
        | none => rfl
        | some f => exact h t ht f hf
      simp only [hb]

namespace Distinct

variable (hr : r.Distinct)
include hr

theorem isChoice_eq_false (h : r.contains name) : r.isChoice name = false := by
  obtain ⟨t, ht⟩ := Option.isSome_iff_exists.1 h
  simpa using hr.not_choice _ (mem_tables ht)

theorem wireTable?_eq (v : Json) (name : String) : r.wireTable? v name = r.chosen? v.tag? name := by
  rw [wireTable?, chosen?]
  by_cases h : r.contains name
  · simp [h, hr.isChoice_eq_false (contains_resolve h)]
  · simp [h, resolve_of_not_contains h, table?_eq_none h]

theorem modelTable?_eq (m : Model) (name : String) :
    r.modelTable? m name = r.chosen? m.tag? name := by
  rw [modelTable?, chosen?]
  by_cases h : r.contains name
  · simp [h, hr.isChoice_eq_false h]
  · simp [h]

end Distinct

namespace WellFormed

variable (hr : r.WellFormed)
include hr

theorem keeps_choice (h : r.isChoice name) : (Descriptor.named name).Keeps r.table? := by
  apply keeps_of_not_contains
  intro hc
  rw [hr.distinct.isChoice_eq_false hc] at h
  cases h

theorem nodup_wires_of_chosen? {tag? : String → Option String} (h : r.chosen? tag? name = some t) :
    (t.rows.map Row.wire).Nodup := by
  obtain ⟨actual, ht⟩ := mem_tables_of_chosen? h
  exact hr.nodup_wires _ ht

theorem nodup_locals_of_chosen? {tag? : String → Option String}
    (h : r.chosen? tag? name = some t) : (t.rows.map Row.localName).Nodup := by
  obtain ⟨actual, ht⟩ := mem_tables_of_chosen? h
  exact hr.nodup_locals _ ht

theorem toModel_table {d : Descriptor} {members : List (String × Json)}
    (h : d.bare = .named name) (ht : r.chosen? (Json.object members).tag? name = some t) :
    r.toModel (.object members) d = .object (Entries.gather t.rows Row.localName fun row ↦
      (Entries.find? row.wire members).map (r.toModel · row.type)) := by
  rw [← hr.distinct.wireTable?_eq] at ht
  exact Registry.toModel_table h ht

theorem toWire_table {d : Descriptor} {members : List (String × Model)}
    (h : d.bare = .named name) (ht : r.chosen? (Model.object members).tag? name = some t) :
    r.toWire (.object members) d = .object (Entries.gather t.rows Row.wire fun row ↦
      (Entries.find? row.localName members).map (r.toWire · row.type)) := by
  have hn := hr.nodup_wires_of_chosen? ht
  rw [← hr.distinct.modelTable?_eq] at ht
  exact Registry.toWire_table h ht hn

theorem toModel_keptObject {d : Descriptor} (h : d.KeepsObject r.table?)
    (members : List (String × Json)) :
    r.toModel (.object members) d = .ofJson (.object members) := by
  refine Registry.toModel_keptObject ⟨h.1, ?_⟩
  intro name hn
  rw [hr.distinct.wireTable?_eq]
  exact chosen?_eq_none_iff.2 (h.2 name hn)

theorem toWire_keptObject {d : Descriptor} (h : d.KeepsObject r.table?)
    (members : List (String × Model)) :
    r.toWire (.object members) d = (Model.object members).toJson := by
  refine Registry.toWire_keptObject ⟨h.1, ?_⟩
  intro name hn
  rw [hr.distinct.modelTable?_eq]
  exact chosen?_eq_none_iff.2 (h.2 name hn)

theorem toModel_kept {d : Descriptor} (h : d.Keeps r.table?) (v : Json) :
    r.toModel v d = .ofJson v := by
  cases v with
  | null | boolean b | number lexeme => rfl
  | string s => exact toModel_string h.date s
  | array items => exact toModel_keptArray h.array items
  | object members => exact hr.toModel_keptObject h.object members

theorem toWire_kept {d : Descriptor} (h : d.Keeps r.table?) (m : Model) :
    r.toWire m d = m.toJson := by
  cases m with
  | null | boolean b | number lexeme | date i => rfl
  | string s => exact toWire_string h.date s
  | array items => exact toWire_keptArray h.array items
  | object members => exact hr.toWire_keptObject h.object members

theorem chosen?_congr {tag? tag?' : String → Option String} (h : r.chosen? tag? name = some t)
    (htag : ∀ f p, (⟨f, f, .primitive p⟩ : Row) ∈ t.rows → tag?' f = tag? f) :
    r.chosen? tag?' name = some t := by
  obtain ⟨actual, ht⟩ := mem_tables_of_chosen? h
  have he : r.resolve tag?' name = r.resolve tag? name := by
    apply resolve_congr
    intro u hu f hf
    obtain ⟨p, -, hp⟩ := hr.tag_row _ (mem_tables hu) f hf _ ht
    exact htag f p hp
  rw [chosen?] at h ⊢
  rwa [he]

end WellFormed

end Storefront.Registry
