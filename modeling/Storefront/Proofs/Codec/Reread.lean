import Storefront.Proofs.Codec.Normal

namespace Storefront.Registry

variable {r : Registry}

/-- What is written for a value that was read is its wire form. -/
theorem toWire_toModel_eq_normal (hr : r.WellFormed) {v : Json} (hv : v.NoRepeats)
    (d : Descriptor) : r.toWire (r.toModel v d) d = r.normal v d := by
  induction v using Json.induct generalizing d with
  | null | boolean b | number lexeme => rfl
  | string s =>
    by_cases h : d.bare = .date
    · rw [toModel_date h, normal_date h]
      cases hs : Instant.parse? s with
      | none => rw [Model.ofDateText_of_none hs, toWire_date h]
      | some i => rw [Model.ofDateText_of_some hs, Model.wireDateText_of_some hs, toWire_dateText]
    · rw [toModel_string h, normal_string h, toWire_string h]
  | array items ih =>
    have hitems : ∀ v ∈ items, ∀ e, r.toWire (r.toModel v e) e = r.normal v e := by
      intro v hmem e
      exact ih v hmem (Json.noRepeats_array.1 hv v hmem) e
    rcases d.array_cases with ⟨e, h⟩ | h
    · rw [toModel_array h, toWire_array h, normal_array h, List.map_map]
      exact congrArg _ (List.map_congr_left fun v hmem ↦ hitems v hmem e)
    · rw [toModel_keptArray h, normal_keptArray h, Model.ofJson_array, toWire_keptArray h,
        ← Model.ofJson_array, Model.toJson_ofJson hv]
  | object members ih =>
    obtain ⟨hn, hm⟩ := Json.noRepeats_object.1 hv
    have hmembers : ∀ m ∈ members, ∀ e, r.toWire (r.toModel m.2 e) e = r.normal m.2 e := by
      intro m hmem e
      exact ih m hmem (hm m hmem) e
    rcases r.object_cases (Json.object members).tag? d with ⟨e, h⟩ | ⟨name, t, h, ht⟩ | h
    · have hk : (Entries.keys (members.map fun m ↦ (m.1, r.toModel m.2 e))).Nodup := by
        rwa [Entries.keys_map (r.toModel · e)]
      rw [toModel_map h, toWire_map h hk, normal_map h, List.map_map]
      exact congrArg _ (List.map_congr_left fun m hmem ↦ congrArg _ (hmembers m hmem e))
    -- the tags survive the change of names, so both directions use one table
    · rw [hr.toModel_table h ht, hr.toWire_table h (chosen?_gather_toModel hr ht),
        Entries.gather_gather (hr.nodup_locals_of_chosen? ht), normal_table h ht]
      apply congrArg
      apply Entries.gather_congr
      intro row hrow
      rw [Option.map_map]
      exact Option.map_congr fun v hf ↦ hmembers _ (Entries.mem_of_find? hf) row.type
    · rw [hr.toModel_keptObject h, normal_keptObject h, Model.ofJson_object, hr.toWire_keptObject h,
        ← Model.ofJson_object, Model.toJson_ofJson hv]

/-- Reading the wire form of a value settles what reading the value gives. -/
theorem toModel_normal (hr : r.WellFormed) (v : Json) (d : Descriptor) :
    r.toModel (r.normal v d) d = (r.toModel v d).settle := by
  induction v using Json.induct generalizing d with
  | null | boolean b | number lexeme => rfl
  | string s =>
    by_cases h : d.bare = .date
    · rw [normal_date h, toModel_date h, toModel_date h, Model.ofDateText_wireDateText]
    · rw [normal_string h, toModel_string h]
      rfl
  | array items ih =>
    rcases d.array_cases with ⟨e, h⟩ | h
    · rw [normal_array h, toModel_array h, toModel_array h, Model.settle_array, List.map_map,
        List.map_map]
      exact congrArg _ (List.map_congr_left fun v hmem ↦ ih v hmem e)
    · rw [normal_keptArray h, toModel_keptArray h, Model.settle_ofJson]
  | object members ih =>
    rcases r.object_cases (Json.object members).tag? d with ⟨e, h⟩ | ⟨name, t, h, ht⟩ | h
    · rw [normal_map h, toModel_map h, toModel_map h, Model.settle_object, List.map_map,
        List.map_map]
      exact congrArg _ (List.map_congr_left fun m hmem ↦ congrArg _ (ih m hmem e))
    · rw [normal_table h ht, hr.toModel_table h (chosen?_gather_normal hr ht),
        Entries.gather_gather (hr.nodup_wires_of_chosen? ht), hr.toModel_table h ht,
        Model.settle_object, Entries.map_gather]
      apply congrArg
      apply Entries.gather_congr
      intro row hrow
      rw [Option.map_map, Option.map_map]
      exact Option.map_congr fun v hf ↦ ih _ (Entries.mem_of_find? hf) row.type
    · rw [normal_keptObject h, hr.toModel_keptObject h, Model.settle_ofJson]

theorem normal_normal (hr : r.WellFormed) (v : Json) (d : Descriptor) :
    r.normal (r.normal v d) d = r.normal v d := by
  induction v using Json.induct generalizing d with
  | null | boolean b | number lexeme => rfl
  | string s =>
    by_cases h : d.bare = .date
    · rw [normal_date h, normal_date h, Model.wireDateText_wireDateText]
    · rw [normal_string h, normal_string h]
  | array items ih =>
    rcases d.array_cases with ⟨e, h⟩ | h
    · rw [normal_array h, normal_array h, List.map_map]
      exact congrArg _ (List.map_congr_left fun v hmem ↦ ih v hmem e)
    · rw [normal_keptArray h, normal_keptArray h]
  | object members ih =>
    rcases r.object_cases (Json.object members).tag? d with ⟨e, h⟩ | ⟨name, t, h, ht⟩ | h
    · rw [normal_map h, normal_map h, List.map_map]
      exact congrArg _ (List.map_congr_left fun m hmem ↦ congrArg _ (ih m hmem e))
    · rw [normal_table h ht, normal_table h (chosen?_gather_normal hr ht),
        Entries.gather_gather (hr.nodup_wires_of_chosen? ht)]
      apply congrArg
      apply Entries.gather_congr
      intro row hrow
      rw [Option.map_map]
      exact Option.map_congr fun v hf ↦ ih _ (Entries.mem_of_find? hf) row.type
    · rw [normal_keptObject h, normal_keptObject h]

/-- Once written and read again, a value only settles: the second text is the first, and the value
is the same exactly when none of its dates is lossy. -/
theorem toModel_toWire_settles (hr : r.WellFormed) {v : Json} (hv : v.NoRepeats) (d : Descriptor) :
    let m := r.toModel v d
    let w := r.toWire m d
    r.toModel w d = m.settle ∧ r.toWire (r.toModel w d) d = w ∧
      (r.toModel w d = m ↔ m.EveryDate Instant.Settled) := by
  intro m w
  have hw : w = r.normal v d := toWire_toModel_eq_normal hr hv d
  have hm : r.toModel w d = m.settle := by
    rw [hw]
    exact toModel_normal hr v d
  refine ⟨hm, ?_, ?_⟩
  · have hn : w.NoRepeats := by
      rw [hw]
      exact noRepeats_normal hr hv d
    calc r.toWire (r.toModel w d) d
      _ = r.normal w d := toWire_toModel_eq_normal hr hn d
      _ = r.normal (r.normal v d) d := by rw [hw]
      _ = w := by rw [normal_normal hr, hw]
  · rw [hm]
    exact Model.settle_eq_self_iff

def chain : Json :=
  .object [("seen_at", .string "2024-02-29T23:59:60.123456Z"), ("unknown", .boolean true),
    ("kind", .string "Node"), ("next_node", .object [("leaf_dates", .array [.string "soon"]),
      ("kind", .string "Leaf")])]

theorem noRepeats_chain : chain.NoRepeats := by
  simp [chain, Entries.keys]

theorem toModel_toWire_settles_chain :
    linked.WellFormed ∧ chain.NoRepeats ∧
    let m := linked.toModel chain (.named "Node")
    let w := linked.toWire m (.named "Node")
    linked.toModel w (.named "Node") = m.settle ∧
      linked.toWire (linked.toModel w (.named "Node")) (.named "Node") = w ∧
      (linked.toModel w (.named "Node") = m ↔ m.EveryDate Instant.Settled) :=
  ⟨wellFormed_linked, noRepeats_chain,
    toModel_toWire_settles wellFormed_linked noRepeats_chain (.named "Node")⟩

end Storefront.Registry
