import Storefront.Proofs.Codec.Reread
import Storefront.Proofs.Instant.Loose
import Storefront.Proofs.Schema.Members

namespace Storefront.Registry

/-- What a JSON value becomes on the way to the wire and back. -/
def returned (r : Registry) (d : Descriptor) (v : Json) : Json :=
  (r.toModel (r.toWire (.ofJson v) d) d).toJson

variable {r : Registry} {d e : Descriptor}

theorem toWire_eq_null_iff {m : Model} : r.toWire m d = .null ↔ m = .null := by
  refine ⟨fun h ↦ ?_, fun h ↦ by rw [h]; rfl⟩
  cases m with
  | null => rfl
  | boolean b | number lexeme | date i => cases h
  | string s =>
    rw [toWire_string_eq] at h
    split at h <;> cases h
  | array items =>
    rw [toWire_array_eq] at h
    split at h <;> cases h
  | object members =>
    rw [toWire_object_eq] at h
    split at h
    · cases h
    · split at h <;> cases h
    · cases h

theorem toModel_eq_null_iff {v : Json} : r.toModel v d = .null ↔ v = .null := by
  refine ⟨fun h ↦ ?_, fun h ↦ by rw [h]; rfl⟩
  cases v with
  | null => rfl
  | boolean b | number lexeme => cases h
  | string s =>
    rw [toModel_string_eq, Model.ofDateText] at h
    split at h
    · split at h <;> cases h
    · cases h
  | array items =>
    rw [toModel_array_eq] at h
    split at h <;> cases h
  | object members =>
    rw [toModel_object_eq] at h
    split at h
    · cases h
    · split at h <;> cases h
    · cases h

theorem toJson_eq_null_iff {m : Model} : m.toJson = .null ↔ m = .null := by
  cases m with
  | null => exact iff_of_true rfl rfl
  | boolean b | number lexeme | string s | date i | array items | object members =>
    exact iff_of_false nofun nofun

theorem ofJson_eq_null_iff {v : Json} : Model.ofJson v = .null ↔ v = .null := by
  cases v with
  | null => exact iff_of_true rfl rfl
  | boolean b | number lexeme | string s | array items | object members =>
    exact iff_of_false nofun nofun

/-- Nothing turns into null on the way, and null into nothing else. -/
theorem returned_eq_null_iff {v : Json} : r.returned d v = .null ↔ v = .null := by
  rw [returned, toJson_eq_null_iff, toModel_eq_null_iff, toWire_eq_null_iff, ofJson_eq_null_iff]

theorem returned_number (lexeme : String) : r.returned d (.number lexeme) = .number lexeme :=
  rfl

theorem returned_boolean (b : Bool) : r.returned d (.boolean b) = .boolean b :=
  rfl

theorem returned_string (h : d.bare ≠ .date) (s : String) :
    r.returned d (.string s) = .string s := by
  rw [returned, Model.ofJson, toWire_string h, toModel_string h, Model.toJson]

/-- The exact text of a date comes back as its wire text. -/
theorem returned_date (h : d.bare = .date) {i : Instant} (hr : i.Regular) (hi : i.ShortYear) :
    r.returned d (.string i.exactText) = .string i.text := by
  have hw : Model.wireDateText i.exactText = i.text :=
    Model.wireDateText_of_some (i.parse?_exactText hr hi)
  have hm : Model.ofDateText i.text = .date i.shown.truncate :=
    Model.ofDateText_of_some (i.parse?_text_of_shortYear hi)
  rw [returned, Model.ofJson, toWire_date h, hw, toModel_date h, hm, Model.toJson,
    Instant.text_truncate, i.text_shown]

theorem returned_primitive {p : Primitive} (h : d.bare = .primitive p) {v : Json}
    (hv : v.NoRepeats) : r.returned d v = v := by
  have hb : d.bare = (Descriptor.primitive p).bare := h
  rw [returned, toModel_congr hb, toWire_congr hb, toWire_primitive, toModel_primitive,
    Model.toJson_ofJson hv, Model.toJson_ofJson hv]

theorem returned_array (h : d.bare = .array e) (items : List Json) :
    r.returned d (.array items) = .array (items.map (r.returned e)) := by
  rw [returned, Model.ofJson_array, toWire_array h, toModel_array h, Model.toJson_array,
    List.map_map, List.map_map, List.map_map]
  rfl

theorem toJson_toModel_map (h : d.bare = .map e) {members : List (String × Json)}
    (hn : (Entries.keys members).Nodup) : (r.toModel (.object members) d).toJson =
      .object (members.map fun m ↦ (m.1, (r.toModel m.2 e).toJson)) := by
  have hk : (Entries.keys (members.map fun m ↦ (m.1, r.toModel m.2 e))).Nodup := by
    rwa [Entries.keys_map (r.toModel · e)]
  rw [toModel_map h, Model.toJson_object hk, List.map_map]
  rfl

theorem returned_map (h : d.bare = .map e) {members : List (String × Json)}
    (hn : (Entries.keys members).Nodup) :
    r.returned d (.object members) = .object (members.map fun m ↦ (m.1, r.returned e m.2)) := by
  have hof : (Entries.keys (members.map fun m ↦ (m.1, Model.ofJson m.2))).Nodup := by
    rwa [Entries.keys_map Model.ofJson]
  have hwire : r.toWire (.object (members.map fun m ↦ (m.1, Model.ofJson m.2))) d =
      .object (members.map fun m ↦ (m.1, r.toWire (.ofJson m.2) e)) := by
    rw [toWire_map h hof, List.map_map]
    rfl
  rw [returned, Model.ofJson_object, hwire, toJson_toModel_map h, List.map_map]
  · rfl
  · rwa [Entries.keys_map fun v ↦ r.toWire (.ofJson v) e]

theorem returned_map_primitive {p : Primitive} (h : d.bare = .map e) (hp : e.bare = .primitive p)
    {members : List (String × Json)} (hv : (Json.object members).NoRepeats) :
    r.returned d (.object members) = .object members := by
  obtain ⟨hn, hm⟩ := Json.noRepeats_object.1 hv
  have hback : ∀ m ∈ members, (m.1, r.returned e m.2) = m :=
    fun m hmem ↦ by rw [returned_primitive hp (hm m hmem)]
  rw [returned_map h hn, Entries.map_eq_self_iff.2 hback]

section Record

variable {name : String} {fields : Fields}

theorem chosen?_of_untagged {rows : List Row} {tag? : String → Option String}
    (ht : r.table? name = some ⟨none, rows⟩) : r.chosen? tag? name = some ⟨none, rows⟩ := by
  have hc : r.contains name := by simp [contains, ht]
  have hres : r.resolve tag? name = name := by
    rw [resolve]
    split
    · rfl
    · rw [ht]
      rfl
  rw [chosen?, if_pos hc, hres, ht]

variable (hr : r.WellFormed) (hd : d.bare = .named name)
  (ht : r.table? name = some ⟨none, fields.rows⟩) (x : fields.Record)
include hr hd ht

/-- A record is written as its present members, under their wire names. -/
theorem toWire_record : r.toWire (.ofJson (.object (fields.toMembers x))) d =
    .object ((fields.entries x).map fun e ↦ (e.1.wire, r.toWire (.ofJson e.2) e.1.type)) := by
  have hl : (fields.rows.map Row.localName).Nodup := hr.nodup_locals _ (mem_tables ht)
  rw [Model.ofJson_object, hr.toWire_table hd (chosen?_of_untagged ht), fields.toMembers_eq,
    List.map_map]
  exact congrArg _ (Entries.gather_find?_of_sublist (fields.map_entries_sublist x) hl Row.wire
    (fun _ ↦ Model.ofJson) fun row m ↦ r.toWire m row.type)

theorem returned_record : r.returned d (.object (fields.toMembers x)) =
    .object ((fields.entries x).map fun e ↦ (e.1.localName, r.returned e.1.type e.2)) := by
  have hw : (fields.rows.map Row.wire).Nodup := hr.nodup_wires _ (mem_tables ht)
  have hl : (fields.rows.map Row.localName).Nodup := hr.nodup_locals _ (mem_tables ht)
  have hs := fields.map_entries_sublist x
  rw [returned, toWire_record hr hd ht, hr.toModel_table hd (chosen?_of_untagged ht)]
  have hg := Entries.gather_find?_of_sublist hs hw Row.localName
    (fun row v ↦ r.toWire (.ofJson v) row.type) fun row v ↦ r.toModel v row.type
  have hk := Entries.nodup_keys_of_sublist hs hl
    fun row v ↦ r.toModel (r.toWire (.ofJson v) row.type) row.type
  rw [hg, Model.toJson_object hk, List.map_map]
  rfl

end Record

end Storefront.Registry
