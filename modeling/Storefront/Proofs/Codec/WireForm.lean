import Storefront.Proofs.Codec.Reread

namespace Storefront.Registry

/-- The wire form of a wire value, one rule for each shape, without a word on the names of the
domain. A composite keeps the members that its table declares, in the order of the table; what does
not have the declared shape is kept. -/
inductive HasWireForm (r : Registry) : Json → Descriptor → Json → Prop
  | null (d : Descriptor) : HasWireForm r .null d .null
  | primitive (v : Json) (p : Primitive) : HasWireForm r v (.primitive p) v
  | choice {name : String} (v : Json) : r.isChoice name → HasWireForm r v (.named name) v
  | unregistered {name : String} (v : Json) : ¬ r.contains name → HasWireForm r v (.named name) v
  | nullable {v w : Json} {d : Descriptor} : HasWireForm r v d w → HasWireForm r v (.nullable d) w
  | optional {v w : Json} {d : Descriptor} : HasWireForm r v d w → HasWireForm r v (.optional d) w
  | array {items : List Json} {d : Descriptor} (form : Json → Json) :
      (∀ v ∈ items, HasWireForm r v d (form v)) →
      HasWireForm r (.array items) (.array d) (.array (items.map form))
  | map {members : List (String × Json)} {d : Descriptor} (form : Json → Json) :
      (∀ m ∈ members, HasWireForm r m.2 d (form m.2)) →
      HasWireForm r (.object members) (.map d) (.object (members.map fun m ↦ (m.1, form m.2)))
  | date {s : String} {i : Instant} : Instant.parse? s = some i →
      HasWireForm r (.string s) .date (.string i.text)
  | noDate {s : String} : Instant.parse? s = none → HasWireForm r (.string s) .date (.string s)
  | composite {members : List (String × Json)} {name : String} {t : Table}
      (form : Row → Json → Json) : r.contains name →
      r.table? (r.resolve (Json.object members).tag? name) = some t →
      (∀ row ∈ t.rows, ∀ v, Entries.find? row.wire members = some v →
        HasWireForm r v row.type (form row v)) →
      HasWireForm r (.object members) (.named name)
        (.object (Entries.gather t.rows Row.wire fun row ↦
          (Entries.find? row.wire members).map (form row)))
  | notString {v : Json} : (∀ s, v ≠ .string s) → HasWireForm r v .date v
  | notArray {v : Json} {d : Descriptor} : (∀ items, v ≠ .array items) →
      HasWireForm r v (.array d) v
  | notMap {v : Json} {d : Descriptor} : (∀ members, v ≠ .object members) →
      HasWireForm r v (.map d) v
  | notComposite {v : Json} {name : String} : (∀ members, v ≠ .object members) →
      HasWireForm r v (.named name) v

variable {r : Registry} {v w : Json} {d e : Descriptor}

namespace HasWireForm

theorem of_bare (h : r.HasWireForm v d.bare w) : r.HasWireForm v d w := by
  induction d with
  | nullable d ih => exact .nullable (ih h)
  | optional d ih => exact .optional (ih h)
  | primitive | date | array | map | named => exact h

/-- What the descriptor does not take apart is its own wire form. -/
theorem self (hstring : ∀ s, v = .string s → d.bare ≠ .date)
    (harray : ∀ items, v = .array items → ∀ e, d.bare ≠ .array e)
    (hobject : ∀ members, v = .object members → d.KeepsObject r.table?) :
    r.HasWireForm v d v := by
  induction d with
  | primitive p => exact .primitive v p
  | date => exact .notString fun s hs ↦ hstring s hs rfl
  | nullable d ih => exact .nullable (ih hstring harray hobject)
  | optional d ih => exact .optional (ih hstring harray hobject)
  | array e => exact .notArray fun items hi ↦ harray items hi e rfl
  | map e => exact .notMap fun members hm ↦ (hobject members hm).1 e rfl
  | named name =>
    by_cases hc : r.contains name
    · refine .notComposite ?_
      intro members hm
      have hn := (hobject members hm).2 name rfl
      rw [contains, hn] at hc
      cases hc
    · exact .unregistered v hc

end HasWireForm

theorem normal_congr {d' : Descriptor} (h : d.bare = d'.bare) (v : Json) :
    r.normal v d = r.normal v d' := by
  cases v with
  | null | boolean b | number lexeme => rfl
  | string s => rw [normal_string_eq, normal_string_eq, h]
  | array items => rw [normal_array_eq, normal_array_eq, h]
  | object members => rw [normal_object_eq, normal_object_eq, h]

theorem normal_kept (h : d.Keeps r.table?) (v : Json) : r.normal v d = v := by
  cases v with
  | null | boolean b | number lexeme => rfl
  | string s => exact normal_string h.date s
  | array items => exact normal_keptArray h.array items
  | object members => exact normal_keptObject h.object members

/-- Every wire value has a wire form under every descriptor. -/
theorem hasWireForm_normal (v : Json) (d : Descriptor) :
    r.HasWireForm v d (r.normal v d) := by
  induction v using Json.induct generalizing d with
  | null => exact .null d
  | boolean b => exact .self nofun nofun nofun
  | number lexeme => exact .self nofun nofun nofun
  | string s =>
    by_cases h : d.bare = .date
    · rw [normal_date h]
      apply HasWireForm.of_bare
      rw [h]
      cases hs : Instant.parse? s with
      | some i =>
        rw [Model.wireDateText_of_some hs]
        exact .date hs
      | none =>
        rw [Model.wireDateText_of_none hs]
        exact .noDate hs
    · rw [normal_string h]
      exact .self (fun _ _ ↦ h) nofun nofun
  | array items ih =>
    rcases d.array_cases with ⟨e, h⟩ | h
    · rw [normal_array h]
      apply HasWireForm.of_bare
      rw [h]
      exact .array (r.normal · e) fun v hv ↦ ih v hv e
    · rw [normal_keptArray h]
      exact .self nofun (fun _ _ ↦ h) nofun
  | object members ih =>
    rcases r.object_cases (Json.object members).tag? d with ⟨e, h⟩ | ⟨name, t, h, ht⟩ | h
    · rw [normal_map h]
      apply HasWireForm.of_bare
      rw [h]
      exact .map (r.normal · e) fun m hm ↦ ih m hm e
    · rw [normal_table h ht]
      apply HasWireForm.of_bare
      rw [h]
      obtain ⟨hc, ht⟩ := chosen?_eq_some_iff.1 ht
      refine .composite (fun row v ↦ r.normal v row.type) hc ht ?_
      intro row hrow v hv
      exact ih _ (Entries.mem_of_find? hv) row.type
    · rw [normal_keptObject h]
      exact .self nofun nofun fun _ _ ↦ h

theorem HasWireForm.eq_normal (hr : r.WellFormed) (h : r.HasWireForm v d w) :
    w = r.normal v d := by
  induction h with
  | null d => rfl
  | primitive v p => exact (normal_primitive p v).symm
  | choice v hc => exact (normal_kept (hr.keeps_choice hc) v).symm
  | unregistered v hc => exact (normal_kept (keeps_of_not_contains hc) v).symm
  | @nullable v w d _ ih => rw [ih, normal_congr (show d.nullable.bare = d.bare from rfl)]
  | @optional v w d _ ih => rw [ih, normal_congr (show d.optional.bare = d.bare from rfl)]
  | array form _ ih =>
    rw [normal_array rfl]
    exact congrArg _ (List.map_congr_left ih)
  | map form _ ih =>
    rw [normal_map rfl]
    exact congrArg _ (List.map_congr_left fun m hm ↦ congrArg _ (ih m hm))
  | date hs => rw [normal_date rfl, Model.wireDateText_of_some hs]
  | noDate hs => rw [normal_date rfl, Model.wireDateText_of_none hs]
  | composite form hc ht _ ih =>
    rw [normal_table rfl (chosen?_eq_some_iff.2 ⟨hc, ht⟩)]
    apply congrArg
    apply Entries.gather_congr
    intro row hrow
    exact Option.map_congr fun v hv ↦ ih row hrow v hv
  | @notString v h =>
    cases v with
    | string s => exact absurd rfl (h s)
    | null | boolean | number | array | object => rfl
  | @notArray v d h =>
    cases v with
    | array items => exact absurd rfl (h items)
    | null | boolean | number | string | object => rfl
  | @notMap v d h =>
    cases v with
    | object members => exact absurd rfl (h members)
    | null | boolean | number | string | array => rfl
  | @notComposite v name h =>
    cases v with
    | object members => exact absurd rfl (h members)
    | null | boolean | number | string | array => rfl

/-- What comes back to the wire is the wire form of what came from it, and nothing else. -/
theorem toWire_toModel_eq_iff (hr : r.WellFormed) (hv : v.NoRepeats) :
    r.toWire (r.toModel v d) d = w ↔ r.HasWireForm v d w := by
  rw [toWire_toModel_eq_normal hr hv d]
  constructor
  · intro h
    rw [← h]
    exact hasWireForm_normal v d
  · exact fun h ↦ (h.eq_normal hr).symm

def chainForm : Json :=
  .object [("kind", .string "Node"), ("next_node", .object [("kind", .string "Leaf"),
    ("leaf_dates", .array [.string "soon"])]), ("seen_at", .string "2024-02-29T23:59:60.123Z")]

theorem hasWireForm_chain : linked.WellFormed ∧ chain.NoRepeats ∧
    linked.HasWireForm chain (.named "Node") chainForm :=
  ⟨wellFormed_linked, noRepeats_chain,
    (toWire_toModel_eq_iff wellFormed_linked noRepeats_chain).1 (by decide +kernel)⟩

end Storefront.Registry
