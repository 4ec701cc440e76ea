import Storefront.Descriptor.Basic
import Storefront.Proofs.Codec.Conforms
import Storefront.Proofs.Codec.Reread

namespace Storefront

namespace Json

variable {p : String → Prop} {v : Json}

theorem EveryString.tag? (hv : v.EveryString p) {member value : String}
    (h : v.tag? member = some value) : p value := by
  obtain ⟨w, hw, hs⟩ := Option.bind_eq_some_iff.1 h
  obtain ⟨members, rfl⟩ : ∃ members, v = .object members := by
    cases v with
    | object members => exact ⟨members, rfl⟩
    | null | boolean | number | string | array => cases hw
  obtain rfl : w = .string value := by
    cases w with
    | string s => exact congrArg string (Option.some.inj hs)
    | null | boolean | number | array | object => cases hs
  exact hv value (.member (Entries.mem_of_find? hw) (.refl _))

end Json

namespace Model

variable {p : String → Prop} {m : Model}

theorem EveryString.tag? (hm : m.EveryString p) {member value : String}
    (h : m.tag? member = some value) : p value := by
  obtain ⟨n, hn, hs⟩ := Option.bind_eq_some_iff.1 h
  obtain ⟨members, rfl⟩ : ∃ members, m = .object members := by
    cases m with
    | object members => exact ⟨members, rfl⟩
    | null | boolean | number | string | date | array => cases hn
  obtain rfl : n = .string value := by
    cases n with
    | string s => exact congrArg string (Option.some.inj hs)
    | null | boolean | number | date | array | object => cases hs
  exact hm value (.member (Entries.mem_of_find? hn) (.refl _))

end Model

namespace Registration

def name : Registration → String
  | .table name _ _ => name
  | .choices name _ => name

end Registration

namespace Registry

structure AgreeOn (p : String → Prop) (r r' : Registry) : Prop where
  table?_eq : ∀ name, p name → r'.table? name = r.table? name
  isChoice_eq : ∀ name, p name → r'.isChoice name = r.isChoice name

def EveryTypeName (p : String → Prop) (r : Registry) : Prop :=
  ∀ e ∈ r.tables, ∀ row ∈ e.2.rows, row.type.EveryName p

instance (p : String → Prop) [DecidablePred p] (r : Registry) : Decidable (r.EveryTypeName p) :=
  inferInstanceAs (Decidable (∀ e ∈ r.tables, ∀ row ∈ e.2.rows, row.type.EveryName p))

variable {p : String → Prop} {r r' : Registry}

namespace AgreeOn

theorem refl (p : String → Prop) (r : Registry) : AgreeOn p r r :=
  ⟨fun _ _ ↦ rfl, fun _ _ ↦ rfl⟩

theorem trans {r'' : Registry} (h : AgreeOn p r r') (h' : AgreeOn p r' r'') : AgreeOn p r r'' where
  table?_eq name hn := (h'.table?_eq name hn).trans (h.table?_eq name hn)
  isChoice_eq name hn := (h'.isChoice_eq name hn).trans (h.isChoice_eq name hn)

end AgreeOn

theorem agreeOn_register (r : Registry) (step : Registration) (hp : ¬ p step.name) :
    AgreeOn p r (r.register step) := by
  have hne : ∀ name, p name → step.name ≠ name := by
    rintro name hn rfl
    exact hp hn
  cases step with
  | table name discriminator fields =>
    exact ⟨fun other ho ↦ Entries.find?_put_of_ne (hne other ho) _ _, fun _ _ ↦ rfl⟩
  | choices name values =>
    refine ⟨fun _ _ ↦ rfl, fun other ho ↦ ?_⟩
    exact congrArg Option.isSome (Entries.find?_put_of_ne (hne other ho) _ _)

theorem agreeOn_registers (r : Registry) (steps : List Registration)
    (hp : ∀ step ∈ steps, ¬ p step.name) : AgreeOn p r (steps.foldl register r) := by
  induction steps generalizing r with
  | nil => exact .refl p r
  | cons step steps ih =>
    rw [List.forall_mem_cons] at hp
    exact (agreeOn_register r step hp.1).trans (ih (r.register step) hp.2)

theorem resolve_satisfies {tag? : String → Option String} {declared : String} (hd : p declared)
    (htag : ∀ tag value, tag? tag = some value → p value) : p (r.resolve tag? declared) := by
  rcases r.resolve_cases tag? declared with h | ⟨tag, h, -⟩
  · rwa [h]
  · exact htag tag _ h

namespace AgreeOn

variable (h : AgreeOn p r r')
include h

theorem contains_eq {name : String} (hn : p name) : r'.contains name = r.contains name := by
  rw [contains, contains, h.table?_eq name hn]

theorem resolve_eq {tag? : String → Option String} {declared : String} (hd : p declared)
    (htag : ∀ tag value, tag? tag = some value → p value) :
    r'.resolve tag? declared = r.resolve tag? declared := by
  rw [resolve, resolve, h.isChoice_eq declared hd, h.table?_eq declared hd]
  split
  · rfl
  · split
    · rfl
    · split
      · rfl
      · next hv =>
        obtain ⟨tag, -, htagged⟩ := Option.bind_eq_some_iff.1 hv
        rw [h.contains_eq (htag tag _ htagged)]

theorem wireTable?_eq {v : Json} (hv : v.EveryString p) {declared : String} (hd : p declared) :
    r'.wireTable? v declared = r.wireTable? v declared := by
  have htag : ∀ tag value, v.tag? tag = some value → p value := fun _ _ ↦ hv.tag?
  have hactual : p (r.resolve v.tag? declared) := resolve_satisfies hd htag
  rw [wireTable?, wireTable?, h.resolve_eq hd htag, h.isChoice_eq _ hactual, h.table?_eq _ hactual]

theorem modelTable?_eq {m : Model} (hm : m.EveryString p) {declared : String} (hd : p declared) :
    r'.modelTable? m declared = r.modelTable? m declared := by
  have htag : ∀ tag value, m.tag? tag = some value → p value := fun _ _ ↦ hm.tag?
  rw [modelTable?, modelTable?, h.resolve_eq hd htag, h.isChoice_eq declared hd, h.contains_eq hd,
    h.table?_eq _ (resolve_satisfies hd htag)]

/-- Reading asks for a type only under a name that the descriptor, a table or the value spells. -/
theorem toModel_eq (hr : r.EveryTypeName p) {v : Json} (hv : v.EveryString p) {d : Descriptor}
    (hd : d.EveryName p) : r'.toModel v d = r.toModel v d := by
  induction v using Json.induct generalizing d with
  | null | boolean b | number lexeme => rfl
  | string s => rw [toModel_string_eq, toModel_string_eq]
  | array items ih =>
    have hitems := Json.everyString_array.1 hv
    rcases d.array_cases with ⟨e, he⟩ | he
    · have hb : e.array.EveryName p := hd.of_bare he
      rw [toModel_array he, toModel_array he]
      exact congrArg _ (List.map_congr_left fun v hmem ↦ ih v hmem (hitems v hmem) hb)
    · rw [toModel_keptArray he, toModel_keptArray he]
  | object members ih =>
    have hmembers := Json.everyString_object.1 hv
    rcases d.object_cases (r.wireTable? (.object members)) with ⟨e, he⟩ | ⟨name, t, hn, ht⟩ | hk
    · have hb : e.map.EveryName p := hd.of_bare he
      rw [toModel_map he, toModel_map he]
      exact congrArg _ (List.map_congr_left fun m hmem ↦
        congrArg _ (ih m hmem (hmembers m hmem) hb))
    -- the shapes of the rows are not parts of the descriptor; the condition on the tables covers them
    · have hb : p name := hd.of_bare hn
      obtain ⟨actual, hmem⟩ := mem_tables_of_wireTable? ht
      rw [toModel_table hn ht, toModel_table hn ((h.wireTable?_eq hv hb).trans ht)]
      apply congrArg
      apply Entries.gather_congr
      intro row hrow
      apply Option.map_congr
      intro v hf
      have hv := Entries.mem_of_find? hf
      exact ih _ hv (hmembers _ hv) (hr _ hmem row hrow)
    · have hk' : d.KeepsObject (r'.wireTable? (.object members)) :=
        hk.congr fun name hn ↦ h.wireTable?_eq hv (hd.of_bare hn)
      rw [toModel_keptObject hk, toModel_keptObject hk']

theorem toWire_eq (hr : r.EveryTypeName p) {m : Model} (hm : m.EveryString p) {d : Descriptor}
    (hd : d.EveryName p) : r'.toWire m d = r.toWire m d := by
  induction m using Model.induct generalizing d with
  | null | boolean b | number lexeme | date i => rfl
  | string s => rw [toWire_string_eq, toWire_string_eq]
  | array items ih =>
    have hitems := Model.everyString_array.1 hm
    rcases d.array_cases with ⟨e, he⟩ | he
    · have hb : e.array.EveryName p := hd.of_bare he
      rw [toWire_array he, toWire_array he]
      exact congrArg _ (List.map_congr_left fun m hmem ↦ ih m hmem (hitems m hmem) hb)
    · rw [toWire_keptArray he, toWire_keptArray he]
  | object members ih =>
    have hmembers := Model.everyString_object.1 hm
    rcases d.object_cases (r.modelTable? (.object members)) with ⟨e, he⟩ | ⟨name, t, hn, ht⟩ | hk
    · have hb : e.map.EveryName p := hd.of_bare he
      rw [toWire_map_ofList he, toWire_map_ofList he]
      apply congrArg
      apply congrArg
      exact List.map_congr_left fun m hmem ↦ congrArg _ (ih m hmem (hmembers m hmem) hb)
    · have hb : p name := hd.of_bare hn
      obtain ⟨actual, hmem⟩ := mem_tables_of_modelTable? ht
      rw [toWire_table_ofList hn ht, toWire_table_ofList hn ((h.modelTable?_eq hm hb).trans ht)]
      apply congrArg
      apply congrArg
      apply Entries.gather_congr
      intro row hrow
      apply Option.map_congr
      intro m hf
      have hm := Entries.mem_of_find? hf
      exact ih _ hm (hmembers _ hm) (hr _ hmem row hrow)
    · have hk' : d.KeepsObject (r'.modelTable? (.object members)) :=
        hk.congr fun name hn ↦ h.modelTable?_eq hm (hd.of_bare hn)
      rw [toWire_keptObject hk, toWire_keptObject hk']

end AgreeOn

/-- Registrations leave as they are the conversions that do not come across a name of theirs. -/
theorem conversions_of_registers (r : Registry) (steps : List Registration)
    (hp : ∀ step ∈ steps, ¬ p step.name) {d : Descriptor} (hd : d.EveryName p)
    (hr : r.EveryTypeName p) :
    (∀ v : Json, v.EveryString p → (steps.foldl register r).toModel v d = r.toModel v d) ∧
      ∀ m : Model, m.EveryString p → (steps.foldl register r).toWire m d = r.toWire m d := by
  have h : AgreeOn p r (steps.foldl register r) := agreeOn_registers r steps hp
  constructor
  · intro v hv
    exact h.toModel_eq hr hv hd
  · intro m hm
    exact h.toWire_eq hr hm hd

/-- A type that is registered, new or in place of another, leaves a conversion as it is unless the
value names it, or the descriptor or a table does. -/
theorem conversions_of_register (r : Registry) (step : Registration) (d : Descriptor)
    (hd : d.EveryName (· ≠ step.name)) (hr : r.EveryTypeName (· ≠ step.name)) :
    (∀ v : Json, v.EveryString (· ≠ step.name) → (r.register step).toModel v d = r.toModel v d) ∧
      ∀ m : Model, m.EveryString (· ≠ step.name) →
        (r.register step).toWire m d = r.toWire m d := by
  refine conversions_of_registers r [step] ?_ hd hr
  intro other ho
  rw [List.mem_singleton.1 ho]
  exact fun hne ↦ hne rfl

def branch : Registration :=
  .table "Branch" (some "kind")
    [("kind", "kind", "string"), ("sub_nodes", "nodes", "Array<Node | null>")]

theorem conversions_of_register_branch :
    (Descriptor.named "Node").EveryName (· ≠ branch.name) ∧
    linked.EveryTypeName (· ≠ branch.name) ∧ chain.EveryString (· ≠ branch.name) ∧
    leaf.EveryString (· ≠ branch.name) ∧
    (linked.register branch).toModel chain (.named "Node") = linked.toModel chain (.named "Node") ∧
    (linked.register branch).toWire leaf (.named "Node") = linked.toWire leaf (.named "Node") := by
  have hd : (Descriptor.named "Node").EveryName (· ≠ branch.name) := by
    decide
  have hr : linked.EveryTypeName (· ≠ branch.name) := by
    decide +kernel
  have hv : chain.EveryString (· ≠ branch.name) := by
    simp [chain, branch, Registration.name]
  have hm : leaf.EveryString (· ≠ branch.name) := by
    simp [leaf, branch, Registration.name]
  have h := conversions_of_register linked branch (.named "Node") hd hr
  exact ⟨hd, hr, hv, hm, h.1 chain hv, h.2 leaf hm⟩

end Registry

end Storefront
