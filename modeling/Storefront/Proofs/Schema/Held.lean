import Mathlib.Data.List.Forall2
import Storefront.Proofs.Json.Unfinished
import Storefront.Proofs.Outcome
import Storefront.Proofs.Schema.Fits
import Storefront.Proofs.Schema.Returned

namespace Storefront

mutual

/-- Every member that is present in the value is present in the JSON value, under its wire name and
not null, through records and lists at any depth. -/
def Shape.Held : (s : Shape) → s.Value → Json → Prop
  | .list item, (xs : List item.Value), w => ∃ ws, w = .array ws ∧ List.Forall₂ item.Held xs ws
  | .record _ fields, x, w => fields.Held x w
  | .text, _, _ | .integer, _, _ | .double, _, _ | .flag, _, _ | .instant, _, _
  | .anything, _, _ | .members, _, _ | .choice _, _, _ => True

def Fields.Held : (f : Fields) → f.Record → Json → Prop
  | .nil, _, _ => True
  | .cons row shape rest, (x, more), w =>
    (∀ y ∈ x, ∃ v, w.get? row.wire = some v ∧ v ≠ .null ∧ shape.Held y v) ∧ rest.Held more w

end

def Shape.IsWritten (s : Shape) (x : s.Value) : Prop :=
  s.toJson x ≠ .null

section Held

open Registry

variable {r : Registry}

mutual

/-- The wire value of a value holds what is not written as null. -/
theorem Shape.held_toWire_iff (hr : r.WellFormed) : ∀ (s : Shape) {d : Descriptor}, s.fits r d →
    ∀ x : s.Value, s.Held x (r.toWire (.ofJson (s.toJson x)) d) ↔ s.EveryMember Shape.IsWritten x
  | .text, _, _, _ | .integer, _, _, _ | .double, _, _, _ | .flag, _, _, _ | .instant, _, _, _
  | .anything, _, _, _ | .members, _, _, _ | .choice _, _, _, _ => Iff.rfl
  | .list item, d, hd, (xs : List item.Value) => by
    obtain ⟨e, he, hitem⟩ := fits_list_iff.1 hd
    have hw : r.toWire (.ofJson (.array (xs.map item.toJson))) d =
        .array (xs.map fun x ↦ r.toWire (.ofJson (item.toJson x)) e) := by
      rw [Model.ofJson_array, toWire_array he, List.map_map, List.map_map]
      rfl
    change (∃ ws, r.toWire (.ofJson (.array (xs.map item.toJson))) d = .array ws ∧
      List.Forall₂ item.Held xs ws) ↔ ∀ x ∈ xs, item.EveryMember Shape.IsWritten x
    simp only [hw, Json.array.injEq, exists_eq_left', List.forall₂_map_right_iff, List.forall₂_same]
    exact forall₂_congr fun x _ ↦ item.held_toWire_iff hr hitem x
  | .record label fields, d, hd, (x : fields.Record) => by
    obtain ⟨name, hname, ht, hf⟩ := fits_record_iff.1 hd
    have hn := hr.nodup_wires _ (mem_tables ht)
    refine fields.held_iff hr hf x _ fun e he ↦ ?_
    change Json.get? e.1.wire (r.toWire (.ofJson (.object (fields.toMembers x))) d) = _
    rw [toWire_record hr hname ht]
    exact Entries.find?_of_mem (Entries.nodup_keys_of_sublist (fields.map_entries_sublist x) hn
      fun row v ↦ r.toWire (.ofJson v) row.type) (List.mem_map_of_mem he)

theorem Fields.held_iff (hr : r.WellFormed) : ∀ f : Fields, f.fits r → ∀ (x : f.Record) (w : Json),
    (∀ e ∈ f.entries x, w.get? e.1.wire = some (r.toWire (.ofJson e.2) e.1.type)) →
    (f.Held x w ↔ f.EveryMember Shape.IsWritten x)
  | .nil, _, _, _, _ => Iff.rfl
  | .cons row shape rest, hf, (none, more), w, hw => by
    obtain ⟨-, hrest⟩ := Bool.and_eq_true_iff.1 hf
    exact and_congr (iff_of_true nofun nofun) (rest.held_iff hr hrest more w hw)
  | .cons row shape rest, hf, (some x, more), w, hw => by
    obtain ⟨hshape, hrest⟩ := Bool.and_eq_true_iff.1 hf
    obtain ⟨hget, hmore⟩ := List.forall_mem_cons.1 hw
    have hheld := shape.held_toWire_iff hr hshape x
    refine and_congr ⟨?_, ?_⟩ (rest.held_iff hr hrest more w hmore)
    · rintro h _ ⟨⟩
      obtain ⟨v, hv, hne, hx⟩ := h x rfl
      obtain rfl := Option.some.inj (hget.symm.trans hv)
      rw [ne_eq, toWire_eq_null_iff, ofJson_eq_null_iff] at hne
      exact ⟨hne, hheld.1 hx⟩
    · rintro h _ ⟨⟩
      obtain ⟨hne, hx⟩ := h x rfl
      refine ⟨_, hget, ?_, hheld.2 hx⟩
      rwa [ne_eq, toWire_eq_null_iff, ofJson_eq_null_iff]

end

end Held

namespace Fields

theorem everyMember_blank (p : (s : Shape) → s.Value → Prop) : ∀ f : Fields,
    f.EveryMember p f.blank
  | .nil => trivial
  | .cons _ _ rest => ⟨nofun, rest.everyMember_blank p⟩

theorem ofItems_cons (row : Row) (shape : Shape) (rest : Fields) (v : Json) (vs : List Json) :
    (Fields.cons row shape rest).ofItems (v :: vs) =
      (if v = .null then .ok none else (shape.ofJson v).map some) >>= fun x ↦
        (rest.ofItems vs).map fun more ↦ (x, more) := by
  by_cases hv : v = .null
  · refine (if_pos hv).trans ?_
    rw [if_pos hv]
    cases rest.ofItems vs <;> rfl
  · refine (if_neg hv).trans ?_
    rw [if_neg hv]
    cases shape.ofJson v with
    | error m => rfl
    | ok x => cases rest.ofItems vs <;> rfl

/-- What setting one member keeps, setting many keeps. -/
theorem assignAll_induct {f : Fields} {p : f.Record → Prop}
    (step : ∀ {x y key v}, f.assign x key v = .ok y → p x → p y) {entries : List (String × Json)}
    {x y : f.Record} (h : f.assignAll entries x = .ok y) (hx : p x) : p y := by
  induction entries generalizing x with
  | nil =>
    cases h
    exact hx
  | cons e es ih =>
    rw [assignAll_cons] at h
    cases ha : f.assign x e.1 e.2 with
    | error m =>
      rw [ha] at h
      cases h
    | ok z =>
      rw [ha] at h
      exact ih h (step ha hx)

end Fields

namespace Json

theorem exists_of_unmark {members : List (String × Json)} {w : Json} (h : unmark members = .ok w) :
    ∃ key text, members = [(key, .string text)] ∧ readNumeral text = .ok w := by
  rw [unmark.eq_def] at h
  split at h
  · cases h
  · next key text rest =>
    obtain ⟨v, hv, h⟩ := bind_eq_ok_iff.1 h
    rw [mapError_eq_ok_iff] at hv
    split at h
    · next hrest =>
      cases h
      rw [List.isEmpty_iff.1 hrest]
      exact ⟨key, text, rfl, hv⟩
    · cases h
  · cases h

theorem respell_ne_null {v w : Json} (hv : v ≠ .null) (h : v.respell = .ok w) : w ≠ .null := by
  cases v with
  | null => exact absurd rfl hv
  | boolean b | number lexeme | string s =>
    cases h
    exact nofun
  | array items =>
    obtain ⟨_, -, rfl⟩ := map_eq_ok_iff.1 h
    exact nofun
  | object members =>
    rw [respell] at h
    split at h
    · obtain ⟨-, text, -, hread⟩ := exists_of_unmark h
      obtain ⟨part, seen, rfl, -⟩ := numeral_of_readNumeral hread
      exact nofun
    · obtain ⟨_, -, rfl⟩ := map_eq_ok_iff.1 h
      exact nofun

end Json

theorem Shape.notNull_of_ofJson {s : Shape} {v : Json} {x : s.Value} (hv : v ≠ .null)
    (h : s.ofJson v = .ok x) : s.NotNull x := by
  cases s with
  | anything => exact Json.respell_ne_null hv h
  | text | integer | double | flag | instant | members | choice c | list item
  | record label fields => trivial

section Read

mutual

/-- Null leaves a member absent, so no free member that is read is null. -/
theorem Shape.everyMember_of_ofJson : ∀ (s : Shape) {v : Json} {x : s.Value}, s.ofJson v = .ok x →
    s.EveryMember Shape.NotNull x
  | .text, _, _, _ | .integer, _, _, _ | .double, _, _, _ | .flag, _, _, _ | .instant, _, _, _
  | .anything, _, _, _ | .members, _, _, _ | .choice _, _, _, _ => trivial
  | .list item, .array vs, (xs : List item.Value), h => by
    intro x hx
    obtain ⟨v, -, hv⟩ := exists_of_mapM_ok (f := item.ofJson) h x hx
    exact item.everyMember_of_ofJson hv
  | .record label fields, .object ms, (x : fields.Record), h =>
    Fields.assignAll_induct (fun ha hx ↦ fields.everyMember_of_assign ha hx) h
      (fields.everyMember_blank _)
  | .record label fields, .array vs, (x : fields.Record), h => by
    obtain ⟨y, hy, h⟩ := bind_eq_ok_iff.1 h
    split at h
    · cases h
    · cases h
      exact fields.everyMember_of_ofItems hy

theorem Fields.everyMember_of_assign : ∀ (f : Fields) {x y : f.Record} {key : String} {v : Json},
    f.assign x key v = .ok y → f.EveryMember Shape.NotNull x → f.EveryMember Shape.NotNull y
  | .nil, _, _, _, _, _, _ => trivial
  | .cons row shape rest, (x, more), (y, more'), key, v, h, hx => by
    replace h : (if row.localName = key then
        if v = .null then .ok (none, more) else (shape.ofJson v).map fun x ↦ (some x, more)
      else (rest.assign more key v).map fun more ↦ (x, more)) = Except.ok (y, more') := h
    split at h
    · split at h
      · cases h
        exact ⟨nofun, hx.2⟩
      · next hv =>
        obtain ⟨z, hz, heq⟩ := map_eq_ok_iff.1 h
        cases heq
        refine ⟨?_, hx.2⟩
        rintro _ ⟨⟩
        exact ⟨Shape.notNull_of_ofJson hv hz, shape.everyMember_of_ofJson hz⟩
    · obtain ⟨z, hz, heq⟩ := map_eq_ok_iff.1 h
      cases heq
      exact ⟨hx.1, rest.everyMember_of_assign hz hx.2⟩

theorem Fields.everyMember_of_ofItems : ∀ (f : Fields) {vs : List Json} {x : f.Record},
    f.ofItems vs = .ok x → f.EveryMember Shape.NotNull x
  | .nil, _, _, _ => trivial
  | .cons row shape rest, [], x, h => by
    cases h
    exact Fields.everyMember_blank _ _
  | .cons row shape rest, v :: vs, (x, more), h => by
    obtain ⟨y, hy, h⟩ := bind_eq_ok_iff.1 ((Fields.ofItems_cons ..).symm.trans h)
    obtain ⟨ys, hys, h⟩ := map_eq_ok_iff.1 h
    cases h
    refine ⟨?_, rest.everyMember_of_ofItems hys⟩
    split at hy
    · cases hy
      exact nofun
    · next hv =>
      obtain ⟨z, hz, rfl⟩ := map_eq_ok_iff.1 hy
      rintro _ ⟨⟩
      exact ⟨Shape.notNull_of_ofJson hv hz, shape.everyMember_of_ofJson hz⟩

end

end Read

section EveryMember

variable {p q : (s : Shape) → s.Value → Prop}

mutual

theorem Shape.everyMember_and_iff : ∀ (s : Shape) (x : s.Value),
    s.EveryMember (fun s x ↦ p s x ∧ q s x) x ↔ s.EveryMember p x ∧ s.EveryMember q x
  | .text, _ | .integer, _ | .double, _ | .flag, _ | .instant, _ | .anything, _ | .members, _
  | .choice _, _ => (and_iff_left trivial).symm
  | .list item, _ =>
    (forall₂_congr fun x _ ↦ item.everyMember_and_iff x).trans forall₂_and
  | .record _ fields, (x : fields.Record) => fields.everyMember_and_iff x

theorem Fields.everyMember_and_iff : ∀ (f : Fields) (x : f.Record),
    f.EveryMember (fun s x ↦ p s x ∧ q s x) x ↔ f.EveryMember p x ∧ f.EveryMember q x
  | .nil, _ => (and_iff_left trivial).symm
  | .cons row shape rest, (x, more) => by
    have hx : (∀ y ∈ x, (p shape y ∧ q shape y) ∧
        shape.EveryMember (fun s x ↦ p s x ∧ q s x) y) ↔
        (∀ y ∈ x, p shape y ∧ shape.EveryMember p y) ∧
          ∀ y ∈ x, q shape y ∧ shape.EveryMember q y := by
      rw [← forall₂_and]
      refine forall₂_congr fun y _ ↦ ?_
      rw [shape.everyMember_and_iff y, and_and_and_comm]
    exact (and_congr hx (rest.everyMember_and_iff more)).trans and_and_and_comm

end

theorem Fields.everyMember_isWritten_iff {f : Fields} {x : f.Record}
    (h : f.EveryMember Shape.NotNull x) :
    f.EveryMember Shape.IsWritten x ↔ f.EveryMember Shape.IsFinite x := by
  have hp : @Shape.IsWritten = fun s x ↦ s.NotNull x ∧ s.IsFinite x :=
    funext fun _ ↦ funext fun _ ↦ propext Shape.toJson_ne_null_iff
  rw [hp, f.everyMember_and_iff, and_iff_right h]

end EveryMember

/-- Every record that was read can be written, and nothing it holds is lost exactly when all its
doubles are finite. -/
theorem Catalog.held_encode_iff : ∀ c ∈ Catalog.interfaces, ∀ s ∈ c.schemas, ∀ (v : Json)
    (x : s.Record), c.registry.decode s v = .ok x → ∃ w, c.registry.encode s x = .ok w ∧
      (s.fields.Held x w ↔ s.fields.EveryMember Shape.IsFinite x) := by
  intro c hc s hs v x h
  have hr := wellFormed_of_mem_interfaces hc
  have hfits := fits_of_mem_interfaces hc s hs
  rw [Registry.decode_eq hfits, mapError_eq_ok_iff] at h
  have hn : s.fields.EveryMember Shape.NotNull x := s.shape.everyMember_of_ofJson h
  refine ⟨_, Registry.encode_eq hfits x, ?_⟩
  rw [← Fields.everyMember_isWritten_iff hn]
  exact s.shape.held_toWire_iff hr hfits x

namespace Checkout

def taxDocument : Json :=
  .object [("tax", .object [("amount", .number "0.50"), ("currency", .string "EUR")]),
    ("gateway", .null)]

def taxed : fees.Record :=
  let tax : price.Record := (some (.ofDecimal ⟨false, 50, -2⟩), some "EUR", ())
  (some tax, none, ())

theorem decode_taxDocument : catalog.registry.decode fees taxDocument = .ok taxed := by
  have hs : fees ∈ catalog.schemas := by simp [catalog]
  have hfits := Catalog.fits_of_mem_interfaces List.mem_cons_self fees hs
  have hmodel : (catalog.registry.toModel taxDocument (.named fees.name)).toJson = taxDocument := by
    decide +kernel
  have hread : fees.ofJson taxDocument = .ok taxed := by
    rfl
  rw [Registry.decode_eq hfits, hmodel, hread]
  rfl

theorem isFinite_taxed : fees.fields.EveryMember Shape.IsFinite taxed := by
  refine ⟨?_, nofun, trivial⟩
  rintro _ ⟨⟩
  refine ⟨trivial, ?_, fun _ _ ↦ ⟨trivial, trivial⟩, trivial⟩
  rintro _ ⟨⟩
  refine ⟨?_, trivial⟩
  change ¬ Number.Double.isInfinite _
  decide +kernel

end Checkout

theorem Catalog.held_encode_taxed : Checkout.catalog ∈ Catalog.interfaces ∧
    Checkout.fees ∈ Checkout.catalog.schemas ∧
    Checkout.catalog.registry.decode Checkout.fees Checkout.taxDocument = .ok Checkout.taxed ∧
    ∃ w, Checkout.catalog.registry.encode Checkout.fees Checkout.taxed = .ok w ∧
      Checkout.fees.fields.Held Checkout.taxed w := by
  have hs : Checkout.fees ∈ Checkout.catalog.schemas := by simp [Checkout.catalog]
  obtain ⟨w, hw, h⟩ := Catalog.held_encode_iff _ List.mem_cons_self _ hs _ _
    Checkout.decode_taxDocument
  exact ⟨List.mem_cons_self, hs, Checkout.decode_taxDocument, w, hw, h.2 Checkout.isFinite_taxed⟩

namespace Checkout

def hugePrice : Json :=
  .object [("amount", .number "1e+400"), ("currency", .string "USD")]

theorem huge_amount_lost : ∃ (x : price.Record) (w : Json),
    catalog.registry.decode price hugePrice = .ok x ∧ catalog.registry.encode price x = .ok w ∧
    w = .object [("amount", .null), ("currency", .string "USD")] ∧ ¬ price.fields.Held x w := by
  have hs : price ∈ catalog.schemas := by simp [catalog]
  have hfits := Catalog.fits_of_mem_interfaces List.mem_cons_self price hs
  let x : price.Record := (some (.ofPlace false Number.infinity), some "USD", ())
  have hmodel : (catalog.registry.toModel hugePrice (.named price.name)).toJson = hugePrice := by
    decide +kernel
  have hread : price.ofJson hugePrice = .ok x := by
    rfl
  have hwire : catalog.registry.toWire (.ofJson (price.toJson x)) (.named price.name) =
      .object [("amount", .null), ("currency", .string "USD")] := by
    decide +kernel
  refine ⟨x, _, ?_, Registry.encode_eq hfits x, hwire, ?_⟩
  · rw [Registry.decode_eq hfits, hmodel, hread]
    rfl
  · rw [hwire]
    rintro ⟨h, -⟩
    obtain ⟨v, hv, hne, -⟩ := h _ rfl
    exact hne (Option.some.inj hv).symm

end Checkout

end Storefront
