import Storefront.Proofs.Codec.Omitted
import Storefront.Proofs.Schema.RoundTrip

namespace Storefront

/-- What a member of a record becomes when so much is given for it: null counts as nothing. -/
def Shape.readMember (s : Shape) : Option Json → Except Mismatch (Option s.Value)
  | none => .ok none
  | some v => if v = .null then .ok none else (s.ofJson v).map some

namespace Fields

def collect (value? : Row → Option Json) : (f : Fields) → Except Mismatch f.Record
  | .nil => .ok ()
  | .cons row shape rest => do
    let x ← shape.readMember (value? row)
    let more ← rest.collect value?
    return (x, more)

section Cons

variable {row : Row} {shape : Shape} {rest : Fields} {value? : Row → Option Json}

theorem collect_cons : (Fields.cons row shape rest).collect value? =
    shape.readMember (value? row) >>= fun x ↦ (rest.collect value?).map fun more ↦ (x, more) := by
  change (shape.readMember (value? row) >>= fun x ↦ rest.collect value? >>= fun more ↦ _) = _
  congr 1

theorem assign_eq_readMember (x : Option shape.Value) (more : rest.Record) (v : Json) :
    (Fields.cons row shape rest).assign (x, more) row.localName v =
      (shape.readMember (some v)).map fun x ↦ (x, more) := by
  refine (if_pos rfl).trans ?_
  rw [Shape.readMember]
  split
  · rfl
  · cases shape.ofJson v <;> rfl

end Cons

/-- Setting the members that are gathered from the rows of a record reads them in the order of the
rows. -/
theorem assignAll_gather (value? : Row → Option Json) : ∀ f : Fields,
    (f.rows.map Row.localName).Nodup →
    f.assignAll (Entries.gather f.rows Row.localName value?) f.blank = f.collect value?
  | .nil, _ => rfl
  | .cons row shape rest, hl => by
    obtain ⟨hrow, hrows⟩ := List.nodup_cons.1 hl
    have hmore := rest.assignAll_gather value? hrows
    have hothers : ∀ e ∈ Entries.gather rest.rows Row.localName value?, row.localName ≠ e.1 := by
      rintro e he heq
      have hkey := (Entries.keys_gather_sublist value?).subset (List.mem_map_of_mem he)
      exact hrow (heq ▸ hkey)
    have hpass := fun x ↦ assignAll_of_ne shape hothers x rest.blank
    rw [collect_cons]
    cases hv : value? row with
    | none =>
      have hg : Entries.gather (Fields.cons row shape rest).rows Row.localName value? =
          Entries.gather rest.rows Row.localName value? :=
        List.filterMap_cons_none (by rw [hv]; rfl)
      rw [hg]
      exact (hpass none).trans (by rw [hmore]; rfl)
    | some v =>
      have hg : Entries.gather (Fields.cons row shape rest).rows Row.localName value? =
          (row.localName, v) :: Entries.gather rest.rows Row.localName value? :=
        List.filterMap_cons_some (by rw [hv]; rfl)
      rw [hg]
      refine (assignAll_cons (.cons row shape rest) ..).trans ?_
      refine (congrArg (Except.bind · _) (assign_eq_readMember none rest.blank v)).trans ?_
      cases shape.readMember (some v) with
      | error m => rfl
      | ok x => exact (hpass x).trans (by rw [hmore]; rfl)

end Fields

namespace Descriptor

def isFlat (r : Registry) (d : Descriptor) : Bool :=
  match d.bare with
  | .array _ => false
  | .named name => !r.contains name
  | _ => true

end Descriptor

mutual

def Shape.tablesFit (r : Registry) : Shape → Descriptor → Bool
  | .list item, d =>
    match d.bare with
    | .array e => item.tablesFit r e
    | _ => false
  | .record _ fields, _ => fields.tablesFit r
  | .text, d | .integer, d | .double, d | .flag, d | .instant, d | .anything, d | .members, d
  | .choice _, d => d.isFlat r

def Fields.tablesFit (r : Registry) : Fields → Bool
  | .nil => true
  | .cons row shape rest => shape.tablesFit r row.type && rest.tablesFit r

end

namespace Catalog

theorem tablesFit_of_mem_interfaces {c : Catalog} (hc : c ∈ interfaces) :
    ∀ s ∈ c.schemas, s.fields.tablesFit c.registry := by
  rcases List.mem_pair.1 hc with rfl | rfl <;> decide +kernel

end Catalog

namespace Registry

variable {r : Registry} {d e : Descriptor} {v w : Json}

theorem Omits.eq_of_isFlat (h : r.Omits d v w) (hd : d.isFlat r) : v = w := by
  rw [Descriptor.isFlat] at hd
  rcases h.cases with hvw | ⟨_, _, _, hb, -⟩ | ⟨name, ms, _, _, hb, -, -, ht, -⟩
  · exact hvw
  · rw [hb] at hd
    cases hd
  · have hc : ¬ r.contains name := by simpa [hb] using hd
    rw [wireTable?, resolve_of_not_contains hc, table?_eq_none hc, ite_self] at ht
    cases ht

/-- What is left out of items does not matter where it does not matter in one item. -/
theorem OmitsItems.mapM_eq {ε β : Type} {f : Json → Except ε β} {vs ws : List Json}
    (h : r.OmitsItems e vs ws) (hf : ∀ v ∈ vs, ∀ w, r.Omits e v w → f v = f w) :
    vs.mapM f = ws.mapM f := by
  induction vs generalizing ws with
  | nil =>
    cases h
    rfl
  | cons v vs ih =>
    cases h with
    | cons hv h =>
      obtain ⟨hfirst, hothers⟩ := List.forall_mem_cons.1 hf
      rw [List.mapM_cons, List.mapM_cons, hfirst _ hv, ih h hothers]

def received (r : Registry) (d : Descriptor) (v : Json) : Json :=
  (r.toModel v d).toJson

theorem received_eq_null_iff : r.received d v = .null ↔ v = .null := by
  rw [received, toJson_eq_null_iff, toModel_eq_null_iff]

theorem received_array (h : d.bare = .array e) (items : List Json) :
    r.received d (.array items) = .array (items.map (r.received e)) := by
  rw [received, toModel_array h, Model.toJson_array, List.map_map]
  rfl

theorem received_record (hr : r.WellFormed) {name : String} {rows : List Row}
    (hd : d.bare = .named name) (ht : r.table? name = some ⟨none, rows⟩)
    (members : List (String × Json)) : r.received d (.object members) =
      .object (Entries.gather rows Row.localName fun row ↦
        (Entries.find? row.wire members).map (r.received row.type)) := by
  have hl : (rows.map Row.localName).Nodup := hr.nodup_locals _ (mem_tables ht)
  rw [received, hr.toModel_table hd (chosen?_of_untagged ht),
    Model.toJson_object (Entries.nodup_keys_gather hl _), Entries.map_gather]
  simp only [Option.map_map]
  rfl

theorem wireTable?_of_untagged (hr : r.WellFormed) {name : String} {rows : List Row}
    (ht : r.table? name = some ⟨none, rows⟩) (v : Json) :
    r.wireTable? v name = some ⟨none, rows⟩ := by
  rw [hr.distinct.wireTable?_eq, chosen?_of_untagged ht]

end Registry

section Omitted

open Registry

variable {r : Registry}

theorem Shape.readMember_null (s : Shape) : s.readMember (some .null) = .ok none :=
  rfl

theorem Shape.readMember_congr {s : Shape} {v w : Json} (hn : v = .null ↔ w = .null)
    (h : s.ofJson v = s.ofJson w) : s.readMember (some v) = s.readMember (some w) := by
  simp only [readMember, hn, h]

mutual

/-- A value is read the same, and refused the same, whatever null members are left out. -/
theorem Shape.ofJson_of_omits (hr : r.WellFormed) : ∀ (s : Shape) {d : Descriptor}, s.fits r d →
    s.tablesFit r d → ∀ {v w : Json}, v.NoRepeats → r.Omits d v w →
    s.ofJson (r.received d v) = s.ofJson (r.received d w)
  | .text, d, _, hf, v, w, _, h | .integer, d, _, hf, v, w, _, h | .double, d, _, hf, v, w, _, h
  | .flag, d, _, hf, v, w, _, h | .instant, d, _, hf, v, w, _, h | .anything, d, _, hf, v, w, _, h
  | .members, d, _, hf, v, w, _, h | .choice _, d, _, hf, v, w, _, h => by
    rw [h.eq_of_isFlat hf]
  | .list item, d, hd, hf, v, w, hv, h => by
    obtain ⟨e, he, hitem⟩ := fits_list_iff.1 hd
    rw [Shape.tablesFit, he] at hf
    rcases h.array_cases he with rfl | ⟨vs, ws, rfl, rfl, hitems⟩
    · rfl
    · rw [received_array he, received_array he]
      change (vs.map (r.received e)).mapM item.ofJson = (ws.map (r.received e)).mapM item.ofJson
      rw [List.mapM_map, List.mapM_map]
      refine hitems.mapM_eq fun v hmem w hvw ↦ ?_
      exact item.ofJson_of_omits hr hitem hf (Json.noRepeats_array.1 hv v hmem) hvw
  | .record label fields, d, hd, hf, v, w, hv, h => by
    obtain ⟨name, hname, ht, hfields⟩ := fits_record_iff.1 hd
    have hl : (fields.rows.map Row.localName).Nodup := hr.nodup_locals _ (mem_tables ht)
    have hw : (fields.rows.map Row.wire).Nodup := hr.nodup_wires _ (mem_tables ht)
    rcases h.composite_cases hname with rfl | ⟨ms, ns, t, rfl, rfl, htable, hmembers⟩
    · rfl
    · obtain rfl := Option.some.inj ((wireTable?_of_untagged hr ht _).symm.trans htable)
      obtain ⟨hn, hvalues⟩ := Json.noRepeats_object.1 hv
      rw [received_record hr hname ht, received_record hr hname ht]
      change fields.assignAll _ fields.blank = fields.assignAll _ fields.blank
      rw [Fields.assignAll_gather _ fields hl, Fields.assignAll_gather _ fields hl]
      refine fields.collect_of_omits hr hfields hf ?_ fun row hrow ↦ hmembers.find?_cases hn hw hrow
      exact fun row v hfound ↦ hvalues _ (Entries.mem_of_find? hfound)

theorem Fields.collect_of_omits (hr : r.WellFormed) : ∀ f : Fields, f.fits r → f.tablesFit r →
    ∀ {value? value?' : Row → Option Json}, (∀ row v, value? row = some v → v.NoRepeats) →
    (∀ row ∈ f.rows, (value? row = some .null ∧ value?' row = none) ∨
      Option.Rel (r.Omits row.type) (value? row) (value?' row)) →
    f.collect (fun row ↦ (value? row).map (r.received row.type)) =
      f.collect fun row ↦ (value?' row).map (r.received row.type)
  | .nil, _, _, _, _, _, _ => rfl
  | .cons row shape rest, hfits, hf, value?, value?', hv, h => by
    obtain ⟨hshape, hrest⟩ := Bool.and_eq_true_iff.1 hfits
    obtain ⟨hfs, hfr⟩ := Bool.and_eq_true_iff.1 hf
    obtain ⟨hrow, hrows⟩ := List.forall_mem_cons.1 h
    have hmember : shape.readMember ((value? row).map (r.received row.type)) =
        shape.readMember ((value?' row).map (r.received row.type)) := by
      have hplain := hv row
      generalize value? row = x at hrow hplain ⊢
      generalize value?' row = y at hrow ⊢
      rcases hrow with ⟨rfl, rfl⟩ | hrel
      · exact shape.readMember_null
      · cases hrel with
        | none => rfl
        | some hvw =>
          refine Shape.readMember_congr ?_ (shape.ofJson_of_omits hr hshape hfs (hplain _ rfl) hvw)
          rw [received_eq_null_iff, received_eq_null_iff, hvw.null_iff]
    rw [Fields.collect_cons, Fields.collect_cons, hmember,
      rest.collect_of_omits hr hrest hfr hv hrows]

end

end Omitted

/-- No record of the two interfaces tells a null member from an absent one: what is read is the
same, and so is the first thing that is refused. -/
theorem Catalog.decode_of_omits : ∀ c ∈ Catalog.interfaces, ∀ s ∈ c.schemas, ∀ v w : Json,
    v.NoRepeats → c.registry.Omits (.named s.name) v w →
    c.registry.decode s v = c.registry.decode s w := by
  intro c hc s hs v w hv h
  have hr := wellFormed_of_mem_interfaces hc
  have hfits := fits_of_mem_interfaces hc s hs
  have htables := tablesFit_of_mem_interfaces hc s hs
  rw [Registry.decode_eq hfits, Registry.decode_eq hfits]
  exact congrArg _ (s.shape.ofJson_of_omits hr hfits htables hv h)

namespace Checkout

/-- A payment with null members of its own, of its status and of a product, and with nulls in free
members. -/
def nullsDocument : Json :=
  .object [("status", .object [("id", .number "1"), ("description", .null)]),
    ("products", .array [.object [("expires_at", .null), ("custom", .object [("note", .null)])]]),
    ("custom", .object [("note", .null)]), ("creator_code", .null), ("color", .null)]

def terseDocument : Json :=
  .object [("status", .object [("id", .number "1")]),
    ("products", .array [.object [("custom", .object [("note", .null)])]]),
    ("custom", .object [("note", .null)])]

theorem omits_terseDocument :
    catalog.registry.Omits (.named payment.name) nullsDocument terseDocument := by
  have hstatus : catalog.registry.Omits (.named paymentStatus.name)
      (.object [("id", .number "1"), ("description", .null)]) (.object [("id", .number "1")]) :=
    .composite (t := paymentStatus.table) (by decide +kernel) (.keep _ (.skip _ (.nil _)))
  have hproduct : catalog.registry.Omits (.named product.name)
      (.object [("expires_at", .null), ("custom", .object [("note", .null)])])
      (.object [("custom", .object [("note", .null)])]) :=
    .composite (t := product.table) (by decide +kernel) (.skip _ (.keep _ (.nil _)))
  have hproducts := Registry.Omits.array (.cons hproduct (.nil _))
  have hrow : (Field.record "status" "status" paymentStatus).1 ∈ payment.table.rows := by decide
  have hrows : (Field.records "products" "products" product).1 ∈ payment.table.rows := by decide
  exact .composite (t := payment.table) (by decide +kernel)
    (.inside hrow hstatus (.inside hrows hproducts (.keep _ (.skip _ (.skip _ (.nil _))))))

end Checkout

theorem Catalog.decode_of_omits_terse : Checkout.catalog ∈ Catalog.interfaces ∧
    Checkout.payment ∈ Checkout.catalog.schemas ∧ Checkout.nullsDocument.NoRepeats ∧
    Checkout.catalog.registry.Omits (.named Checkout.payment.name) Checkout.nullsDocument
      Checkout.terseDocument ∧
    Checkout.catalog.registry.decode Checkout.payment Checkout.nullsDocument =
      Checkout.catalog.registry.decode Checkout.payment Checkout.terseDocument := by
  have hs : Checkout.payment ∈ Checkout.catalog.schemas := by simp [Checkout.catalog]
  have hn : Checkout.nullsDocument.NoRepeats := by simp [Checkout.nullsDocument, Entries.keys]
  exact ⟨List.mem_cons_self, hs, hn, Checkout.omits_terseDocument,
    Catalog.decode_of_omits _ List.mem_cons_self _ hs _ _ hn Checkout.omits_terseDocument⟩

end Storefront
