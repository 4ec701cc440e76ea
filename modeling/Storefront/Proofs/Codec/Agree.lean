import Storefront.Proofs.Codec.Conforms
import Storefront.Proofs.Codec.Reread

namespace Storefront.Registry

/-- Two wire values agree on all that a descriptor declares. Two objects of a composite type may
differ in the order of their members and in those that the chosen table does not declare; a type
that is also a closed choice is kept as it is and leaves no such freedom. -/
inductive AgreeWire (r : Registry) : Descriptor → Json → Json → Prop
  | refl (d : Descriptor) (v : Json) : AgreeWire r d v v
  | nullable {d : Descriptor} {v w : Json} : AgreeWire r d v w → AgreeWire r (.nullable d) v w
  | optional {d : Descriptor} {v w : Json} : AgreeWire r d v w → AgreeWire r (.optional d) v w
  | array {d : Descriptor} {vs ws : List Json} : vs.length = ws.length →
      (∀ p ∈ vs.zip ws, AgreeWire r d p.1 p.2) → AgreeWire r (.array d) (.array vs) (.array ws)
  | map {d : Descriptor} {ms ns : List (String × Json)} : Entries.keys ms = Entries.keys ns →
      (∀ p ∈ ms.zip ns, AgreeWire r d p.1.2 p.2.2) → AgreeWire r (.map d) (.object ms) (.object ns)
  | composite {name : String} {declared t : Table} {ms ns : List (String × Json)} :
      r.table? name = some declared → ¬ r.isChoice name →
      (∀ tag ∈ declared.discriminator, Entries.find? tag ms = Entries.find? tag ns) →
      r.table? (r.resolve (Json.object ms).tag? name) = some t →
      ¬ r.isChoice (r.resolve (Json.object ms).tag? name) →
      (∀ row ∈ t.rows, Entries.find? row.wire ms = none ↔ Entries.find? row.wire ns = none) →
      (∀ row ∈ t.rows, ∀ v w, Entries.find? row.wire ms = some v →
        Entries.find? row.wire ns = some w → AgreeWire r row.type v w) →
      AgreeWire r (.named name) (.object ms) (.object ns)

inductive AgreeModel (r : Registry) : Descriptor → Model → Model → Prop
  | refl (d : Descriptor) (m : Model) : AgreeModel r d m m
  | nullable {d : Descriptor} {m n : Model} : AgreeModel r d m n → AgreeModel r (.nullable d) m n
  | optional {d : Descriptor} {m n : Model} : AgreeModel r d m n → AgreeModel r (.optional d) m n
  | array {d : Descriptor} {ms ns : List Model} : ms.length = ns.length →
      (∀ p ∈ ms.zip ns, AgreeModel r d p.1 p.2) → AgreeModel r (.array d) (.array ms) (.array ns)
  | map {d : Descriptor} {ms ns : List (String × Model)} : Entries.keys ms = Entries.keys ns →
      (∀ p ∈ ms.zip ns, AgreeModel r d p.1.2 p.2.2) →
      AgreeModel r (.map d) (.object ms) (.object ns)
  | composite {name : String} {declared t : Table} {ms ns : List (String × Model)} :
      r.table? name = some declared → ¬ r.isChoice name →
      (∀ tag ∈ declared.discriminator, Entries.find? tag ms = Entries.find? tag ns) →
      r.table? (r.resolve (Model.object ms).tag? name) = some t →
      (∀ row ∈ t.rows, Entries.find? row.localName ms = none ↔
        Entries.find? row.localName ns = none) →
      (∀ row ∈ t.rows, ∀ m n, Entries.find? row.localName ms = some m →
        Entries.find? row.localName ns = some n → AgreeModel r row.type m n) →
      AgreeModel r (.named name) (.object ms) (.object ns)

variable {r : Registry} {name : String} {declared t : Table}

theorem AgreeWire.of_find?_eq {ms ns : List (String × Json)} (hd : r.table? name = some declared)
    (hc : ¬ r.isChoice name)
    (htag : ∀ tag ∈ declared.discriminator, Entries.find? tag ms = Entries.find? tag ns)
    (ht : r.table? (r.resolve (Json.object ms).tag? name) = some t)
    (hct : ¬ r.isChoice (r.resolve (Json.object ms).tag? name))
    (h : ∀ row ∈ t.rows, Entries.find? row.wire ms = Entries.find? row.wire ns) :
    r.AgreeWire (.named name) (.object ms) (.object ns) := by
  refine .composite hd hc htag ht hct (fun row hrow ↦ by rw [h row hrow]) ?_
  intro row hrow v w hv hw
  obtain rfl : v = w := Option.some.inj (hv.symm.trans ((h row hrow).trans hw))
  exact .refl _ _

theorem AgreeModel.of_find?_eq {ms ns : List (String × Model)} (hd : r.table? name = some declared)
    (hc : ¬ r.isChoice name)
    (htag : ∀ tag ∈ declared.discriminator, Entries.find? tag ms = Entries.find? tag ns)
    (ht : r.table? (r.resolve (Model.object ms).tag? name) = some t)
    (h : ∀ row ∈ t.rows, Entries.find? row.localName ms = Entries.find? row.localName ns) :
    r.AgreeModel (.named name) (.object ms) (.object ns) := by
  refine .composite hd hc htag ht (fun row hrow ↦ by rw [h row hrow]) ?_
  intro row hrow m n hm hn
  obtain rfl : m = n := Option.some.inj (hm.symm.trans ((h row hrow).trans hn))
  exact .refl _ _

theorem contains_of_table? (h : r.table? name = some declared) : r.contains name := by
  rw [contains, h]
  rfl

theorem wireTable?_of_resolve {v : Json} (ht : r.table? (r.resolve v.tag? name) = some t)
    (hc : ¬ r.isChoice (r.resolve v.tag? name)) : r.wireTable? v name = some t := by
  rw [wireTable?, if_neg hc, ht]

theorem modelTable?_of_resolve {m : Model} (hd : r.table? name = some declared)
    (hc : ¬ r.isChoice name) (ht : r.table? (r.resolve m.tag? name) = some t) :
    r.modelTable? m name = some t := by
  have hopen : ¬ (r.isChoice name || !r.contains name) := by simp [hc, contains_of_table? hd]
  rw [modelTable?, if_neg hopen, ht]

theorem resolve_wire_eq {ms ns : List (String × Json)} (hd : r.table? name = some declared)
    (h : ∀ tag ∈ declared.discriminator, Entries.find? tag ms = Entries.find? tag ns) :
    r.resolve (Json.object ms).tag? name = r.resolve (Json.object ns).tag? name := by
  apply resolve_congr
  intro u hu tag htag
  obtain rfl : declared = u := Option.some.inj (hd.symm.trans hu)
  exact congrArg (Option.bind · Json.asString?) (h tag htag)

theorem resolve_model_eq {ms ns : List (String × Model)} (hd : r.table? name = some declared)
    (h : ∀ tag ∈ declared.discriminator, Entries.find? tag ms = Entries.find? tag ns) :
    r.resolve (Model.object ms).tag? name = r.resolve (Model.object ns).tag? name := by
  apply resolve_congr
  intro u hu tag htag
  obtain rfl : declared = u := Option.some.inj (hd.symm.trans hu)
  exact congrArg (Option.bind · Model.asString?) (h tag htag)

theorem map_eq_of_agreeing {α β : Type} {f : α → β} {x y : Option α} (hn : x = none ↔ y = none)
    (hs : ∀ a b, x = some a → y = some b → f a = f b) : x.map f = y.map f := by
  cases x with
  | none => rw [hn.1 rfl]
  | some a =>
    cases y with
    | none => cases hn.2 rfl
    | some b => exact congrArg some (hs a b rfl rfl)

theorem toModel_eq_of_agreeWire {d : Descriptor} {v w : Json} (h : r.AgreeWire d v w) :
    r.toModel v d = r.toModel w d := by
  induction h with
  | refl => rfl
  | @nullable d v w _ ih =>
    have hb : d.nullable.bare = d.bare := rfl
    rw [toModel_congr hb, toModel_congr hb, ih]
  | @optional d v w _ ih =>
    have hb : d.optional.bare = d.bare := rfl
    rw [toModel_congr hb, toModel_congr hb, ih]
  | @array d vs ws hl _ ih =>
    rw [toModel_array rfl, toModel_array rfl, Entries.map_eq_of_zip (r.toModel · d) hl ih]
  | @map d ms ns hk _ ih =>
    rw [toModel_map rfl, toModel_map rfl, Entries.map_congr_of_keys (r.toModel · d) hk ih]
  | @composite name declared t ms ns hd hc htag ht hct hn _ ih =>
    have hr := resolve_wire_eq hd htag
    have hms := wireTable?_of_resolve ht hct
    have hns : r.wireTable? (.object ns) name = some t := by
      rw [hr] at ht hct
      exact wireTable?_of_resolve ht hct
    rw [toModel_table rfl hms, toModel_table rfl hns]
    apply congrArg
    apply Entries.gather_congr
    intro row hrow
    exact map_eq_of_agreeing (hn row hrow) (ih row hrow)

theorem toWire_eq_of_agreeModel {d : Descriptor} {m n : Model} (h : r.AgreeModel d m n) :
    r.toWire m d = r.toWire n d := by
  induction h with
  | refl => rfl
  | @nullable d m n _ ih =>
    have hb : d.nullable.bare = d.bare := rfl
    rw [toWire_congr hb, toWire_congr hb, ih]
  | @optional d m n _ ih =>
    have hb : d.optional.bare = d.bare := rfl
    rw [toWire_congr hb, toWire_congr hb, ih]
  | @array d ms ns hl _ ih =>
    rw [toWire_array rfl, toWire_array rfl, Entries.map_eq_of_zip (r.toWire · d) hl ih]
  | @map d ms ns hk _ ih =>
    rw [toWire_map_ofList rfl, toWire_map_ofList rfl,
      Entries.map_congr_of_keys (r.toWire · d) hk ih]
  | @composite name declared t ms ns hd hc htag ht hn _ ih =>
    have hr := resolve_model_eq hd htag
    have hms := modelTable?_of_resolve hd hc ht
    have hns : r.modelTable? (.object ns) name = some t := by
      rw [hr] at ht
      exact modelTable?_of_resolve hd hc ht
    rw [toWire_table_ofList rfl hms, toWire_table_ofList rfl hns]
    apply congrArg
    apply congrArg
    apply Entries.gather_congr
    intro row hrow
    exact map_eq_of_agreeing (hn row hrow) (ih row hrow)

/-- Whatever is written for an object of a composite type is a declared member of it. -/
theorem toWire_declared {ms : List (String × Model)} (hd : r.table? name = some declared)
    (hc : ¬ r.isChoice name) (ht : r.table? (r.resolve (Model.object ms).tag? name) = some t) :
    ∃ ws, r.toWire (.object ms) (.named name) = .object ws ∧ ∀ e ∈ ws, ∃ row ∈ t.rows,
      row.wire = e.1 ∧ ∃ m, Entries.find? row.localName ms = some m ∧ e.2 = r.toWire m row.type := by
  refine ⟨_, toWire_table_ofList rfl (modelTable?_of_resolve hd hc ht), ?_⟩
  intro e he
  obtain ⟨row, hrow, hk, hv⟩ := Entries.mem_gather.1 (Entries.mem_of_mem_ofList he)
  obtain ⟨m, hm, hw⟩ := Option.map_eq_some_iff.1 hv
  exact ⟨row, hrow, hk, m, hm, hw.symm⟩

/-- What a descriptor does not declare influences neither direction, at any depth, and an object of
a composite type is written with declared members only. -/
theorem conversions_of_agree (r : Registry) (d : Descriptor) :
    (∀ v w, r.AgreeWire d v w → r.toModel v d = r.toModel w d) ∧
    (∀ m n, r.AgreeModel d m n → r.toWire m d = r.toWire n d) ∧
    ∀ name declared t ms, d.bare = .named name → r.table? name = some declared →
      ¬ r.isChoice name → r.table? (r.resolve (Model.object ms).tag? name) = some t →
      ∃ ws, r.toWire (.object ms) d = .object ws ∧ ∀ e ∈ ws, ∃ row ∈ t.rows,
        row.wire = e.1 ∧
          ∃ m, Entries.find? row.localName ms = some m ∧ e.2 = r.toWire m row.type := by
  refine ⟨fun v w ↦ toModel_eq_of_agreeWire, fun m n ↦ toWire_eq_of_agreeModel, ?_⟩
  intro name declared t ms hb hd hc ht
  rw [toWire_congr (hb.trans (show Descriptor.named name = (Descriptor.named name).bare from rfl))]
  exact toWire_declared hd hc ht

def otherChain : Json :=
  .object [("kind", .string "Node"), ("next_node", .object [("kind", .string "Leaf"),
      ("color", .null), ("leaf_dates", .array [.string "soon"])]),
    ("seen_at", .string "2024-02-29T23:59:60.123456Z")]

def otherLeaf : Model :=
  .object [("kind", .string "Leaf"), ("dates", (leaf.get? "dates").getD .null)]

theorem agreeWire_chain : linked.AgreeWire (.named "Node") chain otherChain := by
  have hd : linked.table? "Node" = some nodeTable := by decide +kernel
  refine .composite hd (t := nodeTable) (by decide +kernel) (by decide +kernel) (by decide +kernel)
    (by decide +kernel) (by decide +kernel) ?_
  intro row hrow v w hv hw
  simp only [nodeTable, List.mem_cons, List.not_mem_nil, or_false] at hrow
  rcases hrow with rfl | rfl | rfl
  · obtain rfl : v = w := Option.some.inj (hv.symm.trans hw)
    exact .refl _ _
  · -- the inner objects are leaves, and differ in a member that leaves do not have
    obtain rfl := Option.some.inj hv
    obtain rfl := Option.some.inj hw
    exact .nullable (.of_find?_eq hd (t := leafTable) (by decide +kernel) (by decide +kernel)
      (by decide +kernel) (by decide +kernel) (by decide +kernel))
  · obtain rfl : v = w := Option.some.inj (hv.symm.trans hw)
    exact .refl _ _

theorem agreeModel_leaf : linked.AgreeModel (.named "Node") leaf otherLeaf := by
  have hd : linked.table? "Node" = some nodeTable := by decide +kernel
  exact .of_find?_eq hd (t := leafTable) (by decide +kernel) (by decide +kernel)
    (by decide +kernel) (by decide +kernel)

theorem conversions_of_agree_linked :
    (linked.AgreeWire (.named "Node") chain otherChain ∧
      linked.toModel chain (.named "Node") = linked.toModel otherChain (.named "Node")) ∧
    (linked.AgreeModel (.named "Node") leaf otherLeaf ∧
      linked.toWire leaf (.named "Node") = linked.toWire otherLeaf (.named "Node")) ∧
    linked.table? "Node" = some nodeTable ∧ ¬ linked.isChoice "Node" ∧
    linked.table? (linked.resolve leaf.tag? "Node") = some leafTable ∧
    ∃ ws, linked.toWire leaf (.named "Node") = .object ws ∧ ∀ e ∈ ws, ∃ row ∈ leafTable.rows,
      row.wire = e.1 ∧
        ∃ m, Model.get? row.localName leaf = some m ∧ e.2 = linked.toWire m row.type := by
  have h := conversions_of_agree linked (.named "Node")
  have hd : linked.table? "Node" = some nodeTable := by decide +kernel
  have hc : ¬ linked.isChoice "Node" := by decide +kernel
  have ht : linked.table? (linked.resolve leaf.tag? "Node") = some leafTable := by decide +kernel
  exact ⟨⟨agreeWire_chain, h.1 _ _ agreeWire_chain⟩, ⟨agreeModel_leaf, h.2.1 _ _ agreeModel_leaf⟩,
    hd, hc, ht, h.2.2 "Node" nodeTable leafTable _ rfl hd hc ht⟩

def shapeTable : Table where
  discriminator := some "kind"
  rows := [⟨"kind", "kind", .primitive .string⟩]

def circleTable : Table where
  discriminator := none
  rows := [⟨"kind", "kind", .primitive .string⟩, ⟨"radius", "radius", .primitive .number⟩]

/-- A composite type that may be chosen for another one, and whose name is also that of a closed
choice. -/
def shapes : Registry :=
  ((Registry.empty.addTable "Shape" shapeTable).addTable "Circle" circleTable).addChoices
    "Circle" ["small"]

def circle : List (String × Json) :=
  [("kind", .string "Circle"), ("radius", .number "4")]

/-- The unknown member of the second object is not dropped, since the chosen name is a closed choice
as well. -/
theorem undeclared_kept_of_choice : shapes.table? "Shape" = some shapeTable ∧
    shapes.isChoice "Shape" = false ∧ shapeTable.discriminator = some "kind" ∧
    shapes.resolve (Json.object circle).tag? "Shape" = "Circle" ∧
    shapes.table? "Circle" = some circleTable ∧
    let colored := circle ++ [("color", .string "red")]
    Entries.find? "kind" circle = Entries.find? "kind" colored ∧
    (∀ row ∈ circleTable.rows, Entries.find? row.wire circle = Entries.find? row.wire colored) ∧
    shapes.toModel (.object circle) (.named "Shape") ≠
      shapes.toModel (.object colored) (.named "Shape") := by
  decide +kernel

end Storefront.Registry
