import Storefront.Proofs.Number.Text
import Storefront.Proofs.Outcome
import Storefront.Proofs.Schema.Fits
import Storefront.Proofs.Schema.Returned

namespace Storefront

def Number.IsUsual (lexeme : String) : Prop :=
  ∃ n : Int64, lexeme = String.ofList (intText n.toInt)

theorem Number.respell_of_isUsual {lexeme : String} (h : IsUsual lexeme) :
    respell lexeme = lexeme := by
  obtain ⟨n, rfl⟩ := h
  have hl : -(Nat.pow 2 63 : Int) ≤ n.toInt := n.le_toInt
  have hh : n.toInt < (Nat.pow 2 63 : Int) := n.toInt_lt
  simp only [respell, String.toList_ofList, wholeNumber?_intText]
  split
  · next h0 =>
    rw [h0]
    rfl
  · have h127 : Nat.pow 2 63 ≤ Nat.pow 2 127 := Nat.pow_le_pow_right (by decide) (by decide)
    have h128 : Nat.pow 2 63 ≤ Nat.pow 2 128 := Nat.pow_le_pow_right (by decide) (by decide)
    rw [if_pos ⟨by omega, by omega⟩]

namespace Json

/-- No object in a free value repeats a key or is marked as a number, and its numbers are whole, of
64 bits and usually spelled. -/
def IsPlain (v : Json) : Prop :=
  v.NoRepeats ∧ v.NoMarks ∧ v.EveryNumber Number.IsUsual

theorem respellItems_eq_self {items : List Json} (h : ∀ v ∈ items, respell v = .ok v) :
    respellItems items = .ok items := by
  induction items with
  | nil => rfl
  | cons v vs ih =>
    obtain ⟨hv, hvs⟩ := List.forall_mem_cons.1 h
    rw [respellItems, hv, ih hvs]
    rfl

theorem respellMembers_eq_self {members : List (String × Json)}
    (h : ∀ e ∈ members, respell e.2 = .ok e.2) : respellMembers members = .ok members := by
  induction members with
  | nil => rfl
  | cons e es ih =>
    obtain ⟨he, hes⟩ := List.forall_mem_cons.1 h
    rw [respellMembers, he, ih hes]
    rfl

theorem respell_eq_self {v : Json} (hm : v.NoMarks) (h : v.EveryNumber Number.IsUsual) :
    v.respell = .ok v := by
  induction v using Json.induct with
  | null | boolean b | string s => rfl
  | number lexeme =>
    rw [respell, Number.respell_of_isUsual (everyNumber_number.1 h)]
  | array items ih =>
    have hi : ∀ v ∈ items, respell v = .ok v :=
      fun v hv ↦ ih v hv (noMarks_array.1 hm v hv) (everyNumber_array.1 h v hv)
    rw [respell, respellItems_eq_self hi]
    rfl
  | object members ih =>
    obtain ⟨hfirst, hm⟩ := noMarks_object.1 hm
    have hi : ∀ e ∈ members, respell e.2 = .ok e.2 :=
      fun e he ↦ ih e he (hm e he) (everyNumber_object.1 h e he)
    rw [respell, hfirst, if_neg (by decide), respellMembers_eq_self hi]
    rfl

end Json

mutual

/-- Every part of the value has a text that says all of it: doubles are finite, instants are regular
and have whole milliseconds and four digits for the year, and free values are plain. -/
def Shape.Exact : (s : Shape) → s.Value → Prop
  | .double, x => ¬ Number.Double.isInfinite x
  | .instant, i => Instant.Settled i ∧ Instant.Regular i
  | .anything, v => Json.IsPlain v
  | .members, (ms : List (String × Json)) =>
    (Entries.keys ms).Nodup ∧ ∀ e ∈ ms, Json.IsPlain e.2
  | .list item, (xs : List item.Value) => ∀ x ∈ xs, item.Exact x
  | .record _ fields, x => fields.Exact x
  | .text, _ | .integer, _ | .flag, _ | .choice _, _ => True

def Fields.Exact : (f : Fields) → f.Record → Prop
  | .nil, _ => True
  | .cons _ shape rest, (x, more) => (∀ y ∈ x, shape.Exact y) ∧ rest.Exact more

end

theorem Shape.isFinite_of_exact {s : Shape} {x : s.Value} (hx : s.Exact x) : s.IsFinite x := by
  cases s with
  | double => exact hx
  | text | integer | flag | instant | anything | members | choice c | list item
  | record label fields => trivial

namespace Fields

section Cons

variable {row : Row} {shape : Shape} {rest : Fields}

theorem assign_of_ne {key : String} (h : row.localName ≠ key) (x : Option shape.Value)
    (more : rest.Record) (v : Json) : (Fields.cons row shape rest).assign (x, more) key v =
      (rest.assign more key v).map fun more ↦ (x, more) :=
  if_neg h

theorem assign_self {v : Json} {y : shape.Value} (hv : v ≠ .null) (hy : shape.ofJson v = .ok y)
    (x : Option shape.Value) (more : rest.Record) :
    (Fields.cons row shape rest).assign (x, more) row.localName v = .ok (some y, more) := by
  refine (if_pos rfl).trans ((if_neg hv).trans ?_)
  rw [hy]
  rfl

/-- A member that has no entry among those to come keeps its value. -/
theorem assignAll_of_ne (shape : Shape) {entries : List (String × Json)}
    (h : ∀ e ∈ entries, row.localName ≠ e.1) (x : Option shape.Value) (more : rest.Record) :
    (Fields.cons row shape rest).assignAll entries (x, more) =
      (rest.assignAll entries more).map fun more ↦ (x, more) := by
  induction entries generalizing more with
  | nil => rfl
  | cons e es ih =>
    obtain ⟨he, hes⟩ := List.forall_mem_cons.1 h
    refine (assignAll_cons (.cons row shape rest) e es (x, more)).trans ?_
    rw [assign_of_ne he, assignAll_cons]
    cases rest.assign more e.1 e.2 with
    | error m => rfl
    | ok more => exact ih hes more

theorem assignAll_cons_self {v : Json} {y : shape.Value} (hv : v ≠ .null)
    (hy : shape.ofJson v = .ok y) {entries : List (String × Json)}
    (h : ∀ e ∈ entries, row.localName ≠ e.1) (x : Option shape.Value) (more : rest.Record) :
    (Fields.cons row shape rest).assignAll ((row.localName, v) :: entries) (x, more) =
      (rest.assignAll entries more).map fun more ↦ (some y, more) := by
  refine (assignAll_cons (.cons row shape rest) _ entries (x, more)).trans ?_
  refine (congrArg (Except.bind · _) (assign_self hv hy x more)).trans ?_
  exact assignAll_of_ne shape h (some y) more

end Cons

theorem localName_ne_of_mem {row : Row} {fields : Fields}
    (h : row.localName ∉ fields.rows.map Row.localName) (x : fields.Record) (v : Row → Json → Json) :
    ∀ e ∈ (fields.entries x).map fun e ↦ (e.1.localName, v e.1 e.2), row.localName ≠ e.1 := by
  intro e he heq
  obtain ⟨e, hmem, rfl⟩ := List.mem_map.1 he
  have hrow := (fields.map_entries_sublist x).subset (List.mem_map_of_mem hmem)
  exact h (heq ▸ List.mem_map_of_mem hrow)

end Fields

namespace Shape

theorem ofJson_integer_of_some {lexeme : String} {n : Int64} (h : Number.int64? lexeme = some n) :
    Shape.integer.ofJson (.number lexeme) = .ok n := by
  change (Number.int64? lexeme).elim (Except.error Mismatch.number) Except.ok = Except.ok n
  rw [h]
  rfl

theorem ofJson_double_of_some {lexeme : String} {x : Number.Double}
    (h : Number.Double.ofLexeme? lexeme = some x) :
    Shape.double.ofJson (.number lexeme) = .ok x := by
  change (Number.Double.ofLexeme? lexeme).elim (Except.error Mismatch.number) Except.ok =
    Except.ok x
  rw [h]
  rfl

theorem ofJson_instant_of_ok {s : String} {i : Instant} (h : Instant.read s = .ok i) :
    Shape.instant.ofJson (.string s) = .ok i := by
  change (Instant.read s).mapError Mismatch.instant = Except.ok i
  rw [h]
  rfl

end Shape

section Returned

open Registry

variable {r : Registry}

mutual

/-- A value that has been to the wire and back is read as it was. -/
theorem Shape.ofJson_returned (hr : r.WellFormed) : ∀ (s : Shape) {d : Descriptor}, s.fits r d →
    ∀ x : s.Value, s.Exact x → s.EveryMember Shape.NotNull x →
    s.ofJson (r.returned d (s.toJson x)) = .ok x
  | .text, d, hd, (x : String), _, _ => by
    have hback : r.returned d (.string x) = .string x := returned_string (of_decide_eq_true hd) x
    change Shape.text.ofJson (r.returned d (.string x)) = _
    rw [hback]
    rfl
  | .integer, d, _, (n : Int64), _, _ => by
    have hread := Number.int64?_intText n
    change Shape.integer.ofJson (r.returned d (.number _)) = _
    rw [returned_number]
    exact Shape.ofJson_integer_of_some hread
  | .double, d, _, (x : Number.Double), hx, _ => by
    have hfinite : Number.Double.toJson x = .number (Number.Double.text x) := if_neg hx
    change Shape.double.ofJson (r.returned d (Number.Double.toJson x)) = _
    rw [hfinite, returned_number]
    exact Shape.ofJson_double_of_some x.ofLexeme?_text
  | .flag, d, _, (b : Bool), _, _ => by
    change Shape.flag.ofJson (r.returned d (.boolean b)) = _
    rw [returned_boolean]
    rfl
  | .instant, d, hd, (i : Instant), hx, _ => by
    obtain ⟨hi, hreg⟩ : i.Settled ∧ i.Regular := hx
    change Shape.instant.ofJson (r.returned d (.string i.exactText)) = _
    rw [returned_date (of_decide_eq_true hd) hreg hi.2]
    have hread := i.read_text hreg hi.2
    rw [Instant.truncate_eq_self_iff.2 hi.1] at hread
    exact Shape.ofJson_instant_of_ok hread
  | .anything, d, hd, (v : Json), hx, _ => by
    obtain ⟨p, hp⟩ := fits_anything_iff.1 hd
    obtain ⟨hn, hm, hu⟩ : v.IsPlain := hx
    change (r.returned d v).respell = _
    rw [returned_primitive hp hn]
    exact Json.respell_eq_self hm hu
  | .members, d, hd, (ms : List (String × Json)), hx, _ => by
    obtain ⟨e, p, he, hp⟩ := fits_members_iff.1 hd
    obtain ⟨hk, hplain⟩ : (Entries.keys ms).Nodup ∧ ∀ e ∈ ms, e.2.IsPlain := hx
    have hn : (Json.object ms).NoRepeats :=
      Json.noRepeats_object.2 ⟨hk, fun e hmem ↦ (hplain e hmem).1⟩
    change Shape.members.ofJson (r.returned d (.object ms)) = _
    rw [returned_map_primitive he hp hn]
    -- the keys of the map itself are not looked at for a mark
    exact Json.respellMembers_eq_self fun e hmem ↦
      Json.respell_eq_self (hplain e hmem).2.1 (hplain e hmem).2.2
  | .choice c, d, hd, (x : { s : String // s ∈ c.literals }), _, _ => by
    have hback : r.returned d (.string x.val) = .string x.val :=
      returned_string (of_decide_eq_true hd) x.val
    change (Shape.choice c).ofJson (r.returned d (.string x.val)) = _
    rw [hback]
    exact dif_pos x.property
  | .list item, d, hd, (xs : List item.Value), hx, hn => by
    obtain ⟨e, he, hitem⟩ := fits_list_iff.1 hd
    change (Shape.list item).ofJson (r.returned d (.array (xs.map item.toJson))) = _
    rw [returned_array he, List.map_map]
    exact mapM_map_of_ok fun x hmem ↦ item.ofJson_returned hr hitem x (hx x hmem) (hn x hmem)
  | .record label fields, d, hd, (x : fields.Record), hx, hn => by
    obtain ⟨name, hname, ht, hf⟩ := fits_record_iff.1 hd
    have hl : (fields.rows.map Row.localName).Nodup := hr.nodup_locals _ (mem_tables ht)
    change (Shape.record label fields).ofJson (r.returned d (.object (fields.toMembers x))) = _
    rw [returned_record hr hname ht]
    exact fields.assignAll_returned hr hf hl x hx hn

theorem Fields.assignAll_returned (hr : r.WellFormed) : ∀ f : Fields, f.fits r →
    (f.rows.map Row.localName).Nodup → ∀ x : f.Record, f.Exact x →
    f.EveryMember Shape.NotNull x → f.assignAll
      ((f.entries x).map fun e ↦ (e.1.localName, r.returned e.1.type e.2)) f.blank = .ok x
  | .nil, _, _, (), _, _ => rfl
  | .cons row shape rest, hf, hl, (none, more), hx, hn => by
    obtain ⟨-, hrest⟩ := Bool.and_eq_true_iff.1 hf
    obtain ⟨hrow, hrows⟩ := List.nodup_cons.1 hl
    have hmore := rest.assignAll_returned hr hrest hrows more hx.2 hn.2
    have hothers := Fields.localName_ne_of_mem hrow more fun row v ↦ r.returned row.type v
    have hpass := Fields.assignAll_of_ne shape hothers none rest.blank
    rw [hmore] at hpass
    exact hpass
  | .cons row shape rest, hf, hl, (some x, more), hx, hn => by
    obtain ⟨hshape, hrest⟩ := Bool.and_eq_true_iff.1 hf
    obtain ⟨hrow, hrows⟩ := List.nodup_cons.1 hl
    have hexact := hx.1 x rfl
    obtain ⟨hfree, hdeep⟩ := hn.1 x rfl
    have hmore := rest.assignAll_returned hr hrest hrows more hx.2 hn.2
    have hfirst := shape.ofJson_returned hr hshape x hexact hdeep
    -- a null would be read as an absent member
    have hnull : r.returned row.type (shape.toJson x) ≠ .null := by
      rw [ne_eq, returned_eq_null_iff]
      exact Shape.toJson_ne_null_iff.2 ⟨hfree, Shape.isFinite_of_exact hexact⟩
    have hothers := Fields.localName_ne_of_mem hrow more fun row v ↦ r.returned row.type v
    have hset := Fields.assignAll_cons_self hnull hfirst hothers none rest.blank
    rw [hmore] at hset
    exact hset

end

end Returned

/-- What a record becomes on the way to the wire and back is what its wire value is read from. -/
theorem Registry.decode_of_returned {r : Registry} {s : Schema} (hs : s.shape.fits r (.named s.name))
    {x y : s.Record} (h : s.ofJson (r.returned (.named s.name) (s.toJson x)) = .ok y) :
    ∃ w, r.encode s x = .ok w ∧ r.decode s w = .ok y := by
  refine ⟨_, Registry.encode_eq hs x, ?_⟩
  rw [Registry.decode_eq hs, ← Registry.returned, h]
  rfl

/-- Every record of the two interfaces comes back from the wire, when its parts can be written
exactly and no free member is null. -/
theorem Catalog.decode_encode : ∀ c ∈ Catalog.interfaces, ∀ s ∈ c.schemas, ∀ x : s.Record,
    s.fields.Exact x → s.fields.EveryMember Shape.NotNull x →
    ∃ w, c.registry.encode s x = .ok w ∧ c.registry.decode s w = .ok x := by
  intro c hc s hs x hx hn
  have hr := wellFormed_of_mem_interfaces hc
  have hfits := fits_of_mem_interfaces hc s hs
  exact Registry.decode_of_returned hfits (s.shape.ofJson_returned hr hfits x hx hn)

namespace Checkout

def lampExpiry : Instant :=
  ⟨1700000000, 123000000, by decide, by decide, by decide⟩

def lamp : product.Record :=
  let amount : price.Record := (some (Number.Double.ofDecimal ⟨false, 45, -1⟩), some "EUR", ())
  (some (7 : Int64), some "Lamp", none, some amount, none, some [Json.null, .number "12"],
    some lampExpiry, some (.object [("size", .number "-3"), ("note", .null)]), none, some [], ())

theorem exact_lamp : product.fields.Exact lamp := by
  have h12 : Number.IsUsual "12" := ⟨12, by decide⟩
  have h3 : Number.IsUsual "-3" := ⟨-3, by decide⟩
  refine ⟨?_, ?_, ?_, ?_, ?_, ?_, ?_, ?_, ?_, ?_, trivial⟩
  · exact fun _ _ ↦ trivial
  · exact fun _ _ ↦ trivial
  · exact nofun
  · rintro _ ⟨⟩
    refine ⟨?_, fun _ _ ↦ trivial, trivial⟩
    rintro _ ⟨⟩
    change ¬ Number.Double.isInfinite _
    decide +kernel
  · exact nofun
  · rintro _ ⟨⟩
    refine List.forall_mem_cons.2
      ⟨⟨Json.noRepeats_null, Json.noMarks_null, Json.everyNumber_null⟩, ?_⟩
    refine List.forall_mem_singleton.2 ⟨Json.noRepeats_number _, Json.noMarks_number _, ?_⟩
    exact Json.everyNumber_number.2 h12
  · rintro _ ⟨⟩
    change Instant.Settled lampExpiry ∧ Instant.Regular lampExpiry
    decide +kernel
  · rintro _ ⟨⟩
    refine ⟨?_, ?_, ?_⟩
    · simp [Entries.keys]
    · simp [Json.isMarked, Json.numberMark]
    · simpa using h3
  · exact nofun
  · rintro _ ⟨⟩
    exact nofun

theorem notNull_lamp : product.fields.EveryMember Shape.NotNull lamp := by
  refine ⟨?_, ?_, ?_, ?_, ?_, ?_, ?_, ?_, ?_, ?_, trivial⟩
  · exact fun _ _ ↦ ⟨trivial, trivial⟩
  · exact fun _ _ ↦ ⟨trivial, trivial⟩
  · exact nofun
  · rintro _ ⟨⟩
    exact ⟨trivial, fun _ _ ↦ ⟨trivial, trivial⟩, fun _ _ ↦ ⟨trivial, trivial⟩, trivial⟩
  · exact nofun
  · rintro _ ⟨⟩
    exact ⟨trivial, fun _ _ ↦ trivial⟩
  · exact fun _ _ ↦ ⟨trivial, trivial⟩
  · rintro _ ⟨⟩
    exact ⟨nofun, trivial⟩
  · exact nofun
  · rintro _ ⟨⟩
    exact ⟨trivial, nofun⟩

end Checkout

theorem Catalog.decode_encode_lamp : Checkout.catalog ∈ Catalog.interfaces ∧
    Checkout.product ∈ Checkout.catalog.schemas ∧ Checkout.product.fields.Exact Checkout.lamp ∧
    Checkout.product.fields.EveryMember Shape.NotNull Checkout.lamp ∧
    ∃ w, Checkout.catalog.registry.encode Checkout.product Checkout.lamp = .ok w ∧
      Checkout.catalog.registry.decode Checkout.product w = .ok Checkout.lamp := by
  have hc : Checkout.catalog ∈ Catalog.interfaces := by simp [Catalog.interfaces]
  have hs : Checkout.product ∈ Checkout.catalog.schemas := by simp [Checkout.catalog]
  exact ⟨hc, hs, Checkout.exact_lamp, Checkout.notNull_lamp, Catalog.decode_encode _ hc _ hs
    Checkout.lamp Checkout.exact_lamp Checkout.notNull_lamp⟩

namespace Checkout

def markedValue : Json :=
  .object [("size", .object [(Json.numberMark, .string "5")])]

def freeProduct (v : Json) : product.Record :=
  (none, none, none, none, none, none, none, some v, none, none, ())

def expiringProduct (i : Instant) : product.Record :=
  (none, none, none, none, none, none, some i, none, none, none, ())

theorem freeProduct_inj {v w : Json} (h : freeProduct v = freeProduct w) : v = w := by
  cases h
  rfl

theorem expiringProduct_inj {i j : Instant} (h : expiringProduct i = expiringProduct j) : i = j := by
  cases h
  rfl

/-- A marked object comes back as a number, and a leap second inside a minute as the next second. -/
theorem decode_encode_changes :
    (markedValue ≠ .null ∧ markedValue.NoRepeats ∧ markedValue.EveryNumber Number.IsUsual ∧
      ∃ w y, catalog.registry.encode product (freeProduct markedValue) = .ok w ∧
        catalog.registry.decode product w = .ok y ∧ y ≠ freeProduct markedValue) ∧
    (Instant.early.Settled ∧
      ∃ w y, catalog.registry.encode product (expiringProduct Instant.early) = .ok w ∧
        catalog.registry.decode product w = .ok y ∧ y ≠ expiringProduct Instant.early) := by
  have hs : product ∈ catalog.schemas := by simp [catalog]
  have hfits := Catalog.fits_of_mem_interfaces List.mem_cons_self product hs
  constructor
  · have hback : catalog.registry.returned (.named product.name)
        (product.toJson (freeProduct markedValue)) = .object [("custom", markedValue)] := by
      decide +kernel
    have hread : product.ofJson (.object [("custom", markedValue)]) =
        .ok (freeProduct (.object [("size", .number "5")])) := by
      rfl
    obtain ⟨w, hw, hy⟩ := Registry.decode_of_returned hfits (hback ▸ hread)
    exact ⟨nofun, by simp [markedValue, Entries.keys], by simp [markedValue], w, _, hw, hy,
      fun h ↦ absurd (freeProduct_inj h) (by decide)⟩
  · have hback : catalog.registry.returned (.named product.name)
        (product.toJson (expiringProduct Instant.early)) =
          .object [("expiresAt", .string "1970-01-01T00:00:01.500Z")] := by
      decide +kernel
    have hread : product.ofJson (.object [("expiresAt", .string "1970-01-01T00:00:01.500Z")]) =
        .ok (expiringProduct ⟨1, 500000000, by decide, by decide, by decide⟩) := by
      rfl
    obtain ⟨w, hw, hy⟩ := Registry.decode_of_returned hfits (hback ▸ hread)
    exact ⟨by decide +kernel, w, _, hw, hy, fun h ↦ absurd (expiringProduct_inj h) (by decide)⟩

end Checkout

end Storefront
