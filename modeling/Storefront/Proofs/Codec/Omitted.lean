import Storefront.Proofs.Codec.WellFormed

namespace Storefront.Registry

mutual

/-- The second wire value is the first with some null members left out of the objects that a table
takes apart, at any depth that is reached through rows and arrays. Under a map and in values that
are kept as they are nothing is left out. -/
inductive Omits (r : Registry) : Descriptor → Json → Json → Prop
  | refl (d : Descriptor) (v : Json) : Omits r d v v
  | nullable {d : Descriptor} {v w : Json} : Omits r d v w → Omits r (.nullable d) v w
  | optional {d : Descriptor} {v w : Json} : Omits r d v w → Omits r (.optional d) v w
  | array {d : Descriptor} {vs ws : List Json} : OmitsItems r d vs ws →
      Omits r (.array d) (.array vs) (.array ws)
  | composite {name : String} {t : Table} {ms ns : List (String × Json)} :
      r.wireTable? (.object ms) name = some t → OmitsMembers r t.rows ms ns →
      Omits r (.named name) (.object ms) (.object ns)

inductive OmitsItems (r : Registry) : Descriptor → List Json → List Json → Prop
  | nil (d : Descriptor) : OmitsItems r d [] []
  | cons {d : Descriptor} {v w : Json} {vs ws : List Json} : Omits r d v w →
      OmitsItems r d vs ws → OmitsItems r d (v :: vs) (w :: ws)

/-- A null member may be left out whether or not it is declared; others are kept, and what is left
out inside them goes by their row. -/
inductive OmitsMembers (r : Registry) :
    List Row → List (String × Json) → List (String × Json) → Prop
  | nil (rows : List Row) : OmitsMembers r rows [] []
  | skip {rows : List Row} {ms ns : List (String × Json)} (key : String) :
      OmitsMembers r rows ms ns → OmitsMembers r rows ((key, .null) :: ms) ns
  | keep {rows : List Row} {ms ns : List (String × Json)} (e : String × Json) :
      OmitsMembers r rows ms ns → OmitsMembers r rows (e :: ms) (e :: ns)
  | inside {rows : List Row} {ms ns : List (String × Json)} {row : Row} {v w : Json} : row ∈ rows →
      Omits r row.type v w → OmitsMembers r rows ms ns →
      OmitsMembers r rows ((row.wire, v) :: ms) ((row.wire, w) :: ns)

end

variable {r : Registry} {d e : Descriptor} {v w : Json} {rows : List Row}
  {ms ns : List (String × Json)}

namespace Omits

/-- Where something may be left out: in the items of an array and in the members that a table
takes apart. -/
theorem cases (h : r.Omits d v w) : v = w ∨
    (∃ e vs ws, d.bare = .array e ∧ v = .array vs ∧ w = .array ws ∧ r.OmitsItems e vs ws) ∨
    ∃ name ms ns t, d.bare = .named name ∧ v = .object ms ∧ w = .object ns ∧
      r.wireTable? (.object ms) name = some t ∧ r.OmitsMembers t.rows ms ns := by
  induction d with
  | nullable d ih =>
    cases h with
    | refl => exact .inl rfl
    | nullable h => exact ih h
  | optional d ih =>
    cases h with
    | refl => exact .inl rfl
    | optional h => exact ih h
  | primitive | date | map =>
    cases h
    exact .inl rfl
  | array e =>
    cases h with
    | refl => exact .inl rfl
    | array hitems => exact .inr (.inl ⟨e, _, _, rfl, rfl, rfl, hitems⟩)
  | named name =>
    cases h with
    | refl => exact .inl rfl
    | composite ht hmembers => exact .inr (.inr ⟨name, _, _, _, rfl, rfl, rfl, ht, hmembers⟩)

theorem null_iff (h : r.Omits d v w) : v = .null ↔ w = .null := by
  rcases h.cases with rfl | ⟨-, -, -, -, rfl, rfl, -⟩ | ⟨-, -, -, -, -, rfl, rfl, -⟩
  · exact Iff.rfl
  · exact iff_of_false nofun nofun
  · exact iff_of_false nofun nofun

theorem array_cases (h : r.Omits d v w) (he : d.bare = .array e) :
    v = w ∨ ∃ vs ws, v = .array vs ∧ w = .array ws ∧ r.OmitsItems e vs ws := by
  rcases h.cases with hvw | ⟨e', vs, ws, hb, hv, hw, hitems⟩ | ⟨_, _, _, _, hb, -⟩
  · exact .inl hvw
  · cases he.symm.trans hb
    exact .inr ⟨vs, ws, hv, hw, hitems⟩
  · cases he.symm.trans hb

theorem composite_cases {name : String} (h : r.Omits d v w) (hn : d.bare = .named name) :
    v = w ∨ ∃ ms ns t, v = .object ms ∧ w = .object ns ∧ r.wireTable? (.object ms) name = some t ∧
      r.OmitsMembers t.rows ms ns := by
  rcases h.cases with hvw | ⟨_, _, _, hb, -⟩ | ⟨_, ms, ns, t, hb, hv, hw, ht, hmembers⟩
  · exact .inl hvw
  · cases hn.symm.trans hb
  · cases hn.symm.trans hb
    exact .inr ⟨ms, ns, t, hv, hw, ht, hmembers⟩

end Omits

namespace OmitsMembers

theorem keys_sublist (h : r.OmitsMembers rows ms ns) :
    (Entries.keys ns).Sublist (Entries.keys ms) := by
  induction ms generalizing ns with
  | nil =>
    cases h
    exact .slnil
  | cons e ms ih =>
    cases h with
    | skip key h => exact (ih h).cons key
    | keep e h => exact (ih h).cons_cons e.1
    | inside _ _ h => exact (ih h).cons_cons _

/-- Under the name of a row stands a null that has been left out, or on both sides the same but for
what is left out inside. -/
theorem find?_cases (h : r.OmitsMembers rows ms ns) (hn : (Entries.keys ms).Nodup)
    (hrows : (rows.map Row.wire).Nodup) {row : Row} (hrow : row ∈ rows) :
    (Entries.find? row.wire ms = some .null ∧ Entries.find? row.wire ns = none) ∨
      Option.Rel (r.Omits row.type) (Entries.find? row.wire ms) (Entries.find? row.wire ns) := by
  induction ms generalizing ns with
  | nil =>
    cases h
    exact .inr .none
  | cons e ms ih =>
    obtain ⟨hfirst, hothers⟩ := List.nodup_cons.1 hn
    cases h with
    | skip key h =>
      by_cases hk : key = row.wire
      · subst hk
        exact .inl ⟨if_pos rfl, Entries.find?_eq_none fun hmem ↦ hfirst (h.keys_sublist.subset hmem)⟩
      · rw [Entries.find?, if_neg hk]
        exact ih h hothers
    | keep e h =>
      by_cases hk : e.1 = row.wire
      · rw [Entries.find?, Entries.find?, if_pos hk, if_pos hk]
        exact .inr (.some (.refl _ _))
      · rw [Entries.find?, Entries.find?, if_neg hk, if_neg hk]
        exact ih h hothers
    | @inside _ _ _ other _ _ hother hv h =>
      by_cases hk : other.wire = row.wire
      · rw [Entries.find?, Entries.find?, if_pos hk, if_pos hk]
        rw [List.inj_on_of_nodup_map hrows hother hrow hk] at hv
        exact .inr (.some hv)
      · rw [Entries.find?, Entries.find?, if_neg hk, if_neg hk]
        exact ih h hothers

end OmitsMembers

end Storefront.Registry
