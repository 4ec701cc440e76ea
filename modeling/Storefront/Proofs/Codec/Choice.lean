import Storefront.Proofs.Codec.WellFormed
import Storefront.Proofs.Model.Conversion

namespace Storefront.Registry

def tagged? (r : Registry) (value : String) : Option Table :=
  if value = "" then none else r.table? value

def HasTag (r : Registry) (tag : String) : Prop :=
  ∀ e ∈ r.tables, ∃ row ∈ e.2.rows, row.wire = tag ∧ ∃ p ∈ Primitive.all, row.type = .primitive p

instance (r : Registry) (tag : String) : Decidable (r.HasTag tag) :=
  inferInstanceAs (Decidable (∀ e ∈ r.tables, ∃ row ∈ e.2.rows,
    row.wire = tag ∧ ∃ p ∈ Primitive.all, row.type = .primitive p))

/-- The name of the choosing member is not lost on the way into the domain. In the table of another
type it belongs to that member on both sides; in the declared table it belongs to no other member,
but for one that holds a date, which names no type. -/
def KeepsTag (r : Registry) (declared : Table) (tag : String) : Prop :=
  ∀ value other, r.tagged? value = some other → other ≠ declared →
    (∃ row ∈ other.rows, row.wire = tag ∧ row.localName = tag) ∧
    ∀ row ∈ declared.rows, row.localName = tag →
      row.wire = tag ∨ row.type.bare = .date ∧ (Instant.parse? value).isSome

variable {r : Registry} {name tag : String} {t u : Table} {tag? : String → Option String}

theorem nodup_of_tagged? (hr : r.Distinct) {value : String} (hu : r.tagged? value = some u) :
    (u.rows.map Row.wire).Nodup ∧ (u.rows.map Row.localName).Nodup := by
  rw [tagged?] at hu
  split at hu
  · cases hu
  · exact ⟨hr.nodup_wires _ (mem_tables hu), hr.nodup_locals _ (mem_tables hu)⟩

theorem chosen?_of_reserved (hn : (Primitive.ofName? name).isSome ∨ name = "Date")
    (ht : r.table? name = some t) : r.chosen? tag? name = some t := by
  have hc : r.contains name := by simp [contains, ht]
  rw [chosen?, if_pos hc, resolve, if_pos]
  · exact ht
  · simp only [Bool.or_eq_true, decide_eq_true_eq]
    exact .inl hn

theorem chosen?_of_tagged (hr : r.Distinct)
    (hn : ¬ ((Primitive.ofName? name).isSome ∨ name = "Date"))
    (ht : r.table? name = some t) (hd : t.discriminator = some tag) :
    r.chosen? tag? name = some (((tag? tag).bind r.tagged?).getD t) := by
  have hc : r.contains name := by simp [contains, ht]
  have hopen : ¬ ((Primitive.ofName? name).isSome || name = "Date" || r.isChoice name) := by
    simpa [hr.isChoice_eq_false hc] using hn
  rw [chosen?, if_pos hc, resolve, if_neg hopen, ht]
  simp only [hd, Option.bind_some]
  cases tag? tag with
  | none => exact ht
  | some value =>
    simp only [Option.bind_some, tagged?]
    by_cases he : value = ""
    · simpa [he] using ht
    · cases hu : r.table? value with
      | none => simpa [he, contains, hu] using ht
      | some u => simp [he, contains, hu]

theorem asString?_toModel_eq_some_iff {v : Json} {d : Descriptor} {s : String} :
    (r.toModel v d).asString? = some s ↔
      v = .string s ∧ ¬ (d.bare = .date ∧ (Instant.parse? s).isSome) := by
  cases v with
  | null | boolean b | number lexeme => exact iff_of_false nofun nofun
  | string text =>
    by_cases h : d.bare = .date
    · rw [toModel_date h, Model.ofDateText]
      cases hs : Instant.parse? text with
      | some i =>
        refine iff_of_false nofun ?_
        rintro ⟨⟨⟩, hd⟩
        exact hd ⟨h, by rw [hs]; rfl⟩
      | none =>
        simp only [Model.asString?, Option.some.injEq, Json.string.injEq]
        refine ⟨?_, And.left⟩
        rintro rfl
        simp [hs]
    · simp [toModel_string h, Model.asString?, h]
  | array items =>
    rcases d.array_cases with ⟨e, h⟩ | h
    · rw [toModel_array h]
      exact iff_of_false nofun nofun
    · rw [toModel_keptArray h, Model.ofJson_array]
      exact iff_of_false nofun nofun
  | object members =>
    rcases d.object_cases (r.wireTable? (.object members)) with ⟨e, h⟩ | ⟨other, u, h, hu⟩ | h
    · rw [toModel_map h]
      exact iff_of_false nofun nofun
    · rw [toModel_table h hu]
      exact iff_of_false nofun nofun
    · rw [toModel_keptObject h, Model.ofJson_object]
      exact iff_of_false nofun nofun

section Return

variable {members : List (String × Json)}

/-- What the domain value of an object answers to a name: the text of the one row that has the name
there, if the table by which the object was read has such a row. -/
theorem tag?_toModel_eq_some_iff {s : String} (hu : r.wireTable? (.object members) name = some u)
    (hl : (u.rows.map Row.localName).Nodup) :
    (r.toModel (.object members) (.named name)).tag? tag = some s ↔
      ∃ row ∈ u.rows, row.localName = tag ∧ Entries.find? row.wire members = some (.string s) ∧
        ¬ (row.type.bare = .date ∧ (Instant.parse? s).isSome) := by
  rw [toModel_table rfl hu, Model.tag?, Option.bind_eq_some_iff]
  constructor
  · intro h
    obtain ⟨m, hm, hs⟩ := h
    obtain ⟨row, hrow, hk, hv⟩ := Entries.mem_gather.1 (Entries.mem_of_find? hm)
    obtain ⟨v, hf, rfl⟩ := Option.map_eq_some_iff.1 hv
    obtain ⟨rfl, hd⟩ := asString?_toModel_eq_some_iff.1 hs
    exact ⟨row, hrow, hk, hf, hd⟩
  · intro h
    obtain ⟨row, hrow, rfl, hf, hd⟩ := h
    refine ⟨r.toModel (.string s) row.type, ?_, asString?_toModel_eq_some_iff.2 ⟨rfl, hd⟩⟩
    exact (Entries.find?_gather hl _ hrow).trans (by rw [hf]; rfl)

variable (hr : r.Distinct) (ht : r.table? name = some t) (hd : t.discriminator = some tag)
  (hn : ¬ ((Primitive.ofName? name).isSome ∨ name = "Date"))
include hr ht hd hn

theorem wireTable?_of_tagged (members : List (String × Json)) :
    r.wireTable? (.object members) name =
      some ((((Json.object members).tag? tag).bind r.tagged?).getD t) := by
  rw [hr.wireTable?_eq, chosen?_of_tagged hr hn ht hd]

theorem modelTable?_of_tagged (m : Model) :
    r.modelTable? m name = some (((m.tag? tag).bind r.tagged?).getD t) := by
  rw [hr.modelTable?_eq, chosen?_of_tagged hr hn ht hd]

theorem modelTable?_of_keepsTag (htag : r.HasTag tag) (h : r.KeepsTag t tag)
    (members : List (String × Json)) :
    r.modelTable? (r.toModel (.object members) (.named name)) name =
      r.wireTable? (.object members) name := by
  have hwire := wireTable?_of_tagged hr ht hd hn members
  obtain ⟨u, hu⟩ : ∃ u, (((Json.object members).tag? tag).bind r.tagged?).getD t = u := ⟨_, rfl⟩
  rw [hu] at hwire
  rw [hwire, modelTable?_of_tagged hr ht hd hn]
  obtain ⟨actual, hmem⟩ := mem_tables_of_wireTable? hwire
  have hl := hr.nodup_locals _ hmem
  apply congrArg
  by_cases hut : u = t
  · -- the declared table was kept, and no other member may take over the choice
    subst hut
    cases hb : ((r.toModel (.object members) (.named name)).tag? tag).bind r.tagged? with
    | none => rfl
    | some other =>
      by_contra hne
      obtain ⟨value, hvalue, hother⟩ := Option.bind_eq_some_iff.1 hb
      obtain ⟨row, hrow, hk, hf, hdate⟩ := (tag?_toModel_eq_some_iff hwire hl).1 hvalue
      rcases (h value other hother hne).2 row hrow hk with hw | hw
      · rw [hw] at hf
        have hv : (Json.object members).tag? tag = some value := by
          simp [Json.tag?, Json.get?, hf, Json.asString?]
        rw [hv, Option.bind_some, hother] at hu
        exact hne hu
      · exact hdate hw
  · -- another table was chosen, and it has the choosing member under the same name
    obtain ⟨value, hvalue, htagged⟩ : ∃ value,
        (Json.object members).tag? tag = some value ∧ r.tagged? value = some u := by
      cases hb : ((Json.object members).tag? tag).bind r.tagged? with
      | none =>
        rw [hb] at hu
        exact absurd hu.symm hut
      | some other =>
        rw [hb] at hu
        obtain ⟨value, hvalue, hother⟩ := Option.bind_eq_some_iff.1 hb
        exact ⟨value, hvalue, hother.trans (congrArg some hu)⟩
    obtain ⟨row, hrow, hw, hk⟩ := (h value u htagged hut).1
    obtain ⟨row', hrow', hw', p, -, hp⟩ := htag _ hmem
    obtain rfl : row = row' :=
      List.inj_on_of_nodup_map (hr.nodup_wires _ hmem) hrow hrow' (hw.trans hw'.symm)
    have hf : Entries.find? row.wire members = some (.string value) := by
      rw [hw]
      obtain ⟨v, hv, hs⟩ := Option.bind_eq_some_iff.1 hvalue
      cases v with
      | string s =>
        cases hs
        exact hv
      | null | boolean | number | array | object => cases hs
    have hback : (r.toModel (.object members) (.named name)).tag? tag = some value := by
      refine (tag?_toModel_eq_some_iff hwire hl).2 ⟨row, hrow, hk, hf, ?_⟩
      rw [hp]
      exact nofun
    rw [hback, Option.bind_some, htagged]
    rfl

/-- An object with one member is enough to see that a choice is lost. -/
theorem keepsTag_of_modelTable? (h : ∀ members, (Json.object members).NoRepeats →
      r.modelTable? (r.toModel (.object members) (.named name)) name =
        r.wireTable? (.object members) name) : r.KeepsTag t tag := by
  have hone : ∀ key value, (Json.object [(key, .string value)]).NoRepeats := by
    intro key value
    simp [Entries.keys]
  intro value other hother hne
  constructor
  · have hv : (Json.object [(tag, .string value)]).tag? tag = some value := by
      simp [Json.tag?, Json.get?, Entries.find?, Json.asString?]
    have hwire := wireTable?_of_tagged hr ht hd hn [(tag, .string value)]
    rw [hv, Option.bind_some, hother] at hwire
    have hback := h _ (hone tag value)
    rw [hwire, modelTable?_of_tagged hr ht hd hn, Option.some.injEq] at hback
    cases hm : (r.toModel (.object [(tag, .string value)]) (.named name)).tag? tag with
    | none =>
      rw [hm] at hback
      exact absurd hback.symm hne
    | some s =>
      have hl := (nodup_of_tagged? hr hother).2
      obtain ⟨row, hrow, hk, hf, -⟩ := (tag?_toModel_eq_some_iff hwire hl).1 hm
      refine ⟨row, hrow, ?_, hk⟩
      by_contra hw
      simp [Entries.find?, Ne.symm hw] at hf
  · intro row hrow hk
    by_contra hlost
    rw [not_or] at hlost
    have hv : (Json.object [(row.wire, .string value)]).tag? tag = none := by
      simp [Json.tag?, Json.get?, Entries.find?, hlost.1]
    have hwire := wireTable?_of_tagged hr ht hd hn [(row.wire, .string value)]
    rw [hv] at hwire
    have hback := h _ (hone row.wire value)
    have hm : (r.toModel (.object [(row.wire, .string value)]) (.named name)).tag? tag =
        some value := by
      refine (tag?_toModel_eq_some_iff hwire (hr.nodup_locals _ (mem_tables ht))).2 ?_
      exact ⟨row, hrow, hk, by simp [Entries.find?], hlost.2⟩
    rw [hwire, modelTable?_of_tagged hr ht hd hn, hm, Option.bind_some, hother] at hback
    exact hne (Option.some.inj hback)

end Return

/-- Every object of a declared type is written by the table by which it was read, exactly when the
choosing member keeps its name. -/
theorem modelTable?_toModel_eq_iff (hr : r.Distinct) (ht : r.table? name = some t)
    (hd : t.discriminator = some tag) (htag : r.HasTag tag) :
    (∀ members, (Json.object members).NoRepeats →
      r.modelTable? (r.toModel (.object members) (.named name)) name =
        r.wireTable? (.object members) name) ↔
      ((Primitive.ofName? name).isSome ∨ name = "Date") ∨ r.KeepsTag t tag := by
  by_cases hn : (Primitive.ofName? name).isSome ∨ name = "Date"
  · refine iff_of_true ?_ (.inl hn)
    intro members _
    rw [hr.modelTable?_eq, hr.wireTable?_eq, chosen?_of_reserved hn ht, chosen?_of_reserved hn ht]
  · constructor
    · exact fun h ↦ .inr (keepsTag_of_modelTable? hr ht hd hn h)
    · intro h members _
      exact modelTable?_of_keepsTag hr ht hd hn htag (h.resolve_left hn) members

theorem WellFormed.hasTag (hr : r.WellFormed) (ht : r.table? name = some t)
    (hd : t.discriminator = some tag) : r.HasTag tag := by
  intro e he
  obtain ⟨p, hp, hrow⟩ := hr.tag_row _ (mem_tables ht) tag hd e he
  exact ⟨_, hrow, rfl, p, hp, rfl⟩

theorem WellFormed.keepsTag (hr : r.WellFormed) (ht : r.table? name = some t)
    (hd : t.discriminator = some tag) : r.KeepsTag t tag := by
  have hrow : ∀ e ∈ r.tables, ∃ p, (⟨tag, tag, .primitive p⟩ : Row) ∈ e.2.rows := by
    intro e he
    obtain ⟨p, -, hrow⟩ := hr.tag_row _ (mem_tables ht) tag hd e he
    exact ⟨p, hrow⟩
  intro value other hother _
  constructor
  · rw [tagged?] at hother
    split at hother
    · cases hother
    · obtain ⟨p, hp⟩ := hrow _ (mem_tables hother)
      exact ⟨_, hp, rfl, rfl⟩
  · intro row hmem hk
    obtain ⟨p, hp⟩ := hrow _ (mem_tables ht)
    have hl := hr.nodup_locals _ (mem_tables ht)
    rw [List.inj_on_of_nodup_map hl hmem hp hk]
    exact .inl rfl

theorem modelTable?_toModel_linked : linked.Distinct ∧ linked.table? "Node" = some nodeTable ∧
    nodeTable.discriminator = some "kind" ∧ linked.HasTag "kind" ∧
    ∀ members, (Json.object members).NoRepeats →
      linked.modelTable? (linked.toModel (.object members) (.named "Node")) "Node" =
        linked.wireTable? (.object members) "Node" := by
  have ht : linked.table? "Node" = some nodeTable := by decide +kernel
  have htag := wellFormed_linked.hasTag ht rfl
  refine ⟨wellFormed_linked.distinct, ht, rfl, htag, ?_⟩
  exact (modelTable?_toModel_eq_iff wellFormed_linked.distinct ht rfl htag).2
    (.inr (wellFormed_linked.keepsTag ht rfl))

def animalTable : Table where
  discriminator := some "kind"
  rows := [⟨"kind", "animalKind", .primitive .string⟩]

def dogTable : Table where
  discriminator := none
  rows := [⟨"kind", "animalKind", .primitive .string⟩, ⟨"good_boy", "goodBoy", .primitive .boolean⟩]

def zoo : Registry :=
  (Registry.empty.addTable "Animal" animalTable).addTable "Dog" dogTable

def rex : Json :=
  .object [("kind", .string "Dog"), ("good_boy", .boolean true)]

/-- The dog is read as a dog and written as an animal, without its own member. -/
theorem dog_written_as_animal : zoo.Distinct ∧ zoo.table? "Animal" = some animalTable ∧
    animalTable.discriminator = some "kind" ∧ zoo.HasTag "kind" ∧
    zoo.wireTable? rex "Animal" = some dogTable ∧
    zoo.modelTable? (zoo.toModel rex (.named "Animal")) "Animal" = some animalTable ∧
    zoo.toWire (zoo.toModel rex (.named "Animal")) (.named "Animal") =
      .object [("kind", .string "Dog")] := by
  decide +kernel

end Storefront.Registry
