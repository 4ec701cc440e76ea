import Storefront.Proofs.Model.Within

namespace Storefront.Model

theorem ofItems_eq (items : List Json) : ofItems items = items.map ofJson := by
  induction items with
  | nil => rfl
  | cons v vs ih => exact congrArg (List.cons _) ih

theorem ofMembers_eq (members : List (String × Json)) :
    ofMembers members = members.map fun e ↦ (e.1, ofJson e.2) := by
  induction members with
  | nil => rfl
  | cons e es ih => exact congrArg (List.cons _) ih

theorem toItems_eq (items : List Model) : toItems items = items.map toJson := by
  induction items with
  | nil => rfl
  | cons m ms ih => exact congrArg (List.cons _) ih

theorem toMembers_eq (members : List (String × Model)) :
    toMembers members = members.map fun e ↦ (e.1, toJson e.2) := by
  induction members with
  | nil => rfl
  | cons e es ih => exact congrArg (List.cons _) ih

theorem ofJson_array (items : List Json) : ofJson (.array items) = .array (items.map ofJson) :=
  congrArg array (ofItems_eq items)

theorem ofJson_object (members : List (String × Json)) :
    ofJson (.object members) = .object (members.map fun e ↦ (e.1, ofJson e.2)) :=
  congrArg object (ofMembers_eq members)

theorem toJson_array (items : List Model) : toJson (.array items) = .array (items.map toJson) :=
  congrArg Json.array (toItems_eq items)

theorem toJson_object_ofList (members : List (String × Model)) : toJson (.object members) =
    .object (Entries.ofList (members.map fun e ↦ (e.1, toJson e.2))) :=
  congrArg (fun entries ↦ Json.object (Entries.ofList entries)) (toMembers_eq members)

theorem toJson_object {members : List (String × Model)} (h : (Entries.keys members).Nodup) :
    toJson (.object members) = .object (members.map fun e ↦ (e.1, toJson e.2)) := by
  rw [toJson_object_ofList, Entries.ofList_of_nodup (by rwa [Entries.keys_map])]

theorem toJson_ofJson {v : Json} (h : v.NoRepeats) : (ofJson v).toJson = v := by
  induction v using Json.induct with
  | null | boolean b | number lexeme | string s => rfl
  | array items ih =>
    have hi : ∀ v ∈ items, (ofJson v).toJson = v :=
      fun v hv ↦ ih v hv (Json.noRepeats_array.1 h v hv)
    rw [ofJson_array, toJson_array, List.map_map]
    exact congrArg _ (Entries.map_eq_self_iff.2 hi)
  | object members ih =>
    obtain ⟨hn, h⟩ := Json.noRepeats_object.1 h
    have hi : ∀ e ∈ members, (e.1, (ofJson e.2).toJson) = e :=
      fun e he ↦ by rw [ih e he (h e he)]
    rw [ofJson_object, toJson_object (by rwa [Entries.keys_map]), List.map_map]
    exact congrArg _ (Entries.map_eq_self_iff.2 hi)

theorem ofJson_toJson {m : Model} (hd : m.NoDates) (hr : m.NoRepeats) : ofJson m.toJson = m := by
  induction m using Model.induct with
  | null | boolean b | number lexeme | string s => rfl
  | date i => exact absurd (everyDate_date.1 hd) id
  | array items ih =>
    have hi : ∀ m ∈ items, ofJson m.toJson = m :=
      fun m hm ↦ ih m hm (everyDate_array.1 hd m hm) (noRepeats_array.1 hr m hm)
    rw [toJson_array, ofJson_array, List.map_map]
    exact congrArg _ (Entries.map_eq_self_iff.2 hi)
  | object members ih =>
    obtain ⟨hn, hr⟩ := noRepeats_object.1 hr
    have hi : ∀ e ∈ members, (e.1, ofJson e.2.toJson) = e :=
      fun e he ↦ by rw [ih e he (everyDate_object.1 hd e he) (hr e he)]
    rw [toJson_object hn, ofJson_object, List.map_map]
    exact congrArg _ (Entries.map_eq_self_iff.2 hi)

theorem noDates_ofJson (v : Json) : (ofJson v).NoDates := by
  induction v using Json.induct with
  | null | boolean b | number lexeme | string s => exact fun _ h ↦ nomatch h
  | array items ih =>
    rw [ofJson_array]
    exact everyDate_array.2 (List.forall_mem_map.2 ih)
  | object members ih =>
    rw [ofJson_object]
    exact everyDate_object.2 (List.forall_mem_map.2 ih)

theorem noRepeats_ofJson {v : Json} (h : v.NoRepeats) : (ofJson v).NoRepeats := by
  induction v using Json.induct with
  | null | boolean b | number lexeme | string s => exact fun _ h ↦ nomatch h
  | array items ih =>
    rw [ofJson_array]
    refine noRepeats_array.2 (List.forall_mem_map.2 ?_)
    exact fun v hv ↦ ih v hv (Json.noRepeats_array.1 h v hv)
  | object members ih =>
    obtain ⟨hn, h⟩ := Json.noRepeats_object.1 h
    rw [ofJson_object]
    refine noRepeats_object.2 ⟨by rwa [Entries.keys_map], List.forall_mem_map.2 ?_⟩
    exact fun e he ↦ ih e he (h e he)

/-- Repeated keys do not survive, however deep they are. -/
theorem noRepeats_toJson (m : Model) : m.toJson.NoRepeats := by
  induction m using Model.induct with
  | null | boolean b | number lexeme | string s | date i => exact fun _ h ↦ nomatch h
  | array items ih =>
    rw [toJson_array]
    exact Json.noRepeats_array.2 (List.forall_mem_map.2 ih)
  | object members ih =>
    rw [toJson_object_ofList]
    refine Json.noRepeats_object.2 ⟨Entries.nodup_keys_ofList _, fun e he ↦ ?_⟩
    obtain ⟨o, ho, rfl⟩ := List.mem_map.1 (Entries.mem_of_mem_ofList he)
    exact ih o ho

theorem toJson_ofJson_eq_self_iff {v : Json} : (ofJson v).toJson = v ↔ v.NoRepeats := by
  constructor
  · intro h
    rw [← h]
    exact noRepeats_toJson (ofJson v)
  · exact toJson_ofJson

/-- Whatever is read from JSON has no dates and no repeated keys, so a value that has either does
not come back. -/
theorem ofJson_toJson_eq_self_iff {m : Model} :
    ofJson m.toJson = m ↔ m.NoDates ∧ m.NoRepeats := by
  constructor
  · intro h
    rw [← h]
    exact ⟨noDates_ofJson m.toJson, noRepeats_ofJson (noRepeats_toJson m)⟩
  · exact fun h ↦ ofJson_toJson h.1 h.2

/-- JSON values come back from the domain side with the order of their members and the lexemes of
their numbers, but for those with a repeated key, which no text is read as. Domain values come back
from JSON exactly when no date and no repeated key is in them, at any depth. -/
theorem conversions_undone :
    (∀ v : Json, (ofJson v).toJson = v ↔ v.NoRepeats) ∧
      ∀ m : Model, ofJson m.toJson = m ↔ m.NoDates ∧ m.NoRepeats :=
  ⟨fun _ ↦ toJson_ofJson_eq_self_iff, fun _ ↦ ofJson_toJson_eq_self_iff⟩

end Storefront.Model
