import Mathlib.Data.List.Induction
import Mathlib.Data.List.Nodup
import Storefront.Entries

namespace Storefront.Entries

variable {α β ρ : Type}

theorem mem_of_find? {key : String} {value : α} {entries : List (String × α)}
    (h : find? key entries = some value) : (key, value) ∈ entries := by
  induction entries with
  | nil => cases h
  | cons e rest ih =>
    obtain ⟨k, v⟩ := e
    by_cases hk : k = key
    · simp only [find?, hk, if_true, Option.some.injEq] at h
      simp [hk, h]
    · simp only [find?, hk, if_false] at h
      exact List.mem_cons_of_mem _ (ih h)

theorem find?_of_mem {key : String} {value : α} {entries : List (String × α)}
    (hn : (keys entries).Nodup) (h : (key, value) ∈ entries) : find? key entries = some value := by
  induction entries with
  | nil => cases h
  | cons e rest ih =>
    obtain ⟨k, v⟩ := e
    simp only [keys, List.map_cons, List.nodup_cons] at hn
    rcases List.mem_cons.1 h with h | h
    · cases h
      simp [find?]
    · have hk : k ≠ key := fun hk ↦ hn.1 (hk ▸ List.mem_map_of_mem h)
      simpa only [find?, hk, if_false] using ih hn.2 h

theorem find?_eq_none {key : String} {entries : List (String × α)} (h : key ∉ keys entries) :
    find? key entries = none := by
  cases hf : find? key entries with
  | none => rfl
  | some value => exact absurd (List.mem_map_of_mem (mem_of_find? hf)) h

theorem find?_map (f : α → β) (key : String) (entries : List (String × α)) :
    find? key (entries.map fun e ↦ (e.1, f e.2)) = (find? key entries).map f := by
  induction entries with
  | nil => rfl
  | cons e rest ih =>
    simp only [List.map_cons, find?]
    by_cases h : e.1 = key
    · simp [h]
    · simp [h, ih]

theorem keys_map (f : α → β) (entries : List (String × α)) :
    keys (entries.map fun e ↦ (e.1, f e.2)) = keys entries := by
  simp [keys]

theorem map_eq_self_iff {f : α → α} {xs : List α} : xs.map f = xs ↔ ∀ x ∈ xs, f x = x := by
  induction xs with
  | nil => simp
  | cons x xs ih => rw [List.map_cons, List.cons.injEq, ih, List.forall_mem_cons]

theorem map_eq_of_zip (f : α → β) {xs ys : List α} (hl : xs.length = ys.length)
    (h : ∀ p ∈ xs.zip ys, f p.1 = f p.2) : xs.map f = ys.map f := by
  induction xs generalizing ys with
  | nil => rw [List.length_eq_zero_iff.1 hl.symm]
  | cons x xs ih =>
    cases ys with
    | nil => cases hl
    | cons y ys =>
      rw [List.zip_cons_cons, List.forall_mem_cons] at h
      rw [List.map_cons, List.map_cons, h.1, ih (Nat.succ.inj hl) h.2]

theorem map_congr_of_keys (f : α → β) {entries others : List (String × α)}
    (hk : keys entries = keys others) (h : ∀ p ∈ entries.zip others, f p.1.2 = f p.2.2) :
    entries.map (fun e ↦ (e.1, f e.2)) = others.map fun e ↦ (e.1, f e.2) := by
  induction entries generalizing others with
  | nil =>
    rw [List.map_eq_nil_iff.1 hk.symm]
  | cons e rest ih =>
    cases others with
    | nil => cases hk
    | cons o others =>
      obtain ⟨hkey, hkeys⟩ := List.cons.inj hk
      rw [List.zip_cons_cons, List.forall_mem_cons] at h
      rw [List.map_cons, List.map_cons, ih hkeys h.2, h.1, hkey]

theorem mem_put {key : String} {value : α} {entries : List (String × α)} {e : String × α}
    (h : e ∈ put key value entries) : e = (key, value) ∨ e ∈ entries := by
  induction entries with
  | nil => exact .inl (List.mem_singleton.1 h)
  | cons f rest ih =>
    rw [put] at h
    split at h
    · next hk =>
      rcases List.mem_cons.1 h with h | h
      · exact .inl (hk ▸ h)
      · exact .inr (List.mem_cons_of_mem _ h)
    · rcases List.mem_cons.1 h with h | h
      · exact .inr (h ▸ List.mem_cons_self)
      · exact (ih h).imp_right (List.mem_cons_of_mem _)

theorem find?_put (key other : String) (value : α) (entries : List (String × α)) :
    find? other (put key value entries) =
      if key = other then some value else find? other entries := by
  split
  · next h =>
    subst h
    exact find?_put_self key value entries
  · next h => exact find?_put_of_ne h value entries

theorem put_ne_nil (key : String) (value : α) (entries : List (String × α)) :
    put key value entries ≠ [] := by
  cases entries with
  | nil => exact List.cons_ne_nil _ _
  | cons e rest =>
    obtain ⟨k, v⟩ := e
    rw [put]
    split <;> exact List.cons_ne_nil _ _

theorem put_of_not_mem {key : String} {entries : List (String × α)} (h : key ∉ keys entries)
    (value : α) : put key value entries = entries ++ [(key, value)] := by
  induction entries with
  | nil => rfl
  | cons e rest ih =>
    obtain ⟨k, v⟩ := e
    simp only [keys, List.map_cons, List.mem_cons, not_or] at h
    simp only [put, Ne.symm h.1, if_false, ih h.2, List.cons_append]

theorem put_of_nodup {key : String} {value : α} {done rest : List (String × α)}
    (h : (keys (done ++ (key, value) :: rest)).Nodup) :
    put key value done = done ++ [(key, value)] := by
  simp only [keys, List.map_append, List.map_cons, List.nodup_append, List.mem_cons] at h
  exact put_of_not_mem (fun hmem ↦ h.2.2 _ hmem _ (.inl rfl) rfl) value

theorem foldl_put {done entries : List (String × α)} (h : (keys (done ++ entries)).Nodup) :
    entries.foldl (fun acc e ↦ put e.1 e.2 acc) done = done ++ entries := by
  induction entries generalizing done with
  | nil => simp
  | cons e rest ih =>
    rw [List.foldl_cons, put_of_nodup h, ih (by simpa using h), List.append_assoc,
      List.singleton_append]

theorem ofList_of_nodup {entries : List (String × α)} (h : (keys entries).Nodup) :
    ofList entries = entries := by
  exact @foldl_put α [] entries h

theorem ofList_append (entries : List (String × α)) (key : String) (value : α) :
    ofList (entries ++ [(key, value)]) = put key value (ofList entries) := by
  rw [ofList, List.foldl_append]
  rfl

theorem nodup_keys_ofList (entries : List (String × α)) : (keys (ofList entries)).Nodup := by
  induction entries using List.reverseRecOn with
  | nil => exact List.nodup_nil
  | append_singleton front last ih =>
    rw [ofList_append front last.1 last.2]
    exact nodup_keys_put last.1 last.2 ih

theorem mem_of_mem_ofList {entries : List (String × α)} {e : String × α} (h : e ∈ ofList entries) :
    e ∈ entries := by
  induction entries using List.reverseRecOn with
  | nil => cases h
  | append_singleton front last ih =>
    rw [ofList_append front last.1 last.2] at h
    rcases mem_put h with rfl | h
    · exact List.mem_append_right _ List.mem_cons_self
    · exact List.mem_append_left _ (ih h)

theorem ofList_ne_nil {entries : List (String × α)} (h : entries ≠ []) : ofList entries ≠ [] := by
  obtain ⟨front, e, rfl⟩ := (List.eq_nil_or_concat' entries).resolve_left h
  rw [ofList_append front e.1 e.2]
  exact put_ne_nil e.1 e.2 _

def gather (rows : List ρ) (key : ρ → String) (value? : ρ → Option α) : List (String × α) :=
  rows.filterMap fun row ↦ (value? row).map fun value ↦ (key row, value)

variable {rows : List ρ} {key : ρ → String}

theorem gather_congr {value? value?' : ρ → Option α} (h : ∀ row ∈ rows, value? row = value?' row) :
    gather rows key value? = gather rows key value?' :=
  List.filterMap_congr fun row hrow ↦ by rw [h row hrow]

theorem mem_gather {value? : ρ → Option α} {e : String × α} :
    e ∈ gather rows key value? ↔ ∃ row ∈ rows, key row = e.1 ∧ value? row = some e.2 := by
  simp only [gather, List.mem_filterMap, Option.map_eq_some_iff, Prod.ext_iff]
  constructor
  · intro h
    obtain ⟨row, hrow, value, hv, hk, rfl⟩ := h
    exact ⟨row, hrow, hk, hv⟩
  · intro h
    obtain ⟨row, hrow, hk, hv⟩ := h
    exact ⟨row, hrow, e.2, hv, hk, rfl⟩

theorem gather_map {σ : Type} (f : σ → ρ) (rows : List σ) (key : ρ → String)
    (value? : ρ → Option α) : gather (rows.map f) key value? =
      gather rows (fun row ↦ key (f row)) fun row ↦ value? (f row) :=
  List.filterMap_map ..

theorem map_gather (f : α → β) (value? : ρ → Option α) :
    (gather rows key value?).map (fun e ↦ (e.1, f e.2)) =
      gather rows key fun row ↦ (value? row).map f := by
  simp only [gather, List.map_filterMap, Option.map_map]
  rfl

theorem keys_gather_sublist (value? : ρ → Option α) :
    (keys (gather rows key value?)).Sublist (rows.map key) := by
  induction rows with
  | nil => exact .slnil
  | cons row rows ih =>
    cases h : value? row with
    | none => simpa [gather, keys, h] using ih.cons (key row)
    | some value => simpa [gather, keys, h] using ih

theorem nodup_keys_gather (h : (rows.map key).Nodup) (value? : ρ → Option α) :
    (keys (gather rows key value?)).Nodup :=
  h.sublist (keys_gather_sublist value?)

theorem find?_gather (h : (rows.map key).Nodup) (value? : ρ → Option α) {row : ρ}
    (hrow : row ∈ rows) : find? (key row) (gather rows key value?) = value? row := by
  cases hv : value? row with
  | some value => exact find?_of_mem (nodup_keys_gather h value?) (mem_gather.2 ⟨row, hrow, rfl, hv⟩)
  | none =>
    apply find?_eq_none
    intro hmem
    obtain ⟨e, he, hk⟩ := List.mem_map.1 hmem
    obtain ⟨row', hrow', hk', hv'⟩ := mem_gather.1 he
    rw [List.inj_on_of_nodup_map h hrow hrow' (hk.symm.trans hk'.symm), hv'] at hv
    cases hv

/-- What has been gathered under one name can be gathered again under another. -/
theorem gather_gather (h : (rows.map key).Nodup) (key' : ρ → String) (value? : ρ → Option α)
    (f : ρ → α → β) :
    (gather rows key' fun row ↦ (find? (key row) (gather rows key value?)).map (f row)) =
      gather rows key' fun row ↦ (value? row).map (f row) := by
  apply gather_congr
  intro row hrow
  rw [find?_gather h value? hrow]

section Assigned

variable {γ : Type} {assigned : List (ρ × α)}

/-- Values that belong to some of the rows are found by name, row after row. -/
theorem gather_find?_of_sublist (hs : (assigned.map Prod.fst).Sublist rows)
    (hn : (rows.map key).Nodup) (key' : ρ → String) (f : ρ → α → β) (g : ρ → β → γ) :
    (gather rows key' fun row ↦
      (find? (key row) (assigned.map fun e ↦ (key e.1, f e.1 e.2))).map (g row)) =
      assigned.map fun e ↦ (key' e.1, g e.1 (f e.1 e.2)) := by
  generalize hm : assigned.map Prod.fst = taken at hs
  induction hs generalizing assigned with
  | slnil => rw [List.map_eq_nil_iff.1 hm, gather, List.filterMap_nil, List.map_nil]
  | @cons taken rows row hs ih =>
    obtain ⟨hrow, hrows⟩ := List.nodup_cons.1 hn
    have hnone : find? (key row) (assigned.map fun e ↦ (key e.1, f e.1 e.2)) = none := by
      apply find?_eq_none
      intro hmem
      rw [keys, List.map_map] at hmem
      obtain ⟨e, he, hk⟩ := List.mem_map.1 hmem
      refine hrow (List.mem_map.2 ⟨e.1, ?_, hk⟩)
      exact hs.subset (hm ▸ List.mem_map_of_mem he)
    rw [← ih hrows hm, gather, List.filterMap_cons_none (by rw [hnone]; rfl)]
    rfl
  | @cons_cons taken rows row hs ih =>
    obtain ⟨hrow, hrows⟩ := List.nodup_cons.1 hn
    obtain ⟨⟨row', value⟩, assigned, rfl, rfl, hrest⟩ := List.map_eq_cons_iff.1 hm
    have hothers : ∀ other ∈ rows, find? (key other)
        ((key row', f row' value) :: assigned.map fun e ↦ (key e.1, f e.1 e.2)) =
        find? (key other) (assigned.map fun e ↦ (key e.1, f e.1 e.2)) := by
      intro other hother
      have hne : key row' ≠ key other := fun he ↦ hrow (he ▸ List.mem_map_of_mem hother)
      rw [find?, if_neg hne]
    have hfirst : find? (key row')
        ((key row', f row' value) :: assigned.map fun e ↦ (key e.1, f e.1 e.2)) =
        some (f row' value) := if_pos rfl
    rw [List.map_cons, List.map_cons, ← ih hrows hrest, gather,
      List.filterMap_cons_some (by rw [hfirst]; rfl)]
    refine congrArg _ (gather_congr fun other hother ↦ ?_)
    rw [hothers other hother]

theorem nodup_keys_of_sublist (hs : (assigned.map Prod.fst).Sublist rows)
    (hn : (rows.map key).Nodup) (f : ρ → α → β) :
    (keys (assigned.map fun e ↦ (key e.1, f e.1 e.2))).Nodup := by
  have hk : keys (assigned.map fun e ↦ (key e.1, f e.1 e.2)) = (assigned.map Prod.fst).map key := by
    simp [keys]
  rw [hk]
  exact (hs.map key).nodup hn

end Assigned

end Storefront.Entries
