import Storefront.Proofs.Entries
import Storefront.Proofs.Text.Order
import Storefront.Proofs.Webhook.Names
import Storefront.Webhook.Headers

namespace Storefront.Webhook.Headers

/-- A header gives a value: what is left of it without the blanks around it, if anything is. -/
def Gives (headers : Headers) (key v : String) : Prop :=
  ∃ value, (key, value) ∈ headers ∧ Text.trimmed value = v ∧ v ≠ ""

/-- The header whose value is taken for a name: the first usual spelling that gives one, and if
none does, the least of the other spellings, byte by byte. -/
inductive Takes (headers : Headers) (name key v : String) : Prop
  | usual {before after : List String} :
      [name, dashedName (normalName name), normalName name, "HTTP_" ++ normalName name] =
        before ++ key :: after →
      (∀ k ∈ before, ∀ u, ¬ Gives headers k u) → Gives headers key v → Takes headers name key v
  | least :
      (∀ k ∈ [name, dashedName (normalName name), normalName name, "HTTP_" ++ normalName name],
        ∀ u, ¬ Gives headers k u) →
      normalName key = normalName name → Gives headers key v →
      (∀ k u, normalName k = normalName name → Gives headers k u →
        Text.bytes key ≤ Text.bytes k) → Takes headers name key v

variable {headers others : Headers} {name key key' value v : String}

theorem filled?_eq_some_iff : filled? value = some v ↔ Text.trimmed value = v ∧ v ≠ "" := by
  rw [filled?]
  split <;> grind

theorem find?_bind_filled?_eq_some_iff (hn : (Entries.keys headers).Nodup) :
    (Entries.find? key headers).bind filled? = some v ↔ Gives headers key v := by
  simp only [Option.bind_eq_some_iff, filled?_eq_some_iff, Gives]
  refine exists_congr fun value ↦ and_congr_left fun _ ↦ ?_
  exact ⟨Entries.mem_of_find?, Entries.find?_of_mem hn⟩

theorem mem_matching_iff : (key, v) ∈ matching headers name ↔
    normalName key = normalName name ∧ Gives headers key v := by
  simp only [matching, List.mem_filterMap, Gives]
  constructor
  · rintro ⟨e, he, h⟩
    obtain ⟨hk, h⟩ := Option.ite_none_right_eq_some.1 h
    obtain ⟨u, hu, heq⟩ := Option.map_eq_some_iff.1 h
    cases heq
    exact ⟨hk, e.2, he, filled?_eq_some_iff.1 hu⟩
  · rintro ⟨hk, value, hmem, hv⟩
    exact ⟨(key, value), hmem, by rw [if_pos hk, filled?_eq_some_iff.2 hv]; rfl⟩

theorem least?_eq_none_iff : least? headers = none ↔ headers = [] := by
  cases headers with
  | nil => simp [least?]
  | cons e rest =>
    rw [least?]
    split
    · simp
    · split <;> simp

theorem least?_spec {e : String × String} (h : least? headers = some e) :
    e ∈ headers ∧ ∀ f ∈ headers, e.1 ≤ f.1 := by
  induction headers generalizing e with
  | nil => cases h
  | cons first rest ih =>
    rw [least?] at h
    split at h
    · next hrest =>
      cases h
      rw [least?_eq_none_iff.1 hrest]
      simp
    · next f hrest =>
      obtain ⟨hmem, hle⟩ := ih hrest
      split at h
      · next hlt =>
        cases h
        refine ⟨List.mem_cons_of_mem _ hmem, List.forall_mem_cons.2 ⟨le_of_lt hlt, hle⟩⟩
      · next hnot =>
        cases h
        refine ⟨List.mem_cons_self, List.forall_mem_cons.2 ⟨le_refl _, fun g hg ↦ ?_⟩⟩
        exact le_trans (not_lt.1 hnot) (hle g hg)

theorem Gives.unique {u : String} (hn : (Entries.keys headers).Nodup) (h : Gives headers key v)
    (h' : Gives headers key u) : v = u := by
  rw [← find?_bind_filled?_eq_some_iff hn] at h h'
  exact Option.some.inj (h.symm.trans h')

theorem findSome?_eq_none_iff (hn : (Entries.keys headers).Nodup) {keys : List String} :
    (keys.findSome? fun key ↦ (Entries.find? key headers).bind filled?) = none ↔
      ∀ k ∈ keys, ∀ u, ¬ Gives headers k u := by
  rw [List.findSome?_eq_none_iff]
  simp only [Option.eq_none_iff_forall_ne_some, ne_eq, find?_bind_filled?_eq_some_iff hn]

theorem findSome?_eq_some_iff (hn : (Entries.keys headers).Nodup) {keys : List String} :
    (keys.findSome? fun key ↦ (Entries.find? key headers).bind filled?) = some v ↔
      ∃ before key after, keys = before ++ key :: after ∧ Gives headers key v ∧
        ∀ k ∈ before, ∀ u, ¬ Gives headers k u := by
  simp only [List.findSome?_eq_some_iff, Option.eq_none_iff_forall_ne_some, ne_eq,
    find?_bind_filled?_eq_some_iff hn]

theorem find?_eq_some_iff_takes (hn : (Entries.keys headers).Nodup) :
    find? headers name = some v ↔ ∃ key, Takes headers name key v := by
  constructor
  · intro h
    rw [find?] at h
    split at h
    · next u hs =>
      cases h
      obtain ⟨before, key, after, hsplit, hkey, hbefore⟩ := (findSome?_eq_some_iff hn).1 hs
      exact ⟨key, .usual hsplit hbefore hkey⟩
    · next hs =>
      obtain ⟨⟨key, u⟩, hl, rfl⟩ := Option.map_eq_some_iff.1 h
      obtain ⟨hmem, hle⟩ := least?_spec hl
      obtain ⟨hk, hgives⟩ := mem_matching_iff.1 hmem
      refine ⟨key, .least ((findSome?_eq_none_iff hn).1 hs) hk hgives fun k u hku hu ↦ ?_⟩
      exact Text.bytes_le_bytes_iff.2 (hle (k, u) (mem_matching_iff.2 ⟨hku, hu⟩))
  · rintro ⟨key, hsplit, hbefore, hkey⟩
    · have hs : ((spellings name).findSome? fun k ↦ (Entries.find? k headers).bind filled?) =
          some v := (findSome?_eq_some_iff hn).2 ⟨_, key, _, hsplit, hkey, hbefore⟩
      rw [find?, hs]
    · next hnone hk hgives hle =>
      have hs : ((spellings name).findSome? fun k ↦ (Entries.find? k headers).bind filled?) =
          none := (findSome?_eq_none_iff hn).2 hnone
      have hmem := mem_matching_iff.2 ⟨hk, hgives⟩
      obtain ⟨e, he⟩ : ∃ e, least? (matching headers name) = some e := by
        refine Option.ne_none_iff_exists'.1 fun hl ↦ ?_
        rw [least?_eq_none_iff.1 hl] at hmem
        cases hmem
      obtain ⟨hemem, hele⟩ := least?_spec he
      obtain ⟨hek, hegives⟩ := mem_matching_iff.1 hemem
      have heq : e.1 = key :=
        le_antisymm (hele _ hmem) (Text.bytes_le_bytes_iff.1 (hle _ _ hek hegives))
      rw [heq] at hegives
      rw [find?, hs, he, hgives.unique hn hegives]
      rfl

theorem Gives.of_find?_eq (hn : (Entries.keys headers).Nodup) (hn' : (Entries.keys others).Nodup)
    (h : Entries.find? key others = Entries.find? key headers) :
    Gives others key v ↔ Gives headers key v := by
  rw [← find?_bind_filled?_eq_some_iff hn, ← find?_bind_filled?_eq_some_iff hn', h]

theorem gives_of_perm (h : others.Perm headers) : Gives others key v ↔ Gives headers key v := by
  simp only [Gives, h.mem_iff]

section Normal

variable (hn : (Entries.keys headers).Nodup)
  (hw : normalName (normalName name) = normalName name)

include hw in
theorem Takes.normalName_eq (h : Takes headers name key v) : normalName key = normalName name := by
  cases h with
  | usual hsplit =>
    refine normalName_of_mem_spellings hw ?_
    rw [spellings, hsplit]
    simp
  | least _ hk => exact hk

theorem Takes.gives (h : Takes headers name key v) : Gives headers key v := by
  cases h with
  | usual _ _ hgives => exact hgives
  | least _ _ hgives => exact hgives

include hw in
theorem Takes.congr (h : Takes headers name key v)
    (he : ∀ k u, normalName k = normalName name → (Gives others k u ↔ Gives headers k u)) :
    Takes others name key v := by
  have hk := h.normalName_eq hw
  have hgives := (he key v hk).2 h.gives
  have hspelled : ∀ k ∈ spellings name, ∀ u, ¬ Gives headers k u → ¬ Gives others k u :=
    fun k hk u hnot h ↦ hnot ((he k u (normalName_of_mem_spellings hw hk)).1 h)
  cases h with
  | usual hsplit hbefore =>
    refine .usual hsplit (fun k hk u ↦ hspelled k ?_ u (hbefore k hk u)) hgives
    rw [spellings, hsplit]
    exact List.mem_append_left _ hk
  | least hnone _ _ hle =>
    exact .least (fun k hk u ↦ hspelled k hk u (hnone k hk u)) hk hgives
      fun k u hku hu ↦ hle k u hku ((he k u hku).1 hu)

include hn hw in
theorem find?_congr (hn' : (Entries.keys others).Nodup)
    (he : ∀ k u, normalName k = normalName name → (Gives others k u ↔ Gives headers k u)) :
    find? others name = find? headers name := by
  refine Option.ext fun v ↦ ?_
  rw [find?_eq_some_iff_takes hn, find?_eq_some_iff_takes hn']
  exact exists_congr fun key ↦ ⟨fun h ↦ h.congr hw fun k u hk ↦ (he k u hk).symm,
    fun h ↦ h.congr hw he⟩

include hn hw in
theorem isSome_find?_iff : (find? headers name).isSome ↔
    ∃ key v, normalName key = normalName name ∧ Gives headers key v := by
  constructor
  · intro h
    obtain ⟨v, hv⟩ := Option.isSome_iff_exists.1 h
    obtain ⟨key, ht⟩ := (find?_eq_some_iff_takes hn).1 hv
    exact ⟨key, v, ht.normalName_eq hw, ht.gives⟩
  · rintro ⟨key, v, hk, hgives⟩
    have hmem := mem_matching_iff.2 ⟨hk, hgives⟩
    rw [find?]
    split
    · rfl
    · rw [Option.isSome_map, Option.isSome_iff_ne_none]
      intro hl
      rw [least?_eq_none_iff.1 hl] at hmem
      cases hmem

include hw in
/-- A name with one spelling among the headers has the value of that header. -/
theorem find?_of_only {before after : Headers}
    (hn : (Entries.keys (before ++ (key, value) :: after)).Nodup)
    (hk : normalName key = normalName name)
    (hothers : ∀ e ∈ before ++ after, normalName e.1 ≠ normalName name) :
    find? (before ++ (key, value) :: after) name = filled? value := by
  have hfilled {v : String} (h : find? (before ++ (key, value) :: after) name = some v) :
      filled? value = some v := by
    obtain ⟨k, ht⟩ := (find?_eq_some_iff_takes hn).1 h
    obtain ⟨u, hmem, hu⟩ := ht.gives
    have heq : (k, u) = (key, value) := by
      rcases List.mem_append.1 hmem with hmem | hmem
      · exact absurd (ht.normalName_eq hw) (hothers (k, u) (List.mem_append_left _ hmem))
      · rcases List.mem_cons.1 hmem with heq | hmem
        · exact heq
        · exact absurd (ht.normalName_eq hw) (hothers (k, u) (List.mem_append_right _ hmem))
    cases heq
    exact filled?_eq_some_iff.2 hu
  refine Option.ext fun v ↦ ⟨hfilled, fun h ↦ ?_⟩
  have hgives : Gives (before ++ (key, value) :: after) key v :=
    ⟨value, by simp, filled?_eq_some_iff.1 h⟩
  obtain ⟨u, hu⟩ := Option.isSome_iff_exists.1 ((isSome_find?_iff hn hw).2 ⟨key, v, hk, hgives⟩)
  rwa [← h, hfilled hu]

end Normal

theorem nodup_keys_renamed {before after : Headers}
    (hn : (Entries.keys (before ++ (key, value) :: after)).Nodup)
    (hothers : ∀ e ∈ before ++ after, normalName e.1 ≠ normalName name)
    (hk' : normalName key' = normalName name) :
    (Entries.keys (before ++ (key', value) :: after)).Nodup := by
  have hmiddle (k : String) : (Entries.keys (before ++ (k, value) :: after)).Nodup ↔
      k ∉ Entries.keys (before ++ after) ∧ (Entries.keys (before ++ after)).Nodup := by
    have hp : (Entries.keys (before ++ (k, value) :: after)).Perm
        (k :: Entries.keys (before ++ after)) := List.perm_middle.map Prod.fst
    rw [hp.nodup_iff, List.nodup_cons]
  refine (hmiddle key').2 ⟨fun hmem ↦ ?_, ((hmiddle key).1 hn).2⟩
  obtain ⟨e, he, hkey⟩ := List.mem_map.1 hmem
  exact hothers e he (hkey ▸ hk')

/-- A header is found exactly when some spelling of its name has a value. The value is that of the
first usual spelling, else of the least other one; the order of the headers and the headers with
other names play no part, nor does the spelling when there is only one. -/
theorem find?_by_any_spelling (hn : (Entries.keys headers).Nodup)
    (hw : normalName (normalName name) = normalName name) :
    ((find? headers name).isSome ↔ ∃ key value, (key, value) ∈ headers ∧
      normalName key = normalName name ∧ Text.trimmed value ≠ "") ∧
    (∀ v, find? headers name = some v ↔ ∃ key, Takes headers name key v) ∧
    (∀ others : Headers, others.Perm headers → find? others name = find? headers name) ∧
    (∀ others : Headers, (Entries.keys others).Nodup →
      (∀ key, normalName key = normalName name →
        Entries.find? key others = Entries.find? key headers) →
      find? others name = find? headers name) ∧
    ∀ before key value after key', headers = before ++ (key, value) :: after →
      (∀ e ∈ before ++ after, normalName e.1 ≠ normalName name) →
      normalName key = normalName name → normalName key' = normalName name →
      find? (before ++ (key', value) :: after) name = find? headers name := by
  refine ⟨?_, fun v ↦ find?_eq_some_iff_takes hn, ?_, ?_, ?_⟩
  · rw [isSome_find?_iff hn hw]
    constructor
    · rintro ⟨key, v, hk, value, hmem, rfl, hv⟩
      exact ⟨key, value, hmem, hk, hv⟩
    · rintro ⟨key, value, hmem, hk, hv⟩
      exact ⟨key, _, hk, value, hmem, rfl, hv⟩
  · intro others hp
    exact find?_congr hn hw ((hp.map Prod.fst).nodup_iff.2 hn) fun k u _ ↦ gives_of_perm hp
  · intro others hn' he
    exact find?_congr hn hw hn' fun k u hk ↦ Gives.of_find?_eq hn hn' (he k hk)
  · rintro before key value after key' rfl hothers hk hk'
    rw [find?_of_only hw hn hk hothers,
      find?_of_only hw (nodup_keys_renamed hn hothers hk') hk' hothers]

def oddHeaders : Headers :=
  [("x_forwarded-FOR", "203.0.113.7"), ("X-FORWARDED-FOR", " 203.0.113.8 "), ("Accept", "*/*"),
    ("x-forwarded-for", "\t")]

theorem find?_oddHeaders : (Entries.keys oddHeaders).Nodup ∧
    (∀ name ∈ [({} : Settings).signatureHeader, ({} : Settings).forwardedHeader,
      ({} : Settings).remoteHeader], normalName (normalName name) = normalName name) ∧
    find? oddHeaders "X-Forwarded-For" = some "203.0.113.8" ∧
    find? oddHeaders.reverse "X-Forwarded-For" = some "203.0.113.8" := by
  have hn : (Entries.keys oddHeaders).Nodup := by decide
  have hw : ∀ name ∈ [({} : Settings).signatureHeader, ({} : Settings).forwardedHeader,
      ({} : Settings).remoteHeader], normalName (normalName name) = normalName name := by
    decide +kernel
  have hfound : find? oddHeaders "X-Forwarded-For" = some "203.0.113.8" := by decide +kernel
  obtain ⟨-, -, hperm, -⟩ := find?_by_any_spelling hn (hw "X-Forwarded-For" (by decide))
  exact ⟨hn, hw, hfound, (hperm _ oddHeaders.reverse_perm).trans hfound⟩

end Storefront.Webhook.Headers
