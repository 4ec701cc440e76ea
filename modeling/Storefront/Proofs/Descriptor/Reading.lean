import Storefront.Descriptor.Text
import Storefront.Proofs.Text.Trim

namespace Storefront

namespace Primitive

theorem isLower_of_mem_name (p : Primitive) : ∀ c ∈ p.name.toList, c.isLower := by
  cases p <;> simp [name]

theorem ofChars?_eq_some_iff {cs : List Char} {p : Primitive} :
    ofChars? cs = some p ↔ p.name.toList = cs.map Char.toLower := by
  constructor
  · intro h
    simpa using List.find?_some h
  · intro h
    rw [ofChars?, ← h]
    cases p <;> rfl

theorem isLower_of_ofChars? {cs : List Char} {p : Primitive} (h : ofChars? cs = some p) :
    ∀ c ∈ cs, c.toLower.isLower := by
  intro c hc
  apply p.isLower_of_mem_name
  rw [ofChars?_eq_some_iff.1 h]
  exact List.mem_map_of_mem hc

theorem ofChars?_eq_none {cs : List Char} {c : Char} (hc : c ∈ cs) (hl : ¬ c.toLower.isLower) :
    ofChars? cs = none := by
  cases h : ofChars? cs with
  | none => rfl
  | some p => exact absurd (isLower_of_ofChars? h c hc) hl

end Primitive

namespace Descriptor

open Text

variable {cs inner back mark : List Char} {w : Wrapper}

theorem ofChars_eq (cs : List Char) : ofChars cs =
    match Primitive.ofChars? (trim cs) with
    | some p => .primitive p
    | none =>
      match peel? (trim cs) with
      | some (w, inner) => w.around (ofChars inner)
      | none => if trim cs = dateName then .date else .named (String.ofList (trim cs)) := by
  rw [ofChars]
  cases Primitive.ofChars? (trim cs) with
  | some p => rfl
  | none =>
    dsimp only
    split
    · next h => rw [h]
    · next h => rw [h]

theorem ofChars_congr {cs' : List Char} (h : trim cs = trim cs') : ofChars cs = ofChars cs' := by
  rw [ofChars_eq cs, ofChars_eq cs', h]

theorem ofChars_primitive {p : Primitive} (h : Primitive.ofChars? (trim cs) = some p) :
    ofChars cs = .primitive p := by
  rw [ofChars_eq, h]

theorem ofChars_peel (hp : Primitive.ofChars? (trim cs) = none)
    (h : peel? (trim cs) = some (w, inner)) : ofChars cs = w.around (ofChars inner) := by
  rw [ofChars_eq, hp, h]

theorem ofChars_date (h : trim cs = dateName) : ofChars cs = .date := by
  rw [ofChars_eq, h]
  rfl

theorem ofChars_named (hp : Primitive.ofChars? (trim cs) = none) (h : peel? (trim cs) = none)
    (hd : trim cs ≠ dateName) : ofChars cs = .named (String.ofList (trim cs)) := by
  rw [ofChars_eq, hp, h]
  exact if_neg hd

theorem ofChars_cases (cs : List Char) :
    (∃ p, Primitive.ofChars? (trim cs) = some p ∧ ofChars cs = .primitive p) ∨
    (∃ w inner, peel? (trim cs) = some (w, inner) ∧ ofChars cs = w.around (ofChars inner)) ∨
    trim cs = dateName ∧ ofChars cs = .date ∨ ofChars cs = .named (String.ofList (trim cs)) := by
  rw [ofChars_eq]
  cases hp : Primitive.ofChars? (trim cs) with
  | some p => exact .inl ⟨p, rfl, rfl⟩
  | none =>
    cases hw : peel? (trim cs) with
    | some p => exact .inr (.inl ⟨p.1, p.2, rfl, rfl⟩)
    | none =>
      by_cases hd : trim cs = dateName
      · exact .inr (.inr (.inl ⟨hd, if_pos hd⟩))
      · exact .inr (.inr (.inr (if_neg hd)))

theorem ofChars_blank (h : trim cs = []) : ofChars cs = .named "" := by
  rw [ofChars_eq, h]
  rfl

theorem toList_of_ofChars_eq_named {name : String} (h : ofChars cs = .named name) :
    name.toList = trim cs := by
  rcases ofChars_cases cs with ⟨p, -, hp⟩ | ⟨w, inner, -, hw⟩ | ⟨-, hd⟩ | hn
  · cases hp.symm.trans h
  · have := hw.symm.trans h
    cases w <;> cases this
  · cases hd.symm.trans h
  · obtain rfl := Descriptor.named.inj (hn.symm.trans h)
    exact String.toList_ofList

section Peel

theorem dropBack?_append (cs back : List Char) : dropBack? back (cs ++ back) = some cs :=
  dropBack?_eq_some_iff.2 rfl

theorem dropBack?_eq_none {c d : Char} (hc : cs.getLast? = some c) (hd : mark.getLast? = some d)
    (h : c ≠ d) : dropBack? mark cs = none := by
  cases hr : dropBack? mark cs with
  | none => rfl
  | some rest =>
    rw [dropBack?_eq_some_iff.1 hr] at hc
    have hlast : d ∈ (rest ++ mark).getLast? := List.mem_getLast?_append_of_mem_getLast? hd
    exact absurd (Option.some.inj (hc.symm.trans hlast)) h

theorem peel?_nullable (cs : List Char) : peel? (cs ++ nullMark) = some (.nullable, cs) := by
  rw [peel?, dropBack?_append]
  rfl

theorem peel?_optional (cs : List Char) : peel? (cs ++ undefinedMark) = some (.optional, cs) := by
  have hlast : (cs ++ undefinedMark).getLast? = some 'd' :=
    List.mem_getLast?_append_of_mem_getLast? rfl
  rw [peel?, dropBack?_eq_none hlast (d := 'l') rfl (by decide), dropBack?_append]
  rfl

/-- A text that ends in a bracket is neither nullable nor optional. -/
theorem peel?_of_bracket {c : Char} (h : cs.getLast? = some c) (hc : c = '>' ∨ c = '\x7d') :
    peel? cs = ((arrayInner? cs).map (.array, ·)).or ((mapInner? cs).map (.map, ·)) := by
  have hl : c ≠ 'l' := by rcases hc with rfl | rfl <;> decide
  have hd : c ≠ 'd' := by rcases hc with rfl | rfl <;> decide
  rw [peel?, dropBack?_eq_none h rfl hl, dropBack?_eq_none h rfl hd]
  simp

theorem peel?_array (cs : List Char) :
    peel? (arrayFront ++ cs ++ arrayBack) = some (.array, cs) := by
  have hinner : arrayInner? (arrayFront ++ cs ++ arrayBack) = some cs := by
    rw [arrayInner?, List.append_assoc, dropFront?_eq_some_iff.2 rfl]
    exact dropBack?_append cs arrayBack
  rw [peel?_of_bracket (List.mem_getLast?_append_of_mem_getLast? rfl) (.inl rfl), hinner]
  rfl

theorem mapBacks_cases (h : back ∈ mapBacks) :
    back = "; \x7d".toList ∨ ∃ gap, (∀ c ∈ gap, isBlank c) ∧ back = gap ++ ['\x7d'] := by
  simp only [mapBacks, List.mem_cons, List.not_mem_nil, or_false] at h
  rcases h with rfl | rfl | rfl
  · exact .inl rfl
  · exact .inr ⟨[' '], by simp [isBlank], rfl⟩
  · exact .inr ⟨[], nofun, rfl⟩

theorem getLast?_mapBack (h : back ∈ mapBacks) (cs : List Char) :
    (cs ++ back).getLast? = some '\x7d' := by
  rcases mapBacks_cases h with rfl | ⟨gap, -, rfl⟩ <;> simp

/-- The end of a map is found after all that stands inside, but for blanks. -/
theorem exists_mapInner? (hb : back ∈ mapBacks)
    (h : back = "; \x7d".toList ∨ (trim cs).getLast? ≠ some ';') :
    ∃ inner, mapInner? (mapFront ++ cs ++ back) = some inner ∧ trim inner = trim cs := by
  rw [mapInner?, List.append_assoc, dropFront?_eq_some_iff.2 rfl, Option.bind_some]
  by_cases hfirst : back = "; \x7d".toList
  · refine ⟨cs, ?_, rfl⟩
    rw [hfirst, mapBacks, List.findSome?_cons, dropBack?_append]
  · have hlast := h.resolve_left hfirst
    obtain ⟨gap, hgap, rfl⟩ := (mapBacks_cases hb).resolve_left hfirst
    have hsome : (mapBacks.findSome? (dropBack? · (cs ++ (gap ++ ['\x7d'])))).isSome := by
      rw [List.findSome?_isSome_iff]
      exact ⟨_, hb, by rw [dropBack?_append]; rfl⟩
    obtain ⟨inner, hi⟩ := Option.isSome_iff_exists.1 hsome
    obtain ⟨found, hf, hd⟩ := List.exists_of_findSome?_eq_some hi
    have heq := dropBack?_eq_some_iff.1 hd
    rw [← List.append_assoc] at heq
    refine ⟨inner, hi, ?_⟩
    rcases mapBacks_cases hf with rfl | ⟨gap', hgap', rfl⟩
    · -- the longest end would take a semicolon from the text inside
      have hcut : cs ++ gap = inner ++ [';'] ++ [' '] :=
        List.append_cancel_right (heq.trans (by simp))
      have htrim := congrArg trim hcut
      rw [trim_append_blanks _ hgap, trim_append_blanks _ (by simp [isBlank])] at htrim
      rw [htrim] at hlast
      have hsemicolon : (inner ++ [';']).getLast? = some ';' := List.getLast?_concat
      exact absurd (getLast?_trim hsemicolon rfl) hlast
    · rw [← List.append_assoc] at heq
      have htrim := congrArg trim (List.append_cancel_right heq)
      rw [trim_append_blanks _ hgap, trim_append_blanks _ hgap'] at htrim
      exact htrim.symm

theorem exists_peel?_map (hb : back ∈ mapBacks)
    (h : back = "; \x7d".toList ∨ (trim cs).getLast? ≠ some ';') :
    ∃ inner, peel? (mapFront ++ cs ++ back) = some (.map, inner) ∧ trim inner = trim cs := by
  obtain ⟨inner, hi, ht⟩ := exists_mapInner? hb h
  have harray : arrayInner? (mapFront ++ cs ++ back) = none := rfl
  refine ⟨inner, ?_, ht⟩
  rw [peel?_of_bracket (getLast?_mapBack hb _) (.inr rfl), harray, hi]
  rfl

theorem peel?_cases (h : peel? cs = some (w, inner)) :
    w = .nullable ∧ cs = inner ++ nullMark ∨ w = .optional ∧ cs = inner ++ undefinedMark ∨
      w = .array ∧ cs = arrayFront ++ inner ++ arrayBack ∨
      w = .map ∧ ∃ back ∈ mapBacks, cs = mapFront ++ inner ++ back := by
  simp only [peel?, Option.orElse_eq_orElse, Option.orElse_eq_or, Option.or_eq_some_iff,
    Option.map_eq_some_iff, Prod.mk.injEq, dropBack?_eq_some_iff] at h
  rcases h with ⟨_, hcs, rfl, rfl⟩ | ⟨-, ⟨_, hcs, rfl, rfl⟩ | ⟨-, ⟨_, hi, rfl, rfl⟩ |
    ⟨-, _, hi, rfl, rfl⟩⟩⟩
  · exact .inl ⟨rfl, hcs⟩
  · exact .inr (.inl ⟨rfl, hcs⟩)
  · obtain ⟨rest, hf, hb⟩ := Option.bind_eq_some_iff.1 hi
    refine .inr (.inr (.inl ⟨rfl, ?_⟩))
    rw [dropFront?_eq_some_iff.1 hf, dropBack?_eq_some_iff.1 hb, List.append_assoc]
  · obtain ⟨rest, hf, hb⟩ := Option.bind_eq_some_iff.1 hi
    obtain ⟨back, hmem, hb⟩ := List.exists_of_findSome?_eq_some hb
    refine .inr (.inr (.inr ⟨rfl, back, hmem, ?_⟩))
    rw [dropFront?_eq_some_iff.1 hf, dropBack?_eq_some_iff.1 hb, List.append_assoc]

end Peel

section Wrapped

theorem ofChars_marked (hpeel : ∀ cs, peel? (cs ++ mark) = some (w, cs))
    (hm : mark.getLast?.any fun c ↦ !isBlank c) (hs : ' ' ∈ mark) (h : trim cs ≠ []) :
    ofChars (cs ++ mark) = w.around (ofChars cs) := by
  obtain ⟨inner, ht, hi⟩ := exists_trim_append h hm
  have hp : Primitive.ofChars? (trim (cs ++ mark)) = none := by
    rw [ht]
    exact Primitive.ofChars?_eq_none (List.mem_append_right _ hs) (by decide)
  have hw : peel? (trim (cs ++ mark)) = some (w, inner) := by
    rw [ht]
    exact hpeel inner
  rw [ofChars_peel hp hw, ofChars_congr hi]

theorem ofChars_nullable (h : trim cs ≠ []) : ofChars (cs ++ nullMark) = .nullable (ofChars cs) :=
  ofChars_marked peel?_nullable rfl List.mem_cons_self h

theorem ofChars_optional (h : trim cs ≠ []) :
    ofChars (cs ++ undefinedMark) = .optional (ofChars cs) :=
  ofChars_marked peel?_optional rfl List.mem_cons_self h

/-- A mark after nothing belongs to no other text, and is a name. -/
theorem ofChars_nullMark : ofChars nullMark = .named "| null" :=
  ofChars_named rfl rfl (by decide)

theorem ofChars_undefinedMark : ofChars undefinedMark = .named "| undefined" :=
  ofChars_named rfl rfl (by decide)

theorem ofChars_array (cs : List Char) :
    ofChars (arrayFront ++ cs ++ arrayBack) = .array (ofChars cs) := by
  have ht : isTight (arrayFront ++ cs ++ arrayBack) := isTight_append rfl rfl
  have hp : Primitive.ofChars? (trim (arrayFront ++ cs ++ arrayBack)) = none := by
    rw [trim_of_isTight ht]
    exact Primitive.ofChars?_eq_none (List.mem_append_right _ List.mem_cons_self) (by decide)
  have hw : peel? (trim (arrayFront ++ cs ++ arrayBack)) = some (.array, cs) := by
    rw [trim_of_isTight ht, peel?_array]
  exact ofChars_peel hp hw

theorem ofChars_map (hb : back ∈ mapBacks)
    (h : back = "; \x7d".toList ∨ (trim cs).getLast? ≠ some ';') :
    ofChars (mapFront ++ cs ++ back) = .map (ofChars cs) := by
  obtain ⟨inner, hpeel, hi⟩ := exists_peel?_map hb h
  have hlast := getLast?_mapBack hb (mapFront ++ cs)
  have ht : isTight (mapFront ++ cs ++ back) := by
    rw [isTight, hlast]
    rfl
  have hp : Primitive.ofChars? (trim (mapFront ++ cs ++ back)) = none := by
    rw [trim_of_isTight ht]
    exact Primitive.ofChars?_eq_none (List.mem_of_getLast? hlast) (by decide)
  have hw : peel? (trim (mapFront ++ cs ++ back)) = some (.map, inner) := by
    rw [trim_of_isTight ht, hpeel]
  rw [ofChars_peel hp hw, ofChars_congr hi]
  rfl

end Wrapped

end Descriptor

end Storefront
