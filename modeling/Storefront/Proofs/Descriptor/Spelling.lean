import Storefront.Proofs.Descriptor.RoundTrip
import Storefront.Proofs.Text.Casing

namespace Storefront.Descriptor

open Text

/-- The spellings of a descriptor. Blanks may stand around the text and around every text inside. -/
inductive Spelled : Descriptor → List Char → Prop
  | primitive {p : Primitive} {cs : List Char} :
      InAnyCase p.name.toList cs → Spelled (.primitive p) cs
  | date : Spelled .date dateName
  | named (name : String) : Spelled (.named name) name.toList
  | nullable {d : Descriptor} {cs : List Char} :
      Spelled d cs → Spelled (.nullable d) (cs ++ nullMark)
  | optional {d : Descriptor} {cs : List Char} :
      Spelled d cs → Spelled (.optional d) (cs ++ undefinedMark)
  | array {d : Descriptor} {cs : List Char} :
      Spelled d cs → Spelled (.array d) (arrayFront ++ cs ++ arrayBack)
  | map {d : Descriptor} {cs back : List Char} : back ∈ mapBacks →
      Spelled d cs → Spelled (.map d) (mapFront ++ cs ++ back)
  | blanks {d : Descriptor} {front cs back : List Char} : (∀ c ∈ front, isBlank c) →
      (∀ c ∈ back, isBlank c) → Spelled d cs → Spelled d (front ++ cs ++ back)

structure IsPlainName (name : String) : Prop where
  ne_empty : name ≠ ""
  isName : IsName name
  no_semicolon : name.toList.getLast? ≠ some ';'

def Closed (cs : List Char) : Prop :=
  ∃ c, (trim cs).getLast? = some c ∧ c ≠ ';'

variable {cs : List Char} {d : Descriptor}

namespace Closed

theorem ne_nil (h : Closed cs) : trim cs ≠ [] := by
  obtain ⟨c, hc, -⟩ := h
  intro ht
  rw [ht] at hc
  cases hc

theorem getLast?_ne (h : Closed cs) : (trim cs).getLast? ≠ some ';' := by
  obtain ⟨c, hc, hne⟩ := h
  rw [hc]
  exact fun h ↦ hne (Option.some.inj h)

theorem of_getLast? {c : Char} (h : cs.getLast? = some c) (hb : isBlank c = false) (hc : c ≠ ';') :
    Closed cs :=
  ⟨c, getLast?_trim h hb, hc⟩

end Closed

theorem inAnyCase_name_iff {p : Primitive} :
    InAnyCase p.name.toList cs ↔ Primitive.ofChars? cs = some p :=
  (inAnyCase_iff p.isLower_of_mem_name).trans Primitive.ofChars?_eq_some_iff.symm

theorem closed_of_ofChars? {p : Primitive} (h : Primitive.ofChars? cs = some p) :
    trim cs = cs ∧ Closed cs := by
  have hlower := Primitive.isLower_of_ofChars? h
  have hblank : ∀ c ∈ cs, isBlank c = false :=
    fun c hc ↦ isBlank_of_isLower_toLower (hlower c hc)
  have hne : cs ≠ [] := by
    rintro rfl
    cases p <;> cases h
  have hlast := List.getLast?_eq_some_getLast hne
  have hmem := List.getLast_mem hne
  refine ⟨trim_of_isTight (isTight_of_forall hblank), .of_getLast? hlast (hblank _ hmem) ?_⟩
  intro hc
  have hsemicolon := hlower _ hmem
  rw [hc] at hsemicolon
  exact absurd hsemicolon (by decide)

theorem IsPlainName.closed {name : String} (h : IsPlainName name) : Closed name.toList := by
  have ht : name.toList = trim name.toList := toList_of_ofChars_eq_named h.isName
  have hne : trim name.toList ≠ [] := by
    rw [← ht]
    exact fun he ↦ h.ne_empty (String.toList_eq_nil_iff.1 he)
  refine ⟨_, List.getLast?_eq_some_getLast hne, ?_⟩
  intro hc
  apply h.no_semicolon
  rw [ht, List.getLast?_eq_some_getLast hne, hc]

/-- Every spelling of a descriptor with a plain name is read as that descriptor. -/
theorem Spelled.ofChars_eq (h : Spelled d cs) (hd : d.EveryName IsPlainName) :
    ofChars cs = d ∧ Closed cs := by
  induction h with
  | primitive hcase =>
    have hp := inAnyCase_name_iff.1 hcase
    obtain ⟨ht, hclosed⟩ := closed_of_ofChars? hp
    exact ⟨ofChars_primitive (by rwa [ht]), hclosed⟩
  | date => exact ⟨ofChars_dateName, .of_getLast? rfl rfl (by decide)⟩
  | named name => exact ⟨hd.isName, hd.closed⟩
  | nullable _ ih =>
    obtain ⟨hread, hclosed⟩ := ih hd
    rw [ofChars_nullable hclosed.ne_nil, hread]
    exact ⟨rfl, .of_getLast? (List.mem_getLast?_append_of_mem_getLast? rfl) rfl (by decide)⟩
  | optional _ ih =>
    obtain ⟨hread, hclosed⟩ := ih hd
    rw [ofChars_optional hclosed.ne_nil, hread]
    exact ⟨rfl, .of_getLast? (List.mem_getLast?_append_of_mem_getLast? rfl) rfl (by decide)⟩
  | array _ ih =>
    rw [ofChars_array, (ih hd).1]
    exact ⟨rfl, .of_getLast? (List.mem_getLast?_append_of_mem_getLast? rfl) rfl (by decide)⟩
  | map hb _ ih =>
    obtain ⟨hread, hclosed⟩ := ih hd
    rw [ofChars_map hb (.inr hclosed.getLast?_ne), hread]
    exact ⟨rfl, .of_getLast? (getLast?_mapBack hb _) rfl (by decide)⟩
  | @blanks d front cs back hf hb _ ih =>
    obtain ⟨hread, c, hlast, hc⟩ := ih hd
    have ht : trim (front ++ cs ++ back) = trim cs := trim_blanks hf hb
    exact ⟨(ofChars_congr ht).trans hread, c, by rwa [ht], hc⟩

/-- Every text is a spelling of what is read from it. -/
theorem spelled_ofChars (cs : List Char) : Spelled (ofChars cs) cs := by
  induction hn : cs.length using Nat.strong_induction_on generalizing cs with
  | _ n ih =>
    subst hn
    obtain ⟨-, front, back, hf, hb, hcs⟩ := exists_trim cs
    suffices h : Spelled (ofChars cs) (trim cs) by
      have := Spelled.blanks hf hb h
      rwa [← hcs] at this
    rcases ofChars_cases cs with ⟨p, hp, h⟩ | ⟨w, inner, hw, h⟩ | ⟨hd, h⟩ | h
    · rw [h]
      exact .primitive (inAnyCase_name_iff.2 hp)
    · have hlt := Nat.lt_of_lt_of_le (length_peel hw) (length_trim_le cs)
      have hi := ih _ hlt inner rfl
      rw [h]
      rcases peel?_cases hw with ⟨rfl, hcs⟩ | ⟨rfl, hcs⟩ | ⟨rfl, hcs⟩ | ⟨rfl, back, hb, hcs⟩
      · rw [hcs]
        exact .nullable hi
      · rw [hcs]
        exact .optional hi
      · rw [hcs]
        exact .array hi
      · rw [hcs]
        exact .map hb hi
    · rw [h, hd]
      exact .date
    · have hname := Spelled.named (String.ofList (trim cs))
      rwa [String.toList_ofList, ← h] at hname

/-- A text is read as a descriptor with a plain name exactly when it is one of its spellings. -/
theorem parse_eq_iff_spelled {s : String} (hd : d.EveryName IsPlainName) :
    parse s = d ↔ Spelled d s.toList := by
  constructor
  · rintro rfl
    exact spelled_ofChars s.toList
  · exact fun h ↦ (h.ofChars_eq hd).1

/-- The name holds the front of an array, and the backs of three wrappers meet after it. -/
theorem parse_eq_iff_spelled_nested :
    let d : Descriptor := .optional (.map (.array (.nullable (.named "Array<Foo"))))
    let s := "\n\x7b [key: string]: Array<\tArray<Foo | null >\u3000\x7d | undefined"
    d.EveryName IsPlainName ∧ Spelled d s.toList ∧ parse s = d := by
  intro d s
  have hd : d.EveryName IsPlainName := by
    refine ⟨?_, ?_, ?_⟩
    · decide
    · exact (by decide +kernel : parse "Array<Foo" = .named "Array<Foo")
    · decide
  have hblank {c : Char} (h : isBlank c) : ∀ x ∈ [c], isBlank x :=
    List.forall_mem_singleton.2 h
  have hitem : Spelled (.nullable (.named "Array<Foo")) "\tArray<Foo | null ".toList :=
    @Spelled.blanks _ ['\t'] _ [' '] (hblank rfl) (hblank rfl) (.nullable (.named _))
  have hbody : Spelled (.array (.nullable (.named "Array<Foo")))
      "Array<\tArray<Foo | null >\u3000".toList :=
    @Spelled.blanks _ [] _ ['\u3000'] nofun (hblank rfl) (.array hitem)
  have hback : "\x7d".toList ∈ mapBacks := List.mem_of_elem_eq_true rfl
  have htext : s.toList = ['\n'] ++ (mapFront ++ "Array<\tArray<Foo | null >\u3000".toList ++
      "\x7d".toList ++ undefinedMark) ++ [] := by
    decide +kernel
  have hs : Spelled d s.toList := by
    rw [htext]
    exact .blanks (hblank rfl) nofun (.optional (.map hback hbody))
  exact ⟨hd, hs, (parse_eq_iff_spelled hd).2 hs⟩

end Storefront.Descriptor
