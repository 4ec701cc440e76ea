import Storefront.Descriptor.Basic
import Storefront.Proofs.Descriptor.Reading

namespace Storefront.Descriptor

open Text

/-- No nullable and no optional stands around the empty name. -/
def Filled : Descriptor → Prop
  | .nullable d | .optional d => d ≠ .named "" ∧ d.Filled
  | .array d | .map d => d.Filled
  | .primitive _ | .date | .named _ => True

def IsName (name : String) : Prop :=
  parse name = .named name

variable {cs inner mark : List Char} {d : Descriptor} {w : Wrapper}

theorem ofChars_name (p : Primitive) : ofChars p.name.toList = .primitive p := by
  have ht : trim p.name.toList = p.name.toList := trim_of_isTight (by cases p <;> rfl)
  apply ofChars_primitive
  rw [ht, Primitive.ofChars?_eq_some_iff]
  cases p <;> rfl

theorem ofChars_dateName : ofChars dateName = .date :=
  ofChars_date rfl

theorem around_injective (w : Wrapper) : Function.Injective w.around := by
  intro d e h
  cases w <;> injection h

/-- Only a name can be written as nothing but blanks. -/
theorem eq_named_of_trim_chars (h : trim d.chars = []) :
    ∃ name, d = .named name ∧ trim name.toList = [] := by
  cases d with
  | named name => exact ⟨name, rfl, h⟩
  | primitive p => exact absurd h (trim_ne_nil (by cases p <;> rfl))
  | date => exact absurd h (trim_ne_nil rfl)
  | nullable d | optional d | array d | map d =>
    refine absurd h (trim_ne_nil ?_)
    rw [chars, List.getLast?_append]
    rfl

/-- A mark is read off again unless it follows nothing but blanks. -/
theorem ofChars_chars_marked_iff
    (hread : ∀ {cs}, trim cs ≠ [] → ofChars (cs ++ mark) = w.around (ofChars cs))
    (hmark : ∀ d, ofChars mark ≠ w.around d)
    (ih : ofChars d.chars = d ↔ d.EveryName IsName ∧ d.Filled) :
    ofChars (d.chars ++ mark) = w.around d ↔ d.EveryName IsName ∧ d ≠ .named "" ∧ d.Filled := by
  by_cases h : trim d.chars = []
  · obtain ⟨name, rfl, hn⟩ := eq_named_of_trim_chars h
    rw [ofChars_congr (trim_append_of_blank h mark)]
    refine iff_of_false (hmark _) ?_
    rintro ⟨hname, hne, -⟩
    exact hne (hname.symm.trans (ofChars_blank hn))
  · have hne : d ≠ .named "" := by
      rintro rfl
      exact h rfl
    rw [hread h, (around_injective w).eq_iff, ih, and_iff_right hne]

theorem ofChars_chars_iff (d : Descriptor) :
    ofChars d.chars = d ↔ d.EveryName IsName ∧ d.Filled := by
  induction d with
  | primitive p => exact iff_of_true (ofChars_name p) ⟨trivial, trivial⟩
  | date => exact iff_of_true ofChars_dateName ⟨trivial, trivial⟩
  | nullable d ih =>
    have hmark (d : Descriptor) : ofChars nullMark ≠ .nullable d := by
      rw [ofChars_nullMark]
      intro h
      cases h
    exact ofChars_chars_marked_iff (w := .nullable) ofChars_nullable hmark ih
  | optional d ih =>
    have hmark (d : Descriptor) : ofChars undefinedMark ≠ .optional d := by
      rw [ofChars_undefinedMark]
      intro h
      cases h
    exact ofChars_chars_marked_iff (w := .optional) ofChars_optional hmark ih
  | array d ih =>
    rw [chars, ofChars_array, array.injEq]
    exact ih
  | map d ih =>
    rw [chars, ofChars_map List.mem_cons_self (.inl rfl), map.injEq]
    exact ih
  | named name => exact (and_iff_left trivial).symm

/-- What stands before a mark is not blank, and so not read as the empty name. -/
theorem ofChars_ne_of_isTight {c : Char} (h : isTight (inner ++ c :: mark)) (hc : isBlank c) :
    ofChars inner ≠ .named "" :=
  fun he ↦ trim_ne_nil_of_isTight h hc (toList_of_ofChars_eq_named he).symm

theorem stable_ofChars (cs : List Char) :
    (ofChars cs).EveryName IsName ∧ (ofChars cs).Filled := by
  induction hn : cs.length using Nat.strong_induction_on generalizing cs with
  | _ n ih =>
    subst hn
    rcases ofChars_cases cs with ⟨p, -, h⟩ | ⟨w, inner, hw, h⟩ | ⟨-, h⟩ | h
    · rw [h]
      exact ⟨trivial, trivial⟩
    · have hlt := Nat.lt_of_lt_of_le (length_peel hw) (length_trim_le cs)
      obtain ⟨hname, hfilled⟩ := ih _ hlt inner rfl
      have ht := isTight_trim cs
      rw [h]
      rcases peel?_cases hw with ⟨rfl, hcs⟩ | ⟨rfl, hcs⟩ | ⟨rfl, -⟩ | ⟨rfl, -⟩
      · rw [hcs] at ht
        exact ⟨hname, ofChars_ne_of_isTight ht rfl, hfilled⟩
      · rw [hcs] at ht
        exact ⟨hname, ofChars_ne_of_isTight ht rfl, hfilled⟩
      · exact ⟨hname, hfilled⟩
      · exact ⟨hname, hfilled⟩
    · rw [h]
      exact ⟨trivial, trivial⟩
    · have hstable : ofChars (trim cs) = ofChars cs := ofChars_congr (trim_trim cs)
      rw [h] at hstable ⊢
      refine ⟨?_, trivial⟩
      rwa [EveryName, IsName, parse, String.toList_ofList]

theorem parse_text (d : Descriptor) : parse d.text = ofChars d.chars := by
  rw [parse, text, String.toList_ofList]

/-- A descriptor is read back from its text exactly when its name is read as a name and nothing
empty is marked as nullable or optional. Whatever is read from a text is such a descriptor, and so
writing it and reading it again changes nothing. -/
theorem parse_text_eq_iff :
    (∀ d : Descriptor, parse d.text = d ↔
      d.EveryName (fun name ↦ parse name = .named name) ∧ d.Filled) ∧
    ∀ s : String, (parse s).EveryName (fun name ↦ parse name = .named name) ∧ (parse s).Filled ∧
      parse (parse s).text = parse s := by
  constructor
  · intro d
    rw [parse_text]
    exact ofChars_chars_iff d
  · intro s
    have h : (parse s).EveryName IsName ∧ (parse s).Filled := stable_ofChars s.toList
    refine ⟨h.1, h.2, ?_⟩
    rw [parse_text]
    exact (ofChars_chars_iff _).2 h

example : parse (nullable (named "")).text = named "| null" := by
  decide +kernel

end Storefront.Descriptor
