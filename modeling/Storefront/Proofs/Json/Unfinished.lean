import Storefront.Proofs.Json.Spelling

namespace Storefront.Json

/-- The characters of a number so far, and what is kept of them, last first. -/
structure Numeral (part : NumberPart) (cs seen : List Char) : Prop where
  spelled : Spelled part seen
  reprinted : reprint cs = seen.reverse
  last : ∃ front c, cs = front ++ [c] ∧ (part = .mark ↔ isMark c)

inductive Halved : Option Nat → List Char → List Char → Prop
  | whole {cs ds : List Char} : Literal cs ds → Halved none cs ds
  | half {cs ds digits : List Char} {high : Nat} : Literal cs ds → digits.length = 4 →
      hexNumber? digits = some high → isHighSurrogate high →
      Halved (some high) (cs ++ '\\' :: 'u' :: digits) ds

inductive Quoted : StringPart → List Char → List Char → Prop
  | plain {cs ds : List Char} : Literal cs ds → Quoted .plain cs ds
  | escape {cs ds : List Char} : Literal cs ds → Quoted .escape (cs ++ ['\\']) ds
  | hex {high : Option Nat} {cs ds digits : List Char} {need : Nat} {code : Option Nat} :
      Halved high cs ds → 0 < need →
      (∀ n, code = some n → digits.length + need = 4 ∧ hexNumber? digits = some n) →
      Quoted (.hex high need code) (cs ++ '\\' :: 'u' :: digits) ds
  | pairSlash {high : Nat} {cs ds : List Char} : Halved (some high) cs ds →
      Quoted (.pairSlash high) cs ds
  | pairLetter {high : Nat} {cs ds : List Char} : Halved (some high) cs ds →
      Quoted (.pairLetter high) (cs ++ ['\\']) ds

variable {c : Char} {cs seen : List Char}

section Numbers

variable {part part' : NumberPart}

/-- A character is written as it is printed, with a plus before it where a sign is missing. -/
theorem NumberPart.reverse_write (h : part.next c = some (some part')) (seen : List Char) :
    (part.write c seen).reverse = seen.reverse ++
      if part = .mark ∧ isSign c = false then ['+', smallMark c] else [smallMark c] := by
  by_cases hp : part = .mark
  · subst hp
    have hc : smallMark c = c := by
      refine if_neg ?_
      rintro rfl
      cases h
    have hw : mark.write c seen = if isSign c then c :: seen else c :: '+' :: seen := rfl
    cases hs : isSign c <;> simp [hw, hs, hc]
  · have hw : part.write c seen = smallMark c :: seen := by
      rw [smallMark]
      cases part with
      | mark => contradiction
      | minus | zero | whole | point | fraction | sign | exponent =>
        simp only [write]
        split <;> rfl
    rw [hw, List.reverse_cons, if_neg (fun hm ↦ hp hm.1)]

theorem Numeral.next (h : Numeral part cs seen) (hc : part.next c = some (some part')) :
    Numeral part' (cs ++ [c]) (part.write c seen) where
  spelled := h.spelled.next hc
  reprinted := by
    obtain ⟨front, d, rfl, hd⟩ := h.last
    have hr := reprint_concat front d c
    rw [h.reprinted] at hr
    rw [List.append_assoc, List.singleton_append, hr, NumberPart.reverse_write hc]
    simp [hd]
  last := ⟨cs, c, rfl, NumberPart.eq_mark_iff hc⟩

theorem Numeral.one (hs : Spelled part [c]) (hp : part ≠ .mark) (hc : c.isDigit ∨ c = '-') :
    Numeral part [c] [c] where
  spelled := hs
  reprinted := by
    have hne : c ≠ 'E' := by
      rintro rfl
      simp at hc
    rw [reprint, smallMark, if_neg hne]
    rfl
  last := by
    refine ⟨[], c, rfl, iff_of_false hp ?_⟩
    intro hm
    simp only [isMark, Bool.or_eq_true, decide_eq_true_eq] at hm
    rcases hm with rfl | rfl <;> simp at hc

theorem Numeral.first (h : NumberPart.first? c = some part) : Numeral part [c] [c] := by
  rcases first?_eq_some h with ⟨rfl, rfl⟩ | ⟨rfl, rfl⟩ | ⟨hd, hz, rfl⟩
  · exact .one .minus (by decide) (.inr rfl)
  · exact .one .zero (by decide) (.inl rfl)
  · exact .one (.whole hd hz) (by decide) (.inl hd)

theorem numeral_of_readNumeral {text : String} {v : Json} (h : readNumeral text = .ok v) :
    ∃ part seen, v = numberOf seen ∧ part.complete ∧ Numeral part text.toList seen :=
  readNumeral_preserves (fun _ _ hc ↦ .first hc) (fun _ _ _ _ _ hn hc ↦ hn.next hc) h

end Numbers

section Strings

variable {part part' : StringPart} {seen' digits : List Char} {high : Option Nat} {n : Nat}

theorem toNat_lt_of_hexValue? (h : Text.hexValue? c = some n) : c.toNat < 103 := by
  simp only [Text.hexValue?] at h
  grind

theorem utf8Size_of_hexValue? (h : Text.hexValue? c = some n) : c.utf8Size = 1 := by
  have hc : c.toNat ≤ 127 := Nat.le_trans (Nat.le_of_lt (toNat_lt_of_hexValue? h)) (by decide)
  exact Char.utf8Size_eq_one_iff.2 hc

theorem Halved.close (h : Halved high cs seen.reverse) (hl : digits.length = 4)
    (hn : hexNumber? digits = some n) (he : endHex high n seen = .ok (part', seen')) :
    Quoted part' (cs ++ '\\' :: 'u' :: digits) seen'.reverse := by
  cases h with
  | whole hs =>
    simp only [endHex] at he
    split at he
    · cases he
    next hlow =>
    split at he
    · next hhigh =>
      cases he
      exact .pairSlash (.half hs hl hn hhigh)
    · next hhigh =>
      cases he
      rw [List.reverse_cons]
      exact .plain (hs.snoc (.code hl hn (eq_false_of_ne_true hhigh) (eq_false_of_ne_true hlow)))
  | half hs hl' hn' hhigh =>
    simp only [endHex] at he
    split at he
    · next hlow =>
      cases he
      rw [List.reverse_cons, List.append_assoc]
      exact .plain (hs.snoc (.pair hl' hl hn' hn hhigh hlow))
    · cases he

theorem Quoted.next (h : Quoted part cs seen.reverse) (hc : ¬ (part = .plain ∧ c = '"'))
    (hs : stepStringPart part seen c = .ok (part', seen')) :
    Quoted part' (cs ++ [c]) seen'.reverse := by
  cases h with
  | plain hl =>
    rw [stepStringPart] at hs
    split at hs
    · next hb =>
      cases hs
      rw [hb]
      exact .escape hl
    next hb =>
    split at hs
    · cases hs
    · next hlow =>
      cases hs
      rw [List.reverse_cons]
      exact .plain (hl.snoc (.plain (fun hq ↦ hc ⟨rfl, hq⟩) hb (Nat.le_of_not_lt hlow)))
  | escape hl =>
    rw [stepStringPart] at hs
    split at hs
    · next hu =>
      cases hs
      rw [hu, List.append_assoc]
      exact @Quoted.hex none _ _ [] 4 (some 0) (.whole hl) (by decide) fun n hn ↦ ⟨rfl, hn⟩
    split at hs
    · next hd =>
      cases hs
      rw [List.reverse_cons, List.append_assoc]
      exact .plain (hl.snoc (.short hd))
    · cases hs
  | @hex high cs _ digits need code hh hneed hcode =>
    have hdigit : ∀ n, (do return (← code) * 16 + (← Text.hexValue? c)) = some n →
        c.utf8Size = 1 ∧ digits.length + need = 4 ∧ hexNumber? (digits ++ [c]) = some n := by
      intro n hn
      obtain ⟨m, hm, hn'⟩ := Option.bind_eq_some_iff.1 hn
      obtain ⟨k, hk, -⟩ := Option.bind_eq_some_iff.1 hn'
      obtain ⟨hl, hd⟩ := hcode m hm
      refine ⟨utf8Size_of_hexValue? hk, hl, ?_⟩
      rw [hexNumber?_concat, hd, ← hm, hn]
    simp only [List.append_assoc, List.cons_append]
    simp only [stepStringPart] at hs
    split at hs
    · next hlt =>
      cases hs
      refine .hex hh (by omega) ?_
      intro n hn
      obtain ⟨hsize, hl, hd⟩ := hdigit n hn
      refine ⟨?_, hd⟩
      rw [List.length_append, List.length_singleton]
      omega
    · next hlt =>
      split at hs
      · next n hn =>
        obtain ⟨hsize, hl, hd⟩ := hdigit n hn
        refine hh.close ?_ hd hs
        rw [List.length_append, List.length_singleton]
        omega
      · cases hs
  | pairSlash hh =>
    rw [stepStringPart] at hs
    split at hs
    · next hb =>
      cases hs
      rw [hb]
      exact .pairLetter hh
    · cases hs
  | @pairLetter high cs _ hh =>
    rw [stepStringPart] at hs
    split at hs
    · next hu =>
      cases hs
      rw [hu, List.append_assoc]
      exact @Quoted.hex (some high) _ _ [] 4 (some 0) hh (by decide) fun n hn ↦ ⟨rfl, hn⟩
    · cases hs

end Strings

end Storefront.Json
