import Storefront.Proofs.Json.Readable
import Storefront.Proofs.Number.Numeral

namespace Storefront.Json

open Number

/-- The characters of a number up to some part are a numeral, or a numeral and the first characters
of its next part. -/
def NumberPart.Covers (seen : List Char) : NumberPart → Prop
  | .minus => seen = ['-']
  | .zero | .whole => ∃ n : Numeral, n.IsPlain ∧ seen.reverse = n.chars
  | .point => ∃ n : Numeral, n.IsPlain ∧ seen.reverse = n.chars ++ ['.']
  | .fraction => ∃ n : Numeral, n.exponent = none ∧ n.fraction ≠ [] ∧ seen.reverse = n.chars
  | .mark => ∃ n : Numeral, n.exponent = none ∧ seen.reverse = n.chars ++ ['e']
  | .sign => ∃ (n : Numeral) (negative : Bool), n.exponent = none ∧
      seen.reverse = n.chars ++ ['e', if negative then '-' else '+']
  | .exponent => ∃ n : Numeral, n.exponent.isSome ∧ seen.reverse = n.chars

variable {part part' : NumberPart} {seen : List Char} {c : Char}

theorem covers_afterFraction {n : Numeral} (he : n.exponent = none) (hs : seen.reverse = n.chars)
    (hn : NumberPart.next.afterFraction c = some part') (hc : c ≠ 'E') :
    part'.Covers (c :: seen) := by
  rw [NumberPart.next.afterFraction] at hn
  split at hn
  · next h =>
    cases hn
    obtain rfl : c = 'e' := by simpa [hc] using h
    exact ⟨n, he, by rw [List.reverse_cons, hs]⟩
  · cases hn

theorem covers_afterWhole {n : Numeral} (h : n.IsPlain) (hs : seen.reverse = n.chars)
    (hn : NumberPart.next.afterWhole c = some part') (hc : c ≠ 'E') :
    part'.Covers (c :: seen) := by
  rw [NumberPart.next.afterWhole] at hn
  split at hn
  · next hp =>
    cases hn
    exact ⟨n, h, by rw [List.reverse_cons, hs, hp]⟩
  · exact covers_afterFraction h.2 hs hn hc

theorem covers_next (h : part.Covers seen) (hn : part.next c = some (some part'))
    (hw : part.write c seen = c :: seen) : part'.Covers (c :: seen) := by
  have hE (hm : part ≠ .mark) : c ≠ 'E' := by
    rintro rfl
    cases part <;> first | contradiction | exact absurd (List.cons.inj hw).1 (by decide)
  cases part with
  | minus =>
    obtain rfl : seen = ['-'] := h
    have hplain (hd : c.isDigit) : ∃ n : Numeral, n.IsPlain ∧ ['-', c] = n.chars := by
      obtain ⟨n, hp, hs⟩ := Numeral.exists_digit hd true
      exact ⟨n, hp, hs.symm⟩
    rw [NumberPart.next] at hn
    split at hn
    · next hz =>
      cases hn
      exact hplain (hz ▸ by decide)
    split at hn
    · next hd =>
      cases hn
      exact hplain hd
    · cases hn
  | zero =>
    obtain ⟨n, hp, hs⟩ := h
    rw [NumberPart.next] at hn
    split at hn
    · cases hn
    · exact covers_afterWhole hp hs (Option.some.inj hn) (hE (by decide))
  | whole =>
    obtain ⟨n, hp, hs⟩ := h
    rw [NumberPart.next] at hn
    split at hn
    · next hd =>
      cases hn
      obtain ⟨n', hp', hs'⟩ := Numeral.exists_whole hd hp
      exact ⟨n', hp', by rw [List.reverse_cons, hs, hs']⟩
    · exact covers_afterWhole hp hs (Option.some.inj hn) (hE (by decide))
  | point =>
    obtain ⟨n, hp, hs⟩ := h
    rw [NumberPart.next] at hn
    split at hn
    · next hd =>
      cases hn
      obtain ⟨n', he', hf', hs'⟩ := Numeral.exists_point hd hp
      exact ⟨n', he', hf', by rw [List.reverse_cons, hs, hs', List.append_assoc]; rfl⟩
    · cases hn
  | fraction =>
    obtain ⟨n, he, hf, hs⟩ := h
    rw [NumberPart.next] at hn
    split at hn
    · next hd =>
      cases hn
      obtain ⟨n', he', hf', hs'⟩ := Numeral.exists_fraction hd he hf
      exact ⟨n', he', hf', by rw [List.reverse_cons, hs, hs']⟩
    · exact covers_afterFraction he hs (Option.some.inj hn) (hE (by decide))
  | mark =>
    obtain ⟨n, he, hs⟩ := h
    rw [NumberPart.next] at hn
    split at hn
    · next hsign =>
      cases hn
      refine ⟨n, c = '-', he, ?_⟩
      rw [List.reverse_cons, hs, List.append_assoc]
      rcases Bool.or_eq_true_iff.1 hsign with h | h <;> rw [of_decide_eq_true h] <;> rfl
    · next hsign =>
      rw [NumberPart.write, if_neg (by simpa using hsign)] at hw
      simp at hw
  | sign =>
    obtain ⟨n, negative, he, hs⟩ := h
    rw [NumberPart.next, NumberPart.next.digitOfExponent] at hn
    split at hn
    · next hd =>
      cases hn
      obtain ⟨n', he', hs'⟩ := Numeral.exists_mark hd he negative
      exact ⟨n', he', by rw [List.reverse_cons, hs, hs', List.append_assoc]; rfl⟩
    · cases hn
  | exponent =>
    obtain ⟨n, he, hs⟩ := h
    rw [NumberPart.next] at hn
    split at hn
    · next hd =>
      cases hn
      obtain ⟨n', he', hs'⟩ := Numeral.exists_exponent hd he
      exact ⟨n', he', by rw [List.reverse_cons, hs, hs']⟩
    · cases hn

theorem Spelled.covers (h : Spelled part seen) : part.Covers seen := by
  induction h with
  | minus => rfl
  | zero =>
    obtain ⟨n, hp, hs⟩ := Numeral.exists_digit (c := '0') (by decide) false
    exact ⟨n, hp, hs.symm⟩
  | whole hd _ =>
    obtain ⟨n, hp, hs⟩ := Numeral.exists_digit hd false
    exact ⟨n, hp, hs.symm⟩
  | more _ hn hw ih => exact covers_next ih hn hw

/-- A number that the reader returns is a numeral. -/
theorem Spelled.exists_numeral (h : Spelled part seen) (hc : part.complete) :
    ∃ n : Numeral, seen.reverse = n.chars := by
  have hcov := h.covers
  cases part with
  | minus | point | mark | sign => cases hc
  | zero | whole | exponent =>
    obtain ⟨n, -, hs⟩ := hcov
    exact ⟨n, hs⟩
  | fraction =>
    obtain ⟨n, -, -, hs⟩ := hcov
    exact ⟨n, hs⟩

theorem Readable.exists_numeral {k : Nat} {lexeme : String} (h : Readable k (.number lexeme)) :
    ∃ n : Numeral, lexeme.toList = n.chars := by
  generalize hv : Json.number lexeme = v at h
  cases h with
  | null | boolean | string | array | object => cases hv
  | number _ hs hp =>
    obtain ⟨n, hn⟩ := hs.exists_numeral hp
    refine ⟨n, ?_⟩
    rw [numberOf, Json.number.injEq] at hv
    rw [hv, String.toList_ofList, hn]

end Storefront.Json
