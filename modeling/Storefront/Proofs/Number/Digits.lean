import Mathlib.Data.List.Basic
import Mathlib.Data.List.Induction

namespace Storefront.Number

theorem exists_digitChar {c : Char} (h : c.isDigit) : ∃ d < 10, c = Nat.digitChar d := by
  have hc : 48 ≤ c.toNat ∧ c.toNat ≤ 57 := Char.isDigit_iff_toNat.1 h
  refine ⟨c.toNat - 48, by omega, Char.toNat_inj.1 ?_⟩
  rw [Nat.toNat_digitChar_of_lt_ten (by omega)]
  omega

/-- Only zero is written with a zero in front. -/
theorem eq_zero_of_head?_toDigits {n : Nat} (h : (Nat.toDigits 10 n).head? = some '0') : n = 0 := by
  induction n using Nat.strongRecOn with
  | ind n ih =>
    by_cases hn : n < 10
    · rw [Nat.toDigits_of_lt_base hn] at h
      have hd : n.digitChar.toNat = 48 := congrArg Char.toNat (Option.some.inj h)
      rw [Nat.toNat_digitChar_of_lt_ten hn] at hd
      omega
    · rw [Nat.toDigits_of_base_le (by decide) (Nat.le_of_not_lt hn),
        List.head?_append_of_ne_nil _ Nat.toDigits_ne_nil] at h
      have := ih (n / 10) (by omega) h
      omega

/-- Digits without a zero in front are the text of their value. -/
theorem toDigits_ofDigitChars {cs : List Char} (hd : ∀ c ∈ cs, c.isDigit) (hne : cs ≠ [])
    (hz : cs.head? = some '0' → cs = ['0']) : Nat.toDigits 10 (Nat.ofDigitChars 10 cs 0) = cs := by
  induction cs using List.reverseRecOn with
  | nil => exact absurd rfl hne
  | append_singleton cs c ih =>
    rw [List.forall_mem_append] at hd
    obtain ⟨d, hlt, rfl⟩ := exists_digitChar (hd.2 c List.mem_cons_self)
    rw [Nat.ofDigitChars_append, Nat.ofDigitChars_cons_digitChar_of_lt_ten hlt,
      Nat.ofDigitChars_nil]
    by_cases hnil : cs = []
    · rw [hnil, Nat.ofDigitChars_nil, Nat.mul_zero, Nat.zero_add, Nat.toDigits_of_lt_base hlt]
      rfl
    · rw [List.head?_append_of_ne_nil _ hnil] at hz
      have hfirst : cs.head? ≠ some '0' := by
        intro h
        have hl := congrArg List.length (hz h)
        rw [List.length_append, List.length_singleton, List.length_singleton] at hl
        exact hnil (List.eq_nil_of_length_eq_zero (Nat.succ.inj hl))
      have hcs := ih hd.1 hnil fun h ↦ absurd h hfirst
      have hpos : 0 < Nat.ofDigitChars 10 cs 0 := by
        refine Nat.pos_of_ne_zero fun h ↦ hfirst ?_
        rw [← hcs, h]
        rfl
      rw [← Nat.toDigits_append_toDigits (by decide) hpos hlt, hcs, Nat.toDigits_of_lt_base hlt]

end Storefront.Number
