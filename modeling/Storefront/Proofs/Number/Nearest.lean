import Mathlib.Tactic.Ring
import Storefront.Number.Double

namespace Storefront.Number.Double

theorem nearestPlace_eq (num den : Nat) : nearestPlace num den =
    let shift := (num / den).log2 - 52
    let step := den * 2 ^ shift
    let place := shift * 2 ^ 52 + num / step
    let rest := num % step
    if 2 * rest > step ∨ (2 * rest = step ∧ place % 2 = 1) then place + 1 else place :=
  rfl

theorem log2_of_bounds {n k : Nat} (hl : 2 ^ k ≤ n) (hh : n < 2 ^ (k + 1)) : n.log2 = k :=
  (Nat.log2_eq_iff (Nat.ne_of_gt (Nat.lt_of_lt_of_le (Nat.two_pow_pos k) hl))).2 ⟨hl, hh⟩

theorem log2_mul_two_pow {n : Nat} (hn : n ≠ 0) (k : Nat) : (n * 2 ^ k).log2 = n.log2 + k := by
  apply log2_of_bounds
  · rw [Nat.pow_add]
    exact Nat.mul_le_mul_right _ (Nat.log2_self_le hn)
  · rw [Nat.add_right_comm, Nat.pow_add]
    exact Nat.mul_lt_mul_of_pos_right Nat.lt_log2_self (Nat.two_pow_pos k)

/-- Only the ratio counts. -/
theorem nearestPlace_mul_left {k : Nat} (hk : 0 < k) (num den : Nat) :
    nearestPlace (k * num) (k * den) = nearestPlace num den := by
  have hlt (a b : Nat) : 2 * (k * a) > k * b ↔ 2 * a > b := by
    rw [Nat.mul_left_comm]
    exact Nat.mul_lt_mul_left hk
  have heq (a b : Nat) : 2 * (k * a) = k * b ↔ 2 * a = b := by
    rw [Nat.mul_left_comm]
    exact Nat.mul_right_inj (Nat.ne_of_gt hk)
  simp only [nearestPlace_eq, Nat.mul_div_mul_left _ _ hk, Nat.mul_assoc, Nat.mul_mod_mul_left, hlt,
    heq]

theorem nearestPlace_congr {num den num' den' : Nat} (hd : 0 < den) (hd' : 0 < den')
    (h : num * den' = num' * den) : nearestPlace num den = nearestPlace num' den' :=
  calc nearestPlace num den
    _ = nearestPlace (den' * num) (den' * den) := (nearestPlace_mul_left hd' ..).symm
    _ = nearestPlace (den * num') (den * den') := by
      rw [Nat.mul_comm den' num, h, Nat.mul_comm num' den, Nat.mul_comm den' den]
    _ = nearestPlace num' den' := nearestPlace_mul_left hd ..

/-- A ratio below one half is nearest to zero. -/
theorem nearestPlace_of_small {num den : Nat} (h : 2 * num < den) : nearestPlace num den = 0 := by
  have hdiv : num / den = 0 := Nat.div_eq_of_lt (by omega)
  have hlog : Nat.log2 0 = 0 := by decide
  rw [nearestPlace_eq]
  simp only [hdiv, hlog, Nat.zero_sub, Nat.pow_zero, Nat.mul_one, Nat.zero_mul, Nat.zero_add,
    Nat.mod_eq_of_lt (show num < den by omega)]
  rw [if_neg (by omega)]

theorem infinity_le_nearestPlace {num : Nat} (h : 2098 ≤ num.log2) :
    infinity ≤ nearestPlace num 1 := by
  have hne : num ≠ 0 := by
    rintro rfl
    exact absurd h (by decide)
  have hself := Nat.log2_self_le hne
  have hinf : infinity = 2046 * 2 ^ 52 + 2 ^ 52 := rfl
  have hq : 2 ^ 52 ≤ num / (1 * 2 ^ (num.log2 - 52)) := by
    rw [Nat.one_mul, Nat.le_div_iff_mul_le (Nat.two_pow_pos _), ← Nat.pow_add]
    rwa [show 52 + (num.log2 - 52) = num.log2 by omega]
  have hs : 2046 * 2 ^ 52 ≤ (num.log2 - 52) * 2 ^ 52 := Nat.mul_le_mul_right _ (by omega)
  rw [nearestPlace_eq]
  simp only [Nat.div_one]
  split <;> omega

theorem unitsAt_eq (place : Nat) : unitsAt place = if place < 2 ^ 52 then place
    else (2 ^ 52 + place % 2 ^ 52) * 2 ^ (place / 2 ^ 52 - 1) :=
  rfl

theorem nearestPlace_unitsAt (place : Nat) : nearestPlace (unitsAt place) 1 = place := by
  rw [unitsAt_eq]
  split
  · next h =>
    have hlog : place.log2 - 52 = 0 := by
      by_cases h0 : place = 0
      · rw [h0]
        decide
      · have := (Nat.log2_lt h0).2 h
        omega
    rw [nearestPlace_eq]
    simp only [Nat.div_one, hlog, Nat.pow_zero, Nat.mul_one, Nat.mod_one]
    rw [if_neg (by omega)]
    omega
  · next h =>
    have hq : 1 ≤ place / 2 ^ 52 := (Nat.one_le_div_iff (Nat.two_pow_pos _)).2 (Nat.le_of_not_lt h)
    have hm : place % 2 ^ 52 < 2 ^ 52 := Nat.mod_lt _ (Nat.two_pow_pos _)
    have hlog : ((2 ^ 52 + place % 2 ^ 52) * 2 ^ (place / 2 ^ 52 - 1)).log2 - 52 =
        place / 2 ^ 52 - 1 := by
      rw [log2_mul_two_pow (by omega), log2_of_bounds (k := 52) (by omega) (by omega)]
      omega
    rw [nearestPlace_eq]
    simp only [Nat.div_one, hlog, Nat.one_mul, Nat.mul_div_cancel _ (Nat.two_pow_pos _), Nat.mul_mod_left]
    rw [if_neg (by have := Nat.two_pow_pos (place / 2 ^ 52 - 1); omega), Nat.sub_mul]
    omega

theorem ofPlace_place (x : Double) : ofPlace x.negative x.place = x := by
  obtain ⟨negative, place, hp⟩ := x
  simp only [ofPlace, Nat.min_eq_left hp]

theorem ofPlace_of_infinity_le {place : Nat} (h : infinity ≤ place) (negative : Bool) :
    ofPlace negative place = ofPlace negative infinity := by
  simp only [ofPlace, Nat.min_eq_right h, Nat.min_self]

/-- The smallest double is two to the power of minus this. -/
def binaryPlaces : Nat := 1074

theorem binaryPlaces_eq : binaryPlaces = 1074 :=
  rfl

theorem ofDecimal_cases (d : Decimal) : ofDecimal d =
    if d.digits = 0 ∨ d.exponent + d.digits.log2 + 1 < -330 then ofPlace d.negative 0
    else if 310 < d.exponent then ofPlace d.negative infinity
    else if 0 ≤ d.exponent then
      ofPlace d.negative (nearestPlace (d.digits * 10 ^ d.exponent.toNat * 2 ^ binaryPlaces) 1)
    else ofPlace d.negative
      (nearestPlace (d.digits * 2 ^ binaryPlaces) (10 ^ (-d.exponent).toNat)) := by
  -- a power of the numeral would be evaluated
  rw [ofDecimal, ← binaryPlaces_eq]
  simp only [Nat.pow_eq]

theorem toDecimal_eq (x : Double) :
    x.toDecimal = ⟨x.negative, x.units * 5 ^ binaryPlaces, -(binaryPlaces : Int)⟩ := by
  have hexp : (-1074 : Int) = -(binaryPlaces : Int) := rfl
  rw [toDecimal, hexp, ← binaryPlaces_eq, Nat.pow_eq]

def num (d : Decimal) : Nat :=
  d.digits * 10 ^ d.exponent.toNat * 2 ^ binaryPlaces

def den (d : Decimal) : Nat :=
  10 ^ (-d.exponent).toNat

theorem den_pos (d : Decimal) : 0 < den d :=
  Nat.pow_pos (by decide)

theorem two_mul_num_lt {d : Decimal} (h : d.exponent + d.digits.log2 + 1 < -330) :
    2 * num d < den d := by
  have hdigits : d.digits < 2 ^ (d.digits.log2 + 1) := Nat.lt_log2_self
  obtain ⟨k, hk, hpow⟩ : ∃ k ≤ 332, 2 ^ binaryPlaces * 2 ^ 2 ≤ 10 ^ k :=
    ⟨332, Nat.le_refl _, by decide +kernel⟩
  have hle : d.digits.log2 + k ≤ (-d.exponent).toNat := by omega
  calc 2 * num d
    _ = d.digits * (2 ^ binaryPlaces * 2) := by
      rw [num, show d.exponent.toNat = 0 by omega, Nat.pow_zero]
      ring
    _ < 2 ^ (d.digits.log2 + 1) * (2 ^ binaryPlaces * 2) :=
      Nat.mul_lt_mul_of_pos_right hdigits (Nat.mul_pos (Nat.two_pow_pos _) (by decide))
    _ = 2 ^ d.digits.log2 * (2 ^ binaryPlaces * 2 ^ 2) := by ring
    _ ≤ 10 ^ d.digits.log2 * 10 ^ k := Nat.mul_le_mul (Nat.pow_le_pow_left (by decide) _) hpow
    _ = 10 ^ (d.digits.log2 + k) := (Nat.pow_add ..).symm
    _ ≤ den d := Nat.pow_le_pow_right (by decide) hle

theorem le_log2_num {d : Decimal} (h0 : d.digits ≠ 0) (h : 310 < d.exponent) :
    2098 ≤ (num d).log2 := by
  have hne : num d ≠ 0 :=
    Nat.mul_ne_zero (Nat.mul_ne_zero h0 (Nat.ne_of_gt (Nat.pow_pos (by decide))))
      (Nat.ne_of_gt (Nat.two_pow_pos _))
  obtain ⟨k, hk, hpow⟩ : ∃ k ≤ 311, 2 ^ (2098 - binaryPlaces) ≤ 10 ^ k :=
    ⟨311, Nat.le_refl _, by decide +kernel⟩
  rw [Nat.le_log2 hne]
  calc 2 ^ 2098
    _ = 2 ^ (2098 - binaryPlaces) * 2 ^ binaryPlaces := by
      rw [← Nat.pow_add, Nat.sub_add_cancel (show binaryPlaces ≤ 2098 by decide)]
    _ ≤ 10 ^ d.exponent.toNat * 2 ^ binaryPlaces :=
      Nat.mul_le_mul_right _ (hpow.trans (Nat.pow_le_pow_right (by decide) (by omega)))
    _ ≤ num d := Nat.mul_le_mul_right _ (Nat.le_mul_of_pos_left _ (Nat.pos_of_ne_zero h0))

/-- The two tests that keep the powers small do not change the result. -/
theorem ofDecimal_eq (d : Decimal) :
    ofDecimal d = ofPlace d.negative (nearestPlace (num d) (den d)) := by
  rw [ofDecimal_cases]
  split
  · next h =>
    rw [nearestPlace_of_small]
    rcases h with h | h
    · rw [num, h]
      simp [den_pos]
    · exact two_mul_num_lt h
  · next h =>
    rw [not_or] at h
    split
    · next hb =>
      rw [den, show (-d.exponent).toNat = 0 by omega, Nat.pow_zero]
      exact (ofPlace_of_infinity_le (infinity_le_nearestPlace (le_log2_num h.1 hb)) _).symm
    · split
      · rw [den, show (-d.exponent).toNat = 0 by omega, Nat.pow_zero, num]
      · rw [num, den, show d.exponent.toNat = 0 by omega, Nat.pow_zero, Nat.mul_one]

/-- Zeros at the end of the digits are made up for by the exponent. -/
theorem ofDecimal_zeros (negative : Bool) (digits : Nat) (exponent : Int) (k : Nat) :
    ofDecimal ⟨negative, digits * 10 ^ k, exponent - k⟩ = ofDecimal ⟨negative, digits, exponent⟩ := by
  rw [ofDecimal_eq, ofDecimal_eq]
  apply congrArg
  apply nearestPlace_congr (den_pos _) (den_pos _)
  have hexp : k + (exponent - k).toNat + (-exponent).toNat =
      exponent.toNat + (-(exponent - k)).toNat := by omega
  calc digits * 10 ^ k * 10 ^ (exponent - k).toNat * 2 ^ binaryPlaces * 10 ^ (-exponent).toNat
    _ = digits * 2 ^ binaryPlaces * 10 ^ (k + (exponent - k).toNat + (-exponent).toNat) := by
      rw [Nat.pow_add, Nat.pow_add]
      ring
    _ = digits * 10 ^ exponent.toNat * 2 ^ binaryPlaces * 10 ^ (-(exponent - k)).toNat := by
      rw [hexp, Nat.pow_add]
      ring

theorem ofDecimal_toDecimal (x : Double) : ofDecimal x.toDecimal = x := by
  have hnum : num x.toDecimal = 10 ^ binaryPlaces * x.units := by
    rw [toDecimal_eq, num, show (-(binaryPlaces : Int)).toNat = 0 by omega, Nat.pow_zero,
      show 10 = 5 * 2 from rfl, Nat.mul_pow]
    ring
  have hden : den x.toDecimal = 10 ^ binaryPlaces * 1 := by
    rw [toDecimal_eq, den, Int.neg_neg, Int.toNat_natCast, Nat.mul_one]
  rw [ofDecimal_eq, hnum, hden, nearestPlace_mul_left (Nat.pow_pos (by decide)), units,
    nearestPlace_unitsAt]
  exact x.ofPlace_place

theorem ofDecimal_onGrid? {tie : Tie} {x : Double} {k : Nat} {d : Decimal}
    (h : onGrid? tie x k = some d) : ofDecimal d = x := by
  simp only [onGrid?] at h
  split at h
  · next hb =>
    cases h
    exact hb.1
  · split at h
    · next ha =>
      cases h
      exact ha
    · cases h

theorem ofDecimal_shortest (tie : Tie) (x : Double) : ofDecimal (x.shortest tie) = x := by
  suffices h : ∀ k, ofDecimal (shortestFrom tie x k) = x from h _
  intro k
  induction k with
  | zero => exact x.ofDecimal_toDecimal
  | succ k ih =>
    rw [shortestFrom]
    cases hg : onGrid? tie x (k + 1) with
    | none => exact ih
    | some d => exact ofDecimal_onGrid? hg

end Storefront.Number.Double
