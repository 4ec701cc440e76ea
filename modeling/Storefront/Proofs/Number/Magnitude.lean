import Mathlib.Algebra.Order.AbsoluteValue.Basic
import Mathlib.Algebra.Order.Field.Power
import Mathlib.Data.Rat.Cast.Order
import Mathlib.Order.Monotone.Basic
import Mathlib.Tactic.FieldSimp
import Mathlib.Tactic.Linarith
import Mathlib.Tactic.NormNum
import Mathlib.Tactic.Positivity
import Storefront.Proofs.Number.Nearest

namespace Storefront.Number

def withSign (negative : Bool) (q : ℚ) : ℚ :=
  if negative then -q else q

theorem withSign_sub_withSign (negative : Bool) (p q : ℚ) :
    withSign negative p - withSign negative q = withSign negative (p - q) := by
  cases negative
  · rfl
  · exact (neg_sub' p q).symm

theorem abs_withSign (negative : Bool) (q : ℚ) : |withSign negative q| = |q| := by
  cases negative
  · rfl
  · exact abs_neg q

theorem withSign_zero (negative : Bool) : withSign negative 0 = 0 := by
  cases negative
  · rfl
  · exact neg_zero

section Magnitudes

variable {p q : ℚ} (hp : 0 ≤ p) (hq : 0 ≤ q)
include hp hq

theorem abs_withSign_sub_of_ne {s t : Bool} (h : s ≠ t) : |withSign s p - withSign t q| = p + q := by
  obtain rfl : t = !s := Bool.eq_not.2 h.symm
  cases s
  · exact (congrArg _ (sub_neg_eq_add p q)).trans (abs_of_nonneg (add_nonneg hp hq))
  · exact (congrArg _ (neg_add' p q).symm).trans
      ((abs_neg (p + q)).trans (abs_of_nonneg (add_nonneg hp hq)))

/-- Two magnitudes are nearest when they have the same sign. -/
theorem abs_sub_le_abs_withSign_sub (s t : Bool) : |p - q| ≤ |withSign s p - withSign t q| := by
  by_cases h : s = t
  · rw [h, withSign_sub_withSign, abs_withSign]
  · rw [abs_withSign_sub_of_ne hp hq h, abs_le]
    constructor <;> linarith

end Magnitudes

/-- Whether one point is as near as another is told by the middle between them. -/
theorem abs_sub_le_abs_sub_iff (q a b : ℚ) :
    |q - a| ≤ |q - b| ↔ 0 ≤ (a - b) * (2 * q - (a + b)) := by
  rw [← sq_le_sq, ← sub_nonneg, show (q - b) ^ 2 - (q - a) ^ 2 = (a - b) * (2 * q - (a + b)) by ring]

theorem abs_sub_le_abs_sub_iff_of_lt {q a b : ℚ} (h : a < b) :
    |q - a| ≤ |q - b| ↔ 2 * q ≤ a + b := by
  rw [abs_sub_le_abs_sub_iff, ← neg_mul_neg, mul_nonneg_iff_of_pos_left (neg_pos.2 (sub_neg.2 h)),
    neg_nonneg, sub_nonpos]

theorem abs_sub_le_abs_sub_iff_of_gt {q a b : ℚ} (h : b < a) :
    |q - a| ≤ |q - b| ↔ a + b ≤ 2 * q := by
  rw [abs_sub_le_abs_sub_iff, mul_nonneg_iff_of_pos_left (sub_pos.2 h), sub_nonneg]

theorem abs_sub_eq_abs_sub_iff_of_ne {q a b : ℚ} (h : a ≠ b) :
    |q - a| = |q - b| ↔ 2 * q = a + b := by
  rw [← sq_eq_sq_iff_abs_eq_abs, ← sub_eq_zero,
    show (q - a) ^ 2 - (q - b) ^ 2 = (b - a) * (2 * q - (a + b)) by ring, mul_eq_zero, sub_eq_zero,
    sub_eq_zero, or_iff_right h.symm]

namespace Double

/-- Each place has a mantissa and a power of two; the last mantissa of a power is the first one of
the next. -/
theorem unitsAt_grid {k m : Nat} (hk : k = 0 ∨ 2 ^ 52 ≤ m) (hm : m ≤ 2 ^ 53) :
    unitsAt (k * 2 ^ 52 + m) = m * 2 ^ k := by
  rw [unitsAt_eq]
  by_cases hs : m < 2 ^ 52
  · obtain rfl : k = 0 := by omega
    rw [Nat.zero_mul, Nat.zero_add, if_pos hs, Nat.pow_zero, Nat.mul_one]
  rw [if_neg (by omega)]
  by_cases hl : m = 2 ^ 53
  · rw [hl, show k * 2 ^ 52 + 2 ^ 53 = (k + 2) * 2 ^ 52 by omega, Nat.mul_mod_left,
      Nat.mul_div_cancel _ (Nat.two_pow_pos 52), Nat.add_zero, ← Nat.pow_add, ← Nat.pow_add]
    congr 1
    omega
  · rw [show (k * 2 ^ 52 + m) % 2 ^ 52 = m - 2 ^ 52 by omega,
      show (k * 2 ^ 52 + m) / 2 ^ 52 - 1 = k by omega, Nat.add_sub_cancel' (Nat.le_of_not_lt hs)]

theorem exists_grid (place : Nat) :
    ∃ k m, place = k * 2 ^ 52 + m ∧ (k = 0 ∨ 2 ^ 52 ≤ m) ∧ m < 2 ^ 53 := by
  by_cases h : place < 2 ^ 52
  · exact ⟨0, place, by omega, .inl rfl, by omega⟩
  · exact ⟨place / 2 ^ 52 - 1, 2 ^ 52 + place % 2 ^ 52, by omega, by omega, by omega⟩

theorem strictMono_unitsAt : StrictMono unitsAt := by
  apply strictMono_nat_of_lt_succ
  intro place
  obtain ⟨k, m, rfl, hk, hm⟩ := exists_grid place
  rw [Nat.add_assoc, unitsAt_grid hk (by omega), unitsAt_grid (by omega) hm, Nat.add_one_mul]
  exact Nat.lt_add_of_pos_right (Nat.two_pow_pos k)

/-- The ratio lies between two places that follow each other. The nearest one is above when the
ratio is past the middle, or in the middle and the place below is odd. -/
theorem nearestPlace_between (num : Nat) {den : Nat} (hd : 0 < den) : ∃ place,
    unitsAt place * den ≤ num ∧ num < unitsAt (place + 1) * den ∧
    (nearestPlace num den = place + 1 ∧ (unitsAt place + unitsAt (place + 1)) * den ≤ 2 * num ∧
        ((unitsAt place + unitsAt (place + 1)) * den = 2 * num → place % 2 = 1) ∨
      nearestPlace num den = place ∧ 2 * num ≤ (unitsAt place + unitsAt (place + 1)) * den ∧
        (2 * num = (unitsAt place + unitsAt (place + 1)) * den → place % 2 = 0)) := by
  obtain ⟨shift, hshift⟩ : ∃ shift, shift = (num / den).log2 - 52 := ⟨_, rfl⟩
  obtain ⟨step, hstep⟩ : ∃ step, step = den * 2 ^ shift := ⟨_, rfl⟩
  obtain ⟨m, hm⟩ : ∃ m, m = num / step := ⟨_, rfl⟩
  have hpos : 0 < step := hstep ▸ Nat.mul_pos hd (Nat.two_pow_pos _)
  have hquot : m = num / den / 2 ^ shift := by rw [hm, hstep, Nat.div_div_eq_div_mul]
  have hlt : m < 2 ^ 53 := by
    rw [hquot, Nat.div_lt_iff_lt_mul (Nat.two_pow_pos _), ← Nat.pow_add]
    exact Nat.lt_log2_self.trans_le (Nat.pow_le_pow_right (by decide) (by omega))
  have hnormal : shift = 0 ∨ 2 ^ 52 ≤ m := by
    by_cases h : shift = 0
    · exact .inl h
    · refine .inr ?_
      have hne : num / den ≠ 0 := by
        intro h0
        have hlog : Nat.log2 0 = 0 := by decide
        rw [h0, hlog] at hshift
        exact h hshift
      rw [hquot, Nat.le_div_iff_mul_le (Nat.two_pow_pos _), ← Nat.pow_add,
        show 52 + shift = (num / den).log2 by omega]
      exact Nat.log2_self_le hne
  have hsum : m * step + num % step = num := by rw [hm, Nat.mul_comm, Nat.div_add_mod]
  have hrest : num % step < step := Nat.mod_lt _ hpos
  have hunits {n : Nat} : n * 2 ^ shift * den = n * step := by
    rw [hstep, Nat.mul_assoc, Nat.mul_comm (2 ^ shift)]
  obtain ⟨place, hplace⟩ : ∃ place, place = shift * 2 ^ 52 + m := ⟨_, rfl⟩
  have hbelow : unitsAt place = m * 2 ^ shift := by
    rw [hplace, unitsAt_grid hnormal (Nat.le_of_lt hlt)]
  have habove : unitsAt (place + 1) = (m + 1) * 2 ^ shift := by
    rw [hplace, Nat.add_assoc, unitsAt_grid (by omega) hlt]
  refine ⟨place, ?_⟩
  rw [hbelow, habove, ← Nat.add_mul, hunits, hunits, hunits, Nat.add_one_mul, Nat.add_mul,
    Nat.add_one_mul]
  refine ⟨by omega, by omega, ?_⟩
  rw [nearestPlace_eq]
  simp only [← hshift, ← hstep, ← hm, ← hplace]
  split
  · exact .inl ⟨rfl, by omega, by omega⟩
  · exact .inr ⟨rfl, by omega, by omega⟩

/-- The magnitude at a place. The place of infinity has the power of two that follows the largest
finite magnitude. -/
def magnitudeAt (place : Nat) : ℚ :=
  unitsAt place / 2 ^ binaryPlaces

theorem unit_pos : (0 : ℚ) < 2 ^ binaryPlaces :=
  pow_pos two_pos _

theorem strictMono_magnitudeAt : StrictMono magnitudeAt := by
  intro place place' h
  rw [magnitudeAt, magnitudeAt, div_lt_div_iff_of_pos_right unit_pos, Nat.cast_lt]
  exact strictMono_unitsAt h

theorem magnitudeAt_zero : magnitudeAt 0 = 0 := by
  have h : unitsAt 0 = 0 := by decide
  rw [magnitudeAt, h, Nat.cast_zero, zero_div]

theorem magnitudeAt_nonneg (place : Nat) : 0 ≤ magnitudeAt place := by
  rw [← magnitudeAt_zero]
  exact strictMono_magnitudeAt.monotone (Nat.zero_le _)

/-- A place whose magnitude is as near as any; of two the even place. -/
structure IsNearestPlace (q : ℚ) (place : Nat) : Prop where
  nearest : ∀ place', |q - magnitudeAt place| ≤ |q - magnitudeAt place'|
  even : ∀ place', |q - magnitudeAt place'| = |q - magnitudeAt place| → place' ≠ place →
    place % 2 = 0

/-- It is enough to look at the middles between the place and the others. -/
theorem isNearestPlace_of_middles {q : ℚ} {place : Nat}
    (hbelow : ∀ p < place, magnitudeAt place + magnitudeAt p ≤ 2 * q)
    (habove : ∀ p > place, 2 * q ≤ magnitudeAt place + magnitudeAt p)
    (heven : ∀ p ≠ place, 2 * q = magnitudeAt place + magnitudeAt p → place % 2 = 0) :
    IsNearestPlace q place := by
  constructor
  · intro p
    rcases Nat.lt_trichotomy p place with hlt | rfl | hgt
    · exact (abs_sub_le_abs_sub_iff_of_gt (strictMono_magnitudeAt hlt)).2 (hbelow p hlt)
    · exact le_rfl
    · exact (abs_sub_le_abs_sub_iff_of_lt (strictMono_magnitudeAt hgt)).2 (habove p hgt)
  · intro p he hne
    have hmag : magnitudeAt place ≠ magnitudeAt p := strictMono_magnitudeAt.injective.ne hne.symm
    exact heven p hne ((abs_sub_eq_abs_sub_iff_of_ne hmag).1 he.symm)

section Between

variable {q : ℚ} {place : Nat}

theorem isNearestPlace_above (hh : q < magnitudeAt (place + 1))
    (h : magnitudeAt place + magnitudeAt (place + 1) ≤ 2 * q)
    (hodd : magnitudeAt place + magnitudeAt (place + 1) = 2 * q → place % 2 = 1) :
    IsNearestPlace q (place + 1) := by
  apply isNearestPlace_of_middles
  · intro p hp
    have hm := strictMono_magnitudeAt.monotone (Nat.le_of_lt_succ hp)
    linarith
  · intro p hp
    have hm := strictMono_magnitudeAt hp
    linarith
  · intro p hne hp
    rcases Nat.lt_trichotomy p place with hlt | rfl | hgt
    · have hm := strictMono_magnitudeAt hlt
      linarith
    · have := hodd (by linarith)
      omega
    · have hm := strictMono_magnitudeAt (Nat.lt_of_le_of_ne (Nat.succ_le_of_lt hgt) hne.symm)
      linarith

theorem isNearestPlace_below (hl : magnitudeAt place ≤ q)
    (h : 2 * q ≤ magnitudeAt place + magnitudeAt (place + 1))
    (heven : 2 * q = magnitudeAt place + magnitudeAt (place + 1) → place % 2 = 0) :
    IsNearestPlace q place := by
  apply isNearestPlace_of_middles
  · intro p hp
    have hm := strictMono_magnitudeAt hp
    linarith
  · intro p hp
    have hm := strictMono_magnitudeAt.monotone (Nat.succ_le_of_lt hp)
    linarith
  · intro p hne hp
    rcases Nat.lt_trichotomy p (place + 1) with hlt | rfl | hgt
    · have hm := strictMono_magnitudeAt (Nat.lt_of_le_of_ne (Nat.le_of_lt_succ hlt) hne)
      linarith
    · exact heven hp
    · have hm := strictMono_magnitudeAt hgt
      linarith

end Between

theorem isNearestPlace_nearestPlace (num : Nat) {den : Nat} (hd : 0 < den) :
    IsNearestPlace (num / den / 2 ^ binaryPlaces) (nearestPlace num den) := by
  obtain ⟨place, hl, hh, he⟩ := nearestPlace_between num hd
  obtain ⟨q, hq⟩ : ∃ q : ℚ, q = num / den / 2 ^ binaryPlaces := ⟨_, rfl⟩
  obtain ⟨scale, hscale⟩ : ∃ scale : ℚ, scale = den * 2 ^ binaryPlaces := ⟨_, rfl⟩
  have hpos : 0 < scale := hscale ▸ mul_pos (Nat.cast_pos.2 hd) unit_pos
  have hnum : q * scale = num := by
    rw [hq, hscale, div_div, div_mul_cancel₀ _ (hscale ▸ hpos).ne']
  have hmag (n : Nat) : magnitudeAt n * scale = (unitsAt n * den : ℕ) := by
    rw [magnitudeAt, hscale, mul_comm (den : ℚ), ← mul_assoc, div_mul_cancel₀ _ unit_pos.ne',
      Nat.cast_mul]
  have hmid : (magnitudeAt place + magnitudeAt (place + 1)) * scale =
      ((unitsAt place + unitsAt (place + 1)) * den : ℕ) := by
    rw [add_mul, hmag, hmag, ← Nat.cast_add, Nat.add_mul]
  have htwo : 2 * q * scale = (2 * num : ℕ) := by
    rw [mul_assoc, hnum, Nat.cast_mul, Nat.cast_two]
  have hlow : magnitudeAt place ≤ q := by
    rw [← mul_le_mul_iff_left₀ hpos, hmag, hnum, Nat.cast_le]
    exact hl
  have hhigh : q < magnitudeAt (place + 1) := by
    rw [← mul_lt_mul_iff_left₀ hpos, hmag, hnum, Nat.cast_lt]
    exact hh
  rw [← hq]
  rcases he with ⟨he, hle, hodd⟩ | ⟨he, hle, heven⟩
  · rw [he]
    apply isNearestPlace_above hhigh
    · rw [← mul_le_mul_iff_left₀ hpos, hmid, htwo, Nat.cast_le]
      exact hle
    · rw [← mul_left_inj' hpos.ne', hmid, htwo, Nat.cast_inj]
      exact hodd
  · rw [he]
    apply isNearestPlace_below hlow
    · rw [← mul_le_mul_iff_left₀ hpos, hmid, htwo, Nat.cast_le]
      exact hle
    · rw [← mul_left_inj' hpos.ne', hmid, htwo, Nat.cast_inj]
      exact heven

end Double

end Storefront.Number
