import Storefront.Proofs.Number.Magnitude

namespace Storefront.Number

def Decimal.value (d : Decimal) : ℚ :=
  withSign d.negative (d.digits * 10 ^ d.exponent)

namespace Double

/-- Places past infinity are cut down to it. -/
theorem IsNearestPlace.min_infinity {q : ℚ} {place : Nat} (h : IsNearestPlace q place) :
    (∀ p ≤ infinity, |q - magnitudeAt (min place infinity)| ≤ |q - magnitudeAt p|) ∧
    ∀ p ≤ infinity, |q - magnitudeAt p| = |q - magnitudeAt (min place infinity)| →
      p ≠ min place infinity → min place infinity % 2 = 0 := by
  rcases Nat.le_total place infinity with hle | hle
  · rw [Nat.min_eq_left hle]
    exact ⟨fun p _ ↦ h.nearest p, fun p _ ↦ h.even p⟩
  rw [Nat.min_eq_right hle]
  refine ⟨?_, fun _ _ _ _ ↦ by decide⟩
  intro p hp
  rcases Nat.eq_or_lt_of_le hle with rfl | hlt
  · exact h.nearest p
  have hinf := strictMono_magnitudeAt hlt
  have hnear := (abs_sub_le_abs_sub_iff_of_gt hinf).1 (h.nearest infinity)
  rcases Nat.eq_or_lt_of_le hp with rfl | hp
  · exact le_rfl
  have hm := strictMono_magnitudeAt hp
  rw [abs_sub_le_abs_sub_iff_of_gt hm]
  linarith

/-- The number that a double stands for. Infinity stands for the power of two that follows the
largest finite magnitude. -/
def value (x : Double) : ℚ :=
  withSign x.negative (magnitudeAt x.place)

/-- The double that a number is rounded to: no double is nearer, and of two equally near the one at
an even place. -/
structure IsNearest (x : Double) (q : ℚ) : Prop where
  nearest : ∀ y : Double, |q - x.value| ≤ |q - y.value|
  even : ∀ y : Double, |q - y.value| = |q - x.value| → y.value ≠ x.value → x.place % 2 = 0

theorem decimalValue_eq (d : Decimal) :
    d.value = withSign d.negative (num d / den d / 2 ^ binaryPlaces) := by
  have hexp : (num d : ℚ) / den d / 2 ^ binaryPlaces = d.digits * 10 ^ d.exponent := by
    rw [num, Nat.cast_mul, Nat.cast_pow, Nat.cast_two, div_div, mul_comm (den d : ℚ), ← div_div,
      mul_div_cancel_right₀ _ unit_pos.ne', den, Nat.cast_mul, Nat.cast_pow, Nat.cast_pow,
      mul_div_assoc, Nat.cast_ofNat, ← zpow_natCast, ← zpow_natCast, ← zpow_sub₀ (by norm_num)]
    congr 2
    omega
  rw [Decimal.value, hexp]

/-- A decimal is read as the double nearest to it. -/
theorem isNearest_ofDecimal (d : Decimal) : (ofDecimal d).IsNearest d.value := by
  have hp := isNearestPlace_nearestPlace (num d) (den_pos d)
  obtain ⟨q, hq⟩ : ∃ q : ℚ, q = num d / den d / 2 ^ binaryPlaces := ⟨_, rfl⟩
  have hq0 : 0 ≤ q := hq ▸ div_nonneg (div_nonneg (Nat.cast_nonneg _) (Nat.cast_nonneg _)) unit_pos.le
  rw [← hq] at hp
  obtain ⟨hnear, heven⟩ := hp.min_infinity
  obtain ⟨place, hplace⟩ : ∃ place, place = min (nearestPlace (num d) (den d)) infinity := ⟨_, rfl⟩
  have hx : (ofDecimal d).value = withSign d.negative (magnitudeAt place) := by
    rw [ofDecimal_eq, hplace]
    rfl
  have hx' : (ofDecimal d).place = place := by
    rw [ofDecimal_eq, hplace]
    rfl
  rw [← hplace] at hnear heven
  have hdist : |withSign d.negative q - withSign d.negative (magnitudeAt place)| =
      |q - magnitudeAt place| := by
    rw [withSign_sub_withSign, abs_withSign]
  rw [decimalValue_eq, ← hq]
  constructor
  · intro y
    rw [hx, hdist]
    exact (hnear y.place y.place_le).trans
      (abs_sub_le_abs_withSign_sub hq0 (magnitudeAt_nonneg _) _ _)
  · intro y he hne
    rw [hx, hdist] at he
    rw [hx] at hne
    rw [hx']
    have hle := abs_sub_le_abs_withSign_sub hq0 (magnitudeAt_nonneg y.place) d.negative y.negative
    refine heven y.place y.place_le (le_antisymm (hle.trans he.le) (hnear y.place y.place_le)) ?_
    -- The other sign at the same place is as near only for a zero, and then it is no other value.
    rintro rfl
    have hsign : d.negative ≠ y.negative := by
      intro h
      rw [h] at hne
      exact hne rfl
    have hzero := hnear 0 (Nat.zero_le _)
    rw [value, abs_withSign_sub_of_ne hq0 (magnitudeAt_nonneg _) hsign] at he
    rw [magnitudeAt_zero, sub_zero, abs_of_nonneg hq0, ← he, add_le_iff_nonpos_right] at hzero
    have hm := le_antisymm hzero (magnitudeAt_nonneg y.place)
    rw [value, hm, withSign_zero, withSign_zero] at hne
    exact hne rfl

namespace IsNearest

variable {x y : Double} {q : ℚ}

theorem le_value (h : x.IsNearest q) (hy : y.value ≤ q) : y.value ≤ x.value := by
  by_contra hlt
  rw [not_le] at hlt
  have hm := (abs_sub_le_abs_sub_iff_of_lt hlt).1 (h.nearest y)
  linarith

theorem value_le (h : x.IsNearest q) (hy : q ≤ y.value) : x.value ≤ y.value := by
  by_contra hlt
  rw [not_le] at hlt
  have hm := (abs_sub_le_abs_sub_iff_of_gt hlt).1 (h.nearest y)
  linarith

theorem value_eq (h : x.IsNearest q) (hy : y.value = q) : x.value = q :=
  le_antisymm ((h.value_le hy.ge).trans hy.le) (hy.ge.trans (h.le_value hy.le))

end IsNearest

theorem magnitudeAt_pos {place : Nat} (h : 0 < place) : 0 < magnitudeAt place := by
  rw [← magnitudeAt_zero]
  exact strictMono_magnitudeAt h

/-- Between two doubles at even places there is another one. -/
theorem exists_between {x y : Double} (h : x.value < y.value) (hx : x.place % 2 = 0)
    (hy : y.place % 2 = 0) : ∃ z : Double, x.value < z.value ∧ z.value < y.value := by
  obtain ⟨sx, px, hpx⟩ := x
  obtain ⟨sy, py, hpy⟩ := y
  change px % 2 = 0 at hx
  change py % 2 = 0 at hy
  have hone : 1 ≤ infinity := by decide
  cases sx <;> cases sy
  case false.false =>
    change magnitudeAt px < magnitudeAt py at h
    have hlt := strictMono_magnitudeAt.lt_iff_lt.1 h
    refine ⟨⟨false, px + 1, by omega⟩, ?_, ?_⟩
    · exact strictMono_magnitudeAt (Nat.lt_succ_self px)
    · exact strictMono_magnitudeAt (show px + 1 < py by omega)
  case true.true =>
    change -magnitudeAt px < -magnitudeAt py at h
    have hlt := strictMono_magnitudeAt.lt_iff_lt.1 (neg_lt_neg_iff.1 h)
    refine ⟨⟨true, py + 1, by omega⟩, ?_, ?_⟩
    · exact neg_lt_neg (strictMono_magnitudeAt (show py + 1 < px by omega))
    · exact neg_lt_neg (strictMono_magnitudeAt (Nat.lt_succ_self py))
  case false.true =>
    change magnitudeAt px < -magnitudeAt py at h
    have hnx := magnitudeAt_nonneg px
    have hny := magnitudeAt_nonneg py
    linarith
  case true.false =>
    change -magnitudeAt px < magnitudeAt py at h
    rcases Nat.eq_zero_or_pos px with rfl | hpx'
    · rw [magnitudeAt_zero, neg_zero, ← magnitudeAt_zero] at h
      have hlt := strictMono_magnitudeAt.lt_iff_lt.1 h
      refine ⟨⟨false, 1, hone⟩, ?_, ?_⟩
      · change -magnitudeAt 0 < magnitudeAt 1
        rw [magnitudeAt_zero, neg_zero]
        exact magnitudeAt_pos Nat.one_pos
      · exact strictMono_magnitudeAt (show 1 < py by omega)
    rcases Nat.eq_zero_or_pos py with rfl | hpy'
    · refine ⟨⟨true, 1, hone⟩, ?_, ?_⟩
      · exact neg_lt_neg (strictMono_magnitudeAt (show 1 < px by omega))
      · change -magnitudeAt 1 < magnitudeAt 0
        rw [magnitudeAt_zero, neg_lt_zero]
        exact magnitudeAt_pos Nat.one_pos
    · refine ⟨⟨false, 0, Nat.zero_le _⟩, ?_, ?_⟩
      · change -magnitudeAt px < magnitudeAt 0
        rw [magnitudeAt_zero, neg_lt_zero]
        exact magnitudeAt_pos hpx'
      · change magnitudeAt 0 < magnitudeAt py
        exact strictMono_magnitudeAt hpy'

/-- All doubles nearest to a number stand for the same one. -/
theorem IsNearest.unique {x y : Double} {q : ℚ} (hx : x.IsNearest q) (hy : y.IsNearest q) :
    x.value = y.value := by
  have hlt {x y : Double} (hx : x.IsNearest q) (hy : y.IsNearest q) : ¬ x.value < y.value := by
    intro h
    have he := le_antisymm (hx.nearest y) (hy.nearest x)
    have hmid := (abs_sub_eq_abs_sub_iff_of_ne h.ne).1 he
    obtain ⟨z, hxz, hzy⟩ := exists_between h (hx.even y he.symm h.ne') (hy.even x he h.ne)
    have hz := (abs_sub_le_abs_sub_iff_of_lt hxz).1 (hx.nearest z)
    linarith
  exact le_antisymm (not_lt.1 (hlt hy hx)) (not_lt.1 (hlt hx hy))

theorem magnitudeAt_grid {k m : Nat} (hk : k = 0 ∨ 2 ^ 52 ≤ m) (hm : m ≤ 2 ^ 53) :
    magnitudeAt (k * 2 ^ 52 + m) = m * 2 ^ ((k : ℤ) - binaryPlaces) := by
  rw [magnitudeAt, unitsAt_grid hk hm, Nat.cast_mul, Nat.cast_pow, Nat.cast_two,
    zpow_sub₀ two_ne_zero, zpow_natCast, zpow_natCast, mul_div_assoc]

/-- A whole number of 53 bits times a power of two that is not too large is a double. -/
theorem exists_value_eq (negative : Bool) {m : Nat} (hm : m ≤ 2 ^ 53) {k : Nat} (hk : k ≤ 900) :
    ∃ x : Double, x.value = withSign negative (m * 2 ^ k) := by
  rcases Nat.eq_zero_or_pos m with rfl | hpos
  · refine ⟨⟨negative, 0, Nat.zero_le _⟩, ?_⟩
    rw [value, magnitudeAt_zero, Nat.cast_zero, zero_mul]
  obtain ⟨e, he⟩ : ∃ e, e = 52 - m.log2 := ⟨_, rfl⟩
  have hlow : 2 ^ 52 ≤ m * 2 ^ e :=
    calc 2 ^ 52
      _ ≤ 2 ^ (m.log2 + e) := Nat.pow_le_pow_right (by decide) (by omega)
      _ = 2 ^ m.log2 * 2 ^ e := Nat.pow_add ..
      _ ≤ m * 2 ^ e := Nat.mul_le_mul_right _ (Nat.log2_self_le hpos.ne')
  have hhigh : m * 2 ^ e ≤ 2 ^ 53 := by
    by_cases h : 52 ≤ m.log2
    · rw [he, Nat.sub_eq_zero_of_le h, Nat.pow_zero, Nat.mul_one]
      exact hm
    · calc m * 2 ^ e
        _ ≤ 2 ^ (m.log2 + 1) * 2 ^ e := Nat.mul_le_mul_right _ (Nat.le_of_lt Nat.lt_log2_self)
        _ = 2 ^ 53 := by
          rw [← Nat.pow_add]
          congr 1
          omega
  have hplaces : binaryPlaces = 1074 := rfl
  refine ⟨⟨negative, (binaryPlaces + k - e) * 2 ^ 52 + m * 2 ^ e, ?_⟩, ?_⟩
  · have hinf : infinity = 2047 * 2 ^ 52 := rfl
    omega
  · rw [value, magnitudeAt_grid (.inr hlow) hhigh, Nat.cast_mul, Nat.cast_pow, Nat.cast_two,
      mul_assoc, ← zpow_natCast, ← zpow_natCast, ← zpow_add₀ two_ne_zero]
    congr 3
    omega

theorem exists_value_eq_int {n : ℤ} (h : |n| ≤ 2 ^ 53) : ∃ x : Double, x.value = n := by
  rw [Int.abs_eq_natAbs] at h
  obtain ⟨x, hx⟩ := exists_value_eq (n < 0) (m := n.natAbs) (by omega) (Nat.zero_le _)
  refine ⟨x, hx.trans ?_⟩
  rw [pow_zero, mul_one]
  by_cases hn : n < 0
  · rw [decide_eq_true hn]
    change -((n.natAbs : ℕ) : ℚ) = n
    rw [Nat.cast_natAbs, abs_of_neg hn, Int.cast_neg, neg_neg]
  · rw [decide_eq_false hn]
    change ((n.natAbs : ℕ) : ℚ) = n
    rw [Nat.cast_natAbs, abs_of_nonneg (not_lt.1 hn)]

section One

def belowOne : Nat :=
  1021 * 2 ^ 52 + (2 ^ 53 - 1)

theorem magnitudeAt_belowOne : magnitudeAt belowOne = 1 - 1 / 2 ^ 53 := by
  rw [belowOne, magnitudeAt_grid (by decide) (by decide), binaryPlaces]
  norm_num

theorem magnitudeAt_belowOne_add_one : magnitudeAt (belowOne + 1) = 1 := by
  rw [belowOne, show 1021 * 2 ^ 52 + (2 ^ 53 - 1) + 1 = 1022 * 2 ^ 52 + 2 ^ 52 by rfl,
    magnitudeAt_grid (by decide) (by decide), binaryPlaces]
  norm_num

theorem magnitudeAt_belowOne_add_two : magnitudeAt (belowOne + 2) = 1 + 1 / 2 ^ 52 := by
  rw [belowOne, show 1021 * 2 ^ 52 + (2 ^ 53 - 1) + 2 = 1022 * 2 ^ 52 + (2 ^ 52 + 1) by rfl,
    magnitudeAt_grid (by decide) (by decide), binaryPlaces]
  norm_num

theorem belowOne_add_two_le : belowOne + 2 ≤ infinity := by
  decide

theorem value_cases_one (x : Double) :
    x.value ≤ 1 - 1 / 2 ^ 53 ∨ x.value = 1 ∨ 1 + 1 / 2 ^ 52 ≤ x.value := by
  rw [value, ← magnitudeAt_belowOne, ← magnitudeAt_belowOne_add_two]
  cases x.negative with
  | true =>
    have hx := magnitudeAt_nonneg x.place
    have hb := magnitudeAt_nonneg belowOne
    refine .inl (?_ : -magnitudeAt x.place ≤ _)
    linarith
  | false =>
    change magnitudeAt x.place ≤ _ ∨ magnitudeAt x.place = 1 ∨ _ ≤ magnitudeAt x.place
    rcases Nat.lt_trichotomy x.place (belowOne + 1) with hlt | heq | hgt
    · exact .inl (strictMono_magnitudeAt.monotone (Nat.le_of_lt_succ hlt))
    · exact .inr (.inl (heq ▸ magnitudeAt_belowOne_add_one))
    · exact .inr (.inr (strictMono_magnitudeAt.monotone (Nat.succ_le_of_lt hgt)))

theorem IsNearest.value_eq_one_iff {x : Double} {q : ℚ} (h : x.IsNearest q) :
    x.value = 1 ↔ 1 - 1 / 2 ^ 54 ≤ q ∧ q ≤ 1 + 1 / 2 ^ 53 := by
  have hinf := belowOne_add_two_le
  constructor
  · intro hx
    have hb := h.nearest ⟨false, belowOne, by omega⟩
    have ha := h.nearest ⟨false, belowOne + 2, hinf⟩
    rw [hx] at ha hb
    change |q - 1| ≤ |q - magnitudeAt belowOne| at hb
    change |q - 1| ≤ |q - magnitudeAt (belowOne + 2)| at ha
    rw [magnitudeAt_belowOne, abs_sub_le_abs_sub_iff_of_gt (by norm_num)] at hb
    rw [magnitudeAt_belowOne_add_two, abs_sub_le_abs_sub_iff_of_lt (by norm_num)] at ha
    constructor
    · linarith
    · linarith
  · rintro ⟨hl, hh⟩
    have heven : (belowOne + 1) % 2 = 0 := by decide
    obtain ⟨one, hone, hplace⟩ : ∃ one : Double, one.value = 1 ∧ one.place % 2 = 0 :=
      ⟨⟨false, belowOne + 1, by omega⟩, magnitudeAt_belowOne_add_one, heven⟩
    refine (h.unique ⟨?_, fun _ _ _ ↦ hplace⟩).trans hone
    intro y
    rw [hone]
    rcases y.value_cases_one with hlt | heq | hgt
    · rw [abs_sub_le_abs_sub_iff_of_gt (by linarith)]
      linarith
    · rw [heq]
    · rw [abs_sub_le_abs_sub_iff_of_lt (by linarith)]
      linarith

end One

theorem toInt?_eq (x : Double) : x.toInt? =
    if x.isInfinite || x.units % 2 ^ binaryPlaces ≠ 0 then none
    else
      let n : Int := (x.units / 2 ^ binaryPlaces : Nat)
      some (if x.negative then -n else n) := by
  rw [toInt?, ← binaryPlaces_eq, Nat.pow_eq]

/-- The whole number that a double stands for, if it is finite and stands for one. -/
theorem toInt?_eq_some_iff {x : Double} {n : ℤ} :
    x.toInt? = some n ↔ ¬ x.isInfinite ∧ x.value = n := by
  rw [toInt?_eq]
  by_cases hinf : x.isInfinite
  · simp [hinf]
  by_cases hdvd : 2 ^ binaryPlaces ∣ x.units
  · obtain ⟨k, hk⟩ := hdvd
    have hval : x.value = withSign x.negative k := by
      rw [value, magnitudeAt, ← units, hk, Nat.cast_mul, Nat.cast_pow, Nat.cast_two,
        mul_div_cancel_left₀ _ unit_pos.ne']
    rw [hval, hk, Nat.mul_mod_right, Nat.mul_div_cancel_left _ (Nat.two_pow_pos _)]
    cases x.negative <;> simp [hinf, withSign] <;> norm_cast
  · have hne : x.units % 2 ^ binaryPlaces ≠ 0 := fun h ↦ hdvd (Nat.dvd_of_mod_eq_zero h)
    refine iff_of_false (by simp [hne]) ?_
    rintro ⟨-, hval⟩
    apply hdvd
    have habs : magnitudeAt x.place = (n.natAbs : ℚ) := by
      rw [← abs_of_nonneg (magnitudeAt_nonneg x.place), ← abs_withSign x.negative, ← value, hval,
        Nat.cast_natAbs, Int.cast_abs]
    rw [magnitudeAt, div_eq_iff unit_pos.ne'] at habs
    exact ⟨n.natAbs, by rw [mul_comm]; exact_mod_cast habs⟩

/-- What is too large for 64 bits stays too large. -/
theorem IsNearest.le_abs_value {x : Double} {q : ℚ} (h : x.IsNearest q) (hq : 2 ^ 63 ≤ |q|) :
    2 ^ 63 ≤ |x.value| := by
  obtain ⟨above, habove⟩ := exists_value_eq false (m := 1) (by decide) (k := 63) (by decide)
  obtain ⟨below, hbelow⟩ := exists_value_eq true (m := 1) (by decide) (k := 63) (by decide)
  rw [Nat.cast_one, one_mul] at habove hbelow
  rw [le_abs'] at hq ⊢
  rcases hq with hq | hq
  · exact .inl ((h.value_le (hq.trans_eq hbelow.symm)).trans_eq hbelow)
  · exact .inr (habove.symm.trans_le (h.le_value (habove.trans_le hq)))

theorem not_isInfinite_of_abs_lt {x : Double} (h : |x.value| < 2 ^ 63) : ¬ x.isInfinite := by
  intro hinf
  have hplace : x.place = infinity := by simpa [isInfinite] using hinf
  have hlow : magnitudeAt (1085 * 2 ^ 52 + 2 ^ 52) = 2 ^ 63 := by
    rw [magnitudeAt_grid (by decide) (by decide), binaryPlaces]
    norm_num
  have hle := strictMono_magnitudeAt.monotone (show 1085 * 2 ^ 52 + 2 ^ 52 ≤ infinity by decide)
  rw [value, abs_withSign, hplace, abs_of_nonneg (magnitudeAt_nonneg _)] at h
  linarith

end Double

end Storefront.Number
