import Storefront.Instant.Basic

namespace Storefront.Civil

theorem total_cons (length : Nat) (lengths : List Nat) :
    total (length :: lengths) = length + total lengths :=
  rfl

theorem monthAndDay_eq (first : Nat) (lengths : List Nat) (rest : Nat) (h : rest < total lengths) :
    ∃ i day length, monthAndDay first lengths rest = (first + i, day) ∧
      lengths[i]? = some length ∧ 1 ≤ day ∧ day ≤ length ∧
      rest + 1 = total (lengths.take i) + day := by
  induction lengths generalizing first rest with
  | nil => cases h
  | cons length lengths ih =>
    by_cases hl : rest < length
    · refine ⟨0, rest + 1, length, by simp [monthAndDay, hl], rfl, by omega, by omega, ?_⟩
      exact (Nat.zero_add _).symm
    · rw [total_cons] at h
      obtain ⟨i, day, len, hm, hi, h1, h2, hr⟩ := ih (first + 1) (rest - length) (by omega)
      refine ⟨i + 1, day, len, ?_, hi, h1, h2, ?_⟩
      · simp only [monthAndDay, hl, if_false, hm, Prod.mk.injEq, and_true]
        omega
      · rw [List.take_succ_cons, total_cons]
        omega

theorem total_monthLengths (year : Int) :
    total (monthLengths year) = if isLeap year then 366 else 365 := by
  cases h : isLeap year <;> simp [monthLengths, total, h]

/-- A cycle of four hundred years in centuries, spans of four years, years and days: only the last
year of a span is long, and the last span of a century has one only in the last century. -/
theorem cycle_parts (rest : Nat) (h : rest < 146097) :
    let century := min 3 (rest / 36524)
    let inCentury := rest - century * 36524
    let fours := inCentury / 1461
    let single := min 3 (inCentury % 1461 / 365)
    let day := inCentury % 1461 - single * 365
    fours ≤ 24 ∧ 36524 * century + 1461 * fours + 365 * single + day = rest ∧
      (day < 365 ∨ day = 365 ∧ single = 3 ∧ (fours ≠ 24 ∨ century = 3)) := by
  dsimp only
  omega

section Parts

variable {cycle : Int} {century fours single : Nat}

theorem daysBeforeYear_of_parts (hc : century ≤ 3) (hf : fours ≤ 24) (hs : single ≤ 3) :
    daysBeforeYear (400 * cycle + (100 * century + 4 * fours + single + 1 : Nat)) =
      146097 * cycle + (36524 * century + 1461 * fours + 365 * single : Nat) := by
  unfold daysBeforeYear
  omega

theorem isLeap_of_parts (hf : fours ≤ 24) (hs : single = 3) (hc : fours ≠ 24 ∨ century = 3) :
    isLeap (400 * cycle + (100 * century + 4 * fours + single + 1 : Nat)) := by
  simp only [isLeap, Bool.and_eq_true, Bool.or_eq_true, beq_iff_eq, bne_iff_ne]
  omega

end Parts

theorem ofDays_eq (n : Int) : ∃ year rest, daysBeforeYear year + (rest : Nat) = n + epoch ∧
    rest < total (monthLengths year) ∧
    ofDays n = ⟨year, (monthAndDay 1 (monthLengths year) rest).1,
      (monthAndDay 1 (monthLengths year) rest).2⟩ := by
  obtain ⟨hf, hr, hd⟩ := cycle_parts ((n + epoch) % 146097).toNat (by omega)
  refine ⟨_, _, ?_, ?_, rfl⟩
  · rw [daysBeforeYear_of_parts (Nat.min_le_left _ _) hf (Nat.min_le_left _ _)]
    omega
  · rw [total_monthLengths]
    rcases hd with hd | ⟨hd, hs, hc⟩
    · split <;> omega
    · rw [if_pos (isLeap_of_parts hf hs hc)]
      omega

theorem toDays_ofDays (n : Int) : (ofDays n).toDays = n := by
  obtain ⟨year, rest, hn, hr, he⟩ := ofDays_eq n
  obtain ⟨i, day, length, hm, -, h1, -, hd⟩ := monthAndDay_eq 1 (monthLengths year) rest hr
  simp only [he, hm, toDays, daysBeforeMonth, Nat.add_sub_cancel_left]
  omega

theorem valid_ofDays (n : Int) : (ofDays n).valid := by
  obtain ⟨year, rest, hn, hr, he⟩ := ofDays_eq n
  obtain ⟨i, day, length, hm, hi, h1, h2, hd⟩ := monthAndDay_eq 1 (monthLengths year) rest hr
  have hlt : i < (monthLengths year).length := (List.getElem?_eq_some_iff.1 hi).1
  simp only [he, hm, valid, daysInMonth, Nat.add_sub_cancel_left, hi, Option.getD_some,
    Bool.and_eq_true, decide_eq_true_eq]
  simp only [monthLengths, List.length_cons, List.length_nil] at hlt
  omega

theorem daysInMonth_le (year : Int) (month : Nat) : daysInMonth year month ≤ 31 := by
  unfold daysInMonth
  cases h : (monthLengths year)[month - 1]? with
  | none => simp
  | some length =>
    have hmem := List.mem_of_getElem? h
    cases hl : isLeap year <;> simp [monthLengths, hl] at hmem ⊢ <;> omega

theorem fields_of_valid {d : Civil} (h : d.valid) :
    1 ≤ d.month ∧ d.month ≤ 12 ∧ 1 ≤ d.day ∧ d.day ≤ 31 := by
  simp only [valid, Bool.and_eq_true, decide_eq_true_eq] at h
  obtain ⟨⟨⟨hm, hm'⟩, hd⟩, hd'⟩ := h
  exact ⟨hm, hm', hd, Nat.le_trans hd' (daysInMonth_le _ _)⟩

theorem total_take_add_le {lengths : List Nat} {i length : Nat} (h : lengths[i]? = some length) :
    total (lengths.take i) + length ≤ total lengths := by
  induction lengths generalizing i with
  | nil => cases h
  | cons first lengths ih =>
    cases i with
    | zero =>
      cases h
      rw [total_cons]
      exact Nat.le_trans (Nat.le_of_eq (Nat.zero_add _)) (Nat.le_add_right _ _)
    | succ i =>
      rw [List.take_succ_cons, total_cons, total_cons, Nat.add_assoc]
      exact Nat.add_le_add_left (ih h) first

/-- A day of a month is found from the days of the months before it. -/
theorem monthAndDay_of_total {lengths : List Nat} {i length day : Nat} (first : Nat)
    (h : lengths[i]? = some length) (h1 : 1 ≤ day) (h2 : day ≤ length) :
    monthAndDay first lengths (total (lengths.take i) + (day - 1)) = (first + i, day) := by
  induction lengths generalizing i first with
  | nil => cases h
  | cons head lengths ih =>
    cases i with
    | zero =>
      cases h
      have hday : total [] + (day - 1) < length := by
        change 0 + (day - 1) < length
        omega
      rw [List.take_zero, monthAndDay, if_pos hday]
      refine congrArg (first, ·) ?_
      change 0 + (day - 1) + 1 = day
      omega
    | succ i =>
      have hrest : head + total (lengths.take i) + (day - 1) - head =
          total (lengths.take i) + (day - 1) := by omega
      rw [List.take_succ_cons, total_cons, monthAndDay, if_neg (by omega), hrest,
        ih (first + 1) h]
      exact congrArg (·, day) (by omega)

theorem daysBeforeYear_succ (year : Int) :
    daysBeforeYear (year + 1) = daysBeforeYear year + total (monthLengths year) := by
  rw [total_monthLengths]
  simp only [daysBeforeYear, isLeap, Bool.and_eq_true, Bool.or_eq_true, beq_iff_eq, bne_iff_ne]
  split <;> omega

theorem daysBeforeYear_mono {year next : Int} (h : year ≤ next) :
    daysBeforeYear year ≤ daysBeforeYear next := by
  unfold daysBeforeYear
  omega

/-- Days fall into years in one way. -/
theorem year_unique {y z : Int} {r s : Nat} (hr : r < total (monthLengths y))
    (hs : s < total (monthLengths z)) (h : daysBeforeYear y + r = daysBeforeYear z + s) :
    y = z := by
  have hy := daysBeforeYear_succ y
  have hz := daysBeforeYear_succ z
  rcases Int.lt_trichotomy y z with hlt | heq | hlt
  · have := daysBeforeYear_mono (show y + 1 ≤ z from hlt)
    omega
  · exact heq
  · have := daysBeforeYear_mono (show z + 1 ≤ y from hlt)
    omega

theorem exists_length_of_valid {d : Civil} (h : d.valid) :
    ∃ length, (monthLengths d.year)[d.month - 1]? = some length ∧ d.day ≤ length := by
  have hm := (fields_of_valid h).2.1
  have hlen : d.month - 1 < (monthLengths d.year).length := by
    simp only [monthLengths, List.length_cons, List.length_nil]
    omega
  have hi := List.getElem?_eq_getElem hlen
  simp only [valid, Bool.and_eq_true, decide_eq_true_eq] at h
  exact ⟨_, hi, by simpa [daysInMonth, hi] using h.2⟩

theorem dayOfYear_lt {d : Civil} (h : d.valid) :
    daysBeforeMonth d.year d.month + (d.day - 1) < total (monthLengths d.year) := by
  obtain ⟨-, -, hd, -⟩ := fields_of_valid h
  obtain ⟨length, hi, hday⟩ := exists_length_of_valid h
  have := total_take_add_le hi
  unfold daysBeforeMonth
  omega

theorem ofDays_toDays {d : Civil} (h : d.valid) : ofDays d.toDays = d := by
  obtain ⟨hm, -, hd, -⟩ := fields_of_valid h
  obtain ⟨length, hi, hday⟩ := exists_length_of_valid h
  obtain ⟨year, rest, hn, hr, he⟩ := ofDays_eq d.toDays
  have hsum : daysBeforeYear d.year + (daysBeforeMonth d.year d.month + (d.day - 1) : Nat) =
      d.toDays + epoch := by
    simp only [toDays]
    omega
  obtain rfl := year_unique hr (dayOfYear_lt h) (hn.trans hsum.symm)
  have hrest : rest = daysBeforeMonth d.year d.month + (d.day - 1) := by omega
  rw [he, hrest, daysBeforeMonth, monthAndDay_of_total 1 hi hd hday]
  exact congrArg (Civil.mk d.year · d.day) (Nat.add_sub_cancel' hm)

theorem toDays_bounds {d : Civil} (h : d.valid) (hlow : 0 ≤ d.year) (hhigh : d.year ≤ 9999) :
    -719529 ≤ d.toDays ∧ d.toDays ≤ 2933600 := by
  obtain ⟨-, -, hd, hd'⟩ := fields_of_valid h
  have hlt := dayOfYear_lt h
  rw [total_monthLengths] at hlt
  have hle : daysBeforeMonth d.year d.month + (d.day - 1) < 366 :=
    Nat.lt_of_lt_of_le hlt (by split <;> decide)
  simp only [toDays, daysBeforeYear, epoch]
  omega

/-- The years of the days about a thousand centuries around the epoch. -/
theorem year_ofDays_lt {n : Int} (h : n.natAbs < 268435456) :
    (ofDays n).year.natAbs < Nat.pow 2 31 := by
  change (ofDays n).year.natAbs < 2147483648
  simp only [ofDays, epoch]
  omega

end Storefront.Civil
