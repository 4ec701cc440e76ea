import Storefront.Proofs.Instant.Text

namespace Storefront.Instant

open Scan Number

namespace Scan

theorem run_blanks_padded {width : Nat} (h : 0 < width) (n : Nat) (rest : List Char) :
    blanks.run (padded width n ++ rest) = .ok ((), padded width n ++ rest) := by
  rw [blanks, run_modify, trimStart_padded h]

theorem run_blanks_of_not_blank {c : Char} (h : ¬ Text.isBlank c) (rest : List Char) :
    blanks.run (c :: rest) = .ok ((), c :: rest) := by
  rw [blanks, run_modify]
  simp [Text.trimStart, h]

theorem run_blanks_nil : blanks.run [] = .ok ((), []) :=
  rfl

theorem run_year_padded {n : Nat} (h : n < 10000) (rest : List Char) :
    year.run (padded 4 n ++ rest) = .ok ((n : Int), rest) := by
  have hnumber : (number 4).run (padded 4 n ++ rest) = .ok (n, rest) :=
    run_number h (by decide) (Nat.le_refl 4) (.inl rfl)
  rw [year, run_bind (run_blanks_padded (by decide) _ _), run_bind (run_get _)]
  cases hp : padded 4 n with
  | nil => exact absurd hp (padded_ne_nil (by decide) n)
  | cons c cs =>
    have hc : c.isDigit := isDigit_of_mem_padded (hp ▸ List.mem_cons_self ..)
    rw [hp] at hnumber
    rw [List.cons_append]
    split
    · next h =>
      cases h
      exact absurd hc (by decide)
    · next h =>
      cases h
      exact absurd hc (by decide)
    · exact run_bind hnumber

theorem run_bind_field {α : Type} {n : Nat} (hn : n < 100) (low high : Nat) (f : Nat → Scan α)
    (rest : List Char) : (field low high >>= f).run (padded 2 n ++ rest) =
      if low ≤ n ∧ n ≤ high then (f n).run rest else .error .outOfRange := by
  rw [field, bind_assoc, run_bind (run_blanks_padded (by decide) _ _), bind_assoc,
    run_bind (run_number hn (by decide) (Nat.le_refl _) (.inl rfl)), run_bind_inRange]

section Gaps

variable {α : Type} {gap : Scan Unit} {y m d hour minute second : Nat}

/-- A date is read as far as its month and its day can stand. -/
theorem run_bind_date (hgap : ∀ rest, gap.run ('-' :: rest) = .ok ((), '-' :: rest))
    (hy : y < 10000) (hm : m < 100) (hd : d < 100) (k : Civil → Scan α) (rest : List Char) :
    (Scan.date gap >>= k).run
      (padded 4 y ++ '-' :: (padded 2 m ++ '-' :: (padded 2 d ++ rest))) =
      if (1 ≤ m ∧ m ≤ 12) ∧ 1 ≤ d ∧ d ≤ 31 then (k ⟨y, m, d⟩).run rest
      else .error .outOfRange := by
  simp only [Scan.date, bind_assoc]
  rw [run_bind (run_year_padded hy _), run_bind (hgap _), run_bind (run_literal _ _),
    run_bind_field hm, run_bind (hgap _), run_bind (run_literal _ _), run_bind_field hd]
  simp only [ite_and, pure_bind]

theorem run_bind_clock (hgap : ∀ rest, gap.run (':' :: rest) = .ok ((), ':' :: rest))
    (hh : hour < 100) (hn : minute < 100) (hs : second < 100) (k : Clock → Scan α)
    (rest : List Char) :
    (Scan.clock gap >>= k).run
      (padded 2 hour ++ ':' :: (padded 2 minute ++ ':' :: (padded 2 second ++ rest))) =
      if hour ≤ 23 ∧ minute ≤ 59 ∧ second ≤ 60 then (k (.ofFields hour minute second)).run rest
      else .error .outOfRange := by
  simp only [Scan.clock, bind_assoc]
  rw [run_bind_field hh, run_bind (hgap _), run_bind (run_literal _ _), run_bind_field hn,
    run_bind (hgap _), run_bind (run_literal _ _), run_bind_field hs]
  simp only [ite_and, pure_bind, Nat.zero_le, true_and]

end Gaps

end Scan

theorem run_loose {y m d hour minute second nanos : Nat} {fraction : List Char} (hy : y < 10000)
    (hm : 1 ≤ m ∧ m ≤ 12) (hd : 1 ≤ d ∧ d ≤ 31) (hh : hour ≤ 23) (hn : minute ≤ 59)
    (hs : second ≤ 60) (hf : Scan.fraction.run fraction = .ok (nanos, ['Z'])) :
    loose.run (padded 4 y ++ '-' :: (padded 2 m ++ '-' :: (padded 2 d ++ 'T' ::
      (padded 2 hour ++ ':' :: (padded 2 minute ++ ':' :: (padded 2 second ++ fraction)))))) =
      (ofLocal ⟨y, m, d⟩ (.ofFields hour minute second) nanos 0).map (·, []) := by
  have hzone : loose.zone.run ['Z'] = .ok (0, []) := rfl
  have hdash := run_blanks_of_not_blank (show ¬ Text.isBlank '-' by decide)
  have hcolon := run_blanks_of_not_blank (show ¬ Text.isBlank ':' by decide)
  rw [loose, run_bind_date hdash hy (by omega) (by omega), if_pos ⟨hm, hd⟩, run_bind (run_get _)]
  dsimp only
  rw [if_pos (by decide), run_bind (run_set _ _),
    run_bind_clock hcolon (by omega) (by omega) (by omega), if_pos ⟨hh, hn, hs⟩, run_bind hf,
    run_bind (run_blanks_of_not_blank (by decide) _), run_bind hzone,
    run_bind run_blanks_nil, run_bind run_finish]
  cases ofLocal ⟨y, m, d⟩ (.ofFields hour minute second) nanos 0 <;> rfl

variable (i : Instant)

/-- The loose reader takes the same texts. -/
theorem read_textWith (hr : i.Regular) (h : i.ShortYear) {fraction : List Char} {nanos : Nat}
    (hf : Scan.fraction.run (fraction ++ ['Z']) = .ok (nanos, ['Z'])) {j : Instant}
    (hj : j.Regular) (hs : j.seconds = i.seconds) (hn : j.nanos = if i.isLeap then nanos + 1000000000 else nanos) :
    read (i.textWith fraction) = .ok j := by
  obtain ⟨hm, hm', hd, hd'⟩ := Civil.fields_of_valid i.valid_civil
  have hlt := i.secondOfDay_lt
  have h4 : i.civil.year.toNat < 10000 := by
    have := h.2
    omega
  have hrun := run_loose h4 ⟨hm, hm'⟩ ⟨hd, hd'⟩ (show i.secondOfDay / 3600 ≤ 23 by omega)
    (show i.secondOfDay / 60 % 60 ≤ 59 by omega) i.shownSecond_le hf
  rw [i.civil_of_shortYear h, clock_eq hr, i.ofLocal_civil h _ hj hs hn] at hrun
  have htext := i.toList_textWith fraction
  rw [yearText, if_pos (show 0 ≤ i.civil.year ∧ i.civil.year ≤ 9999 from h)] at htext
  rw [read, StateT.run'_eq, htext, hrun]
  rfl

theorem read_text (hr : i.Regular) (h : i.ShortYear) : read i.text = .ok i.truncate :=
  i.read_textWith hr h i.run_fraction_millis (regular_truncate hr) rfl i.nanos_truncate

theorem fraction_lt : i.fraction < 1000000000 :=
  Nat.mod_lt _ (by decide)

theorem nanos_eq_fraction :
    i.nanos = if i.isLeap then i.fraction + 1000000000 else i.fraction := by
  have := i.nanos_lt
  simp only [fraction, isLeap, decide_eq_true_eq]
  split <;> omega

/-- What a record writes for an instant of a short year is read back without loss. -/
theorem parse?_exactText (hr : i.Regular) (h : i.ShortYear) : parse? i.exactText = some i := by
  have hlt := i.fraction_lt
  have hz : NoDigit ['Z'] := by simp
  have hnone : Scan.fraction.run ['Z'] = .ok (0, ['Z']) := rfl
  -- groups of three zeros are left out at the end
  have hgroups {width n : Nat} (hn : n < Nat.pow 10 width) (hw : 0 < width) (hl : width ≤ 9)
      (he : n * Nat.pow 10 (9 - width) = i.fraction) :
      parse? (i.textWith ('.' :: padded width n)) = some i := by
    have hf := run_fraction hn hw hl hz
    rw [he] at hf
    exact i.parse?_textWith hr h hf hr rfl i.nanos_eq_fraction
  rw [exactText]
  split
  · next h0 => exact i.parse?_textWith hr h hnone hr rfl (h0 ▸ i.nanos_eq_fraction)
  · split
    · exact hgroups (show _ < 1000 by omega) (by decide) (by decide)
        (show _ * 1000000 = _ by omega)
    · split
      · exact hgroups (show _ < 1000000 by omega) (by decide) (by decide)
          (show _ * 1000 = _ by omega)
      · exact hgroups hlt (by decide) (by decide) (Nat.mul_one _)

end Storefront.Instant
