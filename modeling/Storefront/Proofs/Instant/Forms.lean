import Storefront.Proofs.Instant.Loose

namespace Storefront.Instant

open Number

namespace Scan

theorem run_pair {n : Nat} (hn : n < 100) (rest : List Char) :
    ∃ p, pair.run (padded 2 n ++ rest) = .ok (p, rest) ∧ pairValue p = n := by
  refine ⟨(Nat.digitChar (n / 10 % 10), Nat.digitChar (n % 10)), ?_,
    ofDigitChars_padded (show n < Nat.pow 10 2 from hn)⟩
  have hd (m : Nat) : (Nat.digitChar (m % 10)).isDigit := by
    rw [Nat.isDigit_digitChar]
    exact decide_eq_true (Nat.mod_lt m (by decide))
  rw [pair, run_bind (run_get _)]
  simp only [padded, List.nil_append, List.cons_append, hd, Bool.and_self, if_true]
  rfl

end Scan

open Scan

structure Fields where
  year : Fin 10000
  month : Fin 100
  day : Fin 100
  hour : Fin 100
  minute : Fin 100
  second : Fin 100

structure Zone where
  west : Bool
  hours : Fin 24
  minutes : Fin 60

namespace Zone

def chars (z : Zone) : List Char :=
  (if z.west then '-' else '+') :: (padded 2 z.hours ++ ':' :: padded 2 z.minutes)

def seconds (z : Zone) : Int :=
  (if z.west then -1 else 1) * (z.hours * 3600 + z.minutes * 60 : Nat)

variable (z : Zone)

theorem natAbs_seconds_lt : z.seconds.natAbs < 86400 := by
  have := z.hours.isLt
  have := z.minutes.isLt
  unfold seconds
  split <;> omega

theorem seconds_emod : z.seconds % 60 = 0 := by
  unfold seconds
  split <;> omega

theorem run_fraction : Scan.fraction.run z.chars = .ok (0, z.chars) := by
  obtain ⟨west, hours, minutes⟩ := z
  cases west <;> rfl

theorem run_offset : (Scan.offset (literal ':')).run z.chars = .ok (z.seconds, []) := by
  obtain ⟨west, hours, minutes⟩ := z
  obtain ⟨h, hrun, hh⟩ := run_pair (show hours.val < 100 by omega) (':' :: padded 2 minutes)
  obtain ⟨m, mrun, hm⟩ := run_pair (show minutes.val < 100 by omega) []
  rw [List.append_nil] at mrun
  rw [Scan.offset, run_bind (run_get _)]
  dsimp only [chars]
  rw [run_bind (run_set _ _), if_neg (by cases west <;> simp), if_pos (by cases west <;> simp),
    run_bind hrun, run_bind (run_literal _ _), run_bind mrun, hh, hm,
    if_neg (Nat.not_lt.2 (Nat.le_of_lt_succ minutes.isLt))]
  cases west <;> simp [seconds] <;> rfl

end Zone

namespace Fields

variable (f : Fields)

def date : List Char :=
  padded 4 f.year ++ '-' :: (padded 2 f.month ++ '-' :: padded 2 f.day)

def time : List Char :=
  padded 2 f.hour ++ ':' :: (padded 2 f.minute ++ ':' :: padded 2 f.second)

def dateText : String :=
  .ofList f.date

def spacedText : String :=
  .ofList (f.date ++ ' ' :: f.time)

def zuluText : String :=
  .ofList (f.date ++ 'T' :: (f.time ++ ['Z']))

def zonedText (z : Zone) : String :=
  .ofList (f.date ++ 'T' :: (f.time ++ z.chars))

def civil : Civil :=
  ⟨f.year, f.month, f.day⟩

def clock : Clock :=
  .ofFields f.hour f.minute f.second

/-- There is such a time of day; the sixtieth second is a leap second. -/
def OnClock : Prop :=
  f.hour.val ≤ 23 ∧ f.minute.val ≤ 59 ∧ f.second.val ≤ 60

def Exist : Prop :=
  f.civil.valid ∧ f.OnClock

instance : Decidable f.OnClock :=
  inferInstanceAs (Decidable (_ ∧ _ ∧ _))

instance : Decidable f.Exist :=
  inferInstanceAs (Decidable (_ ∧ _))

def seconds : Int :=
  f.civil.toDays * 86400 + f.clock.second

def nanos : Nat :=
  if f.clock.leap then 1000000000 else 0

def at? (offset : Int) : Option Instant :=
  if f.Exist then make? (f.seconds - offset) f.nanos else none

theorem append_date (rest : List Char) : f.date ++ rest =
    padded 4 f.year ++ '-' :: (padded 2 f.month ++ '-' :: (padded 2 f.day ++ rest)) := by
  simp [date]

theorem append_time (rest : List Char) : f.time ++ rest =
    padded 2 f.hour ++ ':' :: (padded 2 f.minute ++ ':' :: (padded 2 f.second ++ rest)) := by
  simp [time]

theorem run_internet {separator : Char} (hs : separator = 'T' ∨ separator = ' ')
    (rest : List Char) : internet.run (f.date ++ separator :: (f.time ++ rest)) =
      if f.OnClock then
        (do
          let nanos ← Scan.fraction
          let offset ← Scan.offset (literal ':')
          finish
          ofLocal f.civil f.clock nanos offset : Scan Instant).run rest
      else .error .outOfRange := by
  rw [append_date, append_time]
  exact run_internet_fields hs f.year.isLt f.month.isLt f.day.isLt f.hour.isLt f.minute.isLt
    f.second.isLt rest

theorem run_bind_date {α : Type} (k : Civil → Scan α) (rest : List Char) :
    (Scan.date tight >>= k).run (f.date ++ rest) =
      if (1 ≤ f.month.val ∧ f.month.val ≤ 12) ∧ 1 ≤ f.day.val ∧ f.day.val ≤ 31 then
        (k f.civil).run rest
      else .error .outOfRange := by
  rw [append_date]
  exact Scan.run_bind_date (fun _ ↦ rfl) f.year.isLt f.month.isLt f.day.isLt k rest

theorem run_bind_clock {α : Type} (k : Clock → Scan α) (rest : List Char) :
    (Scan.clock tight >>= k).run (f.time ++ rest) =
      if f.OnClock then (k f.clock).run rest else .error .outOfRange := by
  rw [append_time]
  exact Scan.run_bind_clock (fun _ ↦ rfl) f.hour.isLt f.minute.isLt f.second.isLt k rest

theorem at?_of_not_onClock (h : ¬ f.OnClock) (offset : Int) : f.at? offset = none :=
  if_neg fun he ↦ h he.2

theorem toOption_ofLocal (h : f.OnClock) {offset : Int} (ho : offset.natAbs < 86400) :
    (ofLocal f.civil f.clock 0 offset).toOption = f.at? offset := by
  have hlow : ¬ f.civil.year < firstYear :=
    Int.not_lt.2 (Int.le_trans (show firstYear ≤ 0 by decide) (Int.natCast_nonneg f.year))
  have hhigh : ¬ lastYear < f.civil.year := by
    have := f.year.isLt
    change ¬ (262142 : Int) < (f.year.val : Int)
    omega
  by_cases hv : f.civil.valid
  · simp only [at?, if_pos (show f.Exist from ⟨hv, h⟩), ofLocal, hv, hlow, hhigh,
      Nat.not_le.2 ho, seconds, nanos]
    cases make? (f.civil.toDays * 86400 + f.clock.second - offset)
      (if f.clock.leap then 0 + 1000000000 else 0) <;> rfl
  · simp only [at?, if_neg (show ¬ f.Exist from fun he ↦ hv he.1), ofLocal, hv]
    rfl

theorem scan?_internet {zone : List Char} {offset : Int}
    (hf : Scan.fraction.run zone = .ok (0, zone))
    (hz : (Scan.offset (literal ':')).run zone = .ok (offset, [])) (ho : offset.natAbs < 86400) :
    scan? internet (f.date ++ 'T' :: (f.time ++ zone)) = f.at? offset := by
  rw [scan?, StateT.run'_eq, f.run_internet (.inl rfl)]
  by_cases h : f.OnClock
  · rw [if_pos h, run_bind hf, run_bind hz, run_bind run_finish, ← f.toOption_ofLocal h ho]
    cases ofLocal f.civil f.clock 0 offset <;> rfl
  · rw [if_neg h, f.at?_of_not_onClock h]
    rfl

theorem inRange_of_valid (h : f.civil.valid) :
    (1 ≤ f.month.val ∧ f.month.val ≤ 12) ∧ 1 ≤ f.day.val ∧ f.day.val ≤ 31 := by
  obtain ⟨hm, hm', hd, hd'⟩ := Civil.fields_of_valid h
  exact ⟨⟨hm, hm'⟩, hd, hd'⟩

theorem at?_of_not_valid (h : ¬ f.civil.valid) (offset : Int) : f.at? offset = none :=
  if_neg fun he ↦ h he.1

theorem scan?_spaced : scan? spaced (f.date ++ ' ' :: f.time) = f.at? 0 := by
  have hblank : blanks.run (' ' :: f.time) = .ok ((), f.time ++ []) := by
    have htrim : Text.trimStart (' ' :: f.time) = f.time := trimStart_padded (by decide) _ _
    rw [blanks, run_modify, htrim, List.append_nil]
  rw [scan?, StateT.run'_eq, spaced, f.run_bind_date]
  split
  · rw [run_bind hblank, f.run_bind_clock]
    by_cases h : f.OnClock
    · rw [if_pos h, run_bind run_finish, ← f.toOption_ofLocal h (by decide)]
      cases ofLocal f.civil f.clock 0 0 <;> rfl
    · rw [if_neg h, f.at?_of_not_onClock h]
      rfl
  · next h =>
    -- the scanner stops at the field, before the calendar is asked
    rw [f.at?_of_not_valid fun hv ↦ h (f.inRange_of_valid hv)]
    rfl

/-- Without a distance the internet form breaks off. -/
theorem scan?_internet_time : scan? internet (f.date ++ ' ' :: f.time) = none := by
  have hrun := f.run_internet (.inr rfl) []
  rw [List.append_nil] at hrun
  rw [scan?, StateT.run'_eq, hrun]
  split <;> rfl

theorem scan?_internet_date : scan? internet f.date = none := by
  rw [← List.append_nil f.date, append_date, scan?, StateT.run'_eq, internet,
    run_bind_places f.year.isLt f.month.isLt f.day.isLt]
  rfl

theorem scan?_spaced_mark (rest : List Char) : scan? spaced (f.date ++ 'T' :: rest) = none := by
  rw [scan?, StateT.run'_eq, spaced, f.run_bind_date]
  split <;> rfl

theorem scan?_spaced_date : scan? spaced f.date = none := by
  rw [← List.append_nil f.date, scan?, StateT.run'_eq, spaced, f.run_bind_date]
  split <;> rfl

theorem scan?_dateOnly_cons (c : Char) (rest : List Char) :
    scan? dateOnly (f.date ++ c :: rest) = none := by
  rw [scan?, StateT.run'_eq, dateOnly, f.run_bind_date]
  split <;> rfl

def midnight : Fields :=
  { f with hour := 0, minute := 0, second := 0 }

theorem clock_midnight : f.midnight.clock = ⟨0, false⟩ := by
  simp [clock, midnight, Clock.ofFields]

theorem time_midnight : f.midnight.time = "00:00:00".toList := by
  simp only [time, midnight]
  decide

theorem scan?_dateOnly : scan? dateOnly f.date = f.midnight.at? 0 := by
  have hm : f.midnight.OnClock := by simp [OnClock, midnight]
  rw [← List.append_nil f.date, scan?, StateT.run'_eq, dateOnly, f.run_bind_date]
  split
  · rw [run_bind run_finish, ← f.midnight.toOption_ofLocal hm (by decide), clock_midnight,
      show f.midnight.civil = f.civil from rfl]
    cases ofLocal f.civil ⟨0, false⟩ 0 0 <;> rfl
  · next h =>
    rw [f.midnight.at?_of_not_valid fun hv ↦ h (f.inRange_of_valid hv)]
    rfl

theorem parse?_zuluText : parse? f.zuluText = f.at? 0 := by
  simp [parse?, zuluText, f.scan?_internet rfl (run_offset_zulu _ _) (by decide),
    scan?_spaced_mark, scan?_dateOnly_cons]

theorem parse?_zonedText (z : Zone) : parse? (f.zonedText z) = f.at? z.seconds := by
  simp [parse?, zonedText, f.scan?_internet z.run_fraction z.run_offset z.natAbs_seconds_lt,
    scan?_spaced_mark, scan?_dateOnly_cons]

theorem parse?_spacedText : parse? f.spacedText = f.at? 0 := by
  simp [parse?, spacedText, scan?_internet_time, scan?_spaced, scan?_dateOnly_cons]

theorem parse?_dateText : parse? f.dateText = f.midnight.at? 0 := by
  simp [parse?, dateText, scan?_internet_date, scan?_spaced_date, scan?_dateOnly]

theorem spacedText_midnight : f.midnight.spacedText = f.dateText ++ " 00:00:00" := by
  rw [spacedText, dateText, time_midnight, show f.midnight.date = f.date from rfl,
    String.ofList_append]
  rfl

theorem at?_of_exist (h : f.Exist) {offset : Int} (ho : offset.natAbs < 86400)
    (hm : offset % 60 = 0) : ∃ i, f.at? offset = some i ∧ i.seconds = f.seconds - offset ∧
      i.nanos = f.nanos := by
  have := f.year.isLt
  obtain ⟨hlow, hhigh⟩ := Civil.toDays_bounds h.1 (Int.natCast_nonneg f.year.val)
    (show (f.year.val : Int) ≤ 9999 by omega)
  obtain ⟨hhour, hminute, hsecond⟩ := h.2
  have hclock : f.clock.second = f.hour * 3600 + f.minute * 60 + min f.second.val 59 := rfl
  have hleap : 1000000000 ≤ f.nanos → f.second.val = 60 := by
    simp only [nanos, clock, Clock.ofFields, decide_eq_true_eq]
    split <;> omega
  have hnanos : f.nanos < 2000000000 := by
    unfold nanos
    split <;> decide
  rw [at?, if_pos h, make?, dif_pos]
  · exact ⟨_, rfl, rfl, rfl⟩
  · simp only [seconds]
    omega

/-- The instant shows the day and the time of day that were written. -/
theorem map_at?_zero : (f.at? 0).map (fun i ↦ (i.civil, i.secondOfDay, i.nanos)) =
    if f.Exist then some (f.civil, f.clock.second, f.nanos) else none := by
  split
  · next h =>
    obtain ⟨i, hi, hs, hn⟩ := f.at?_of_exist h (show (0 : Int).natAbs < 86400 by decide) rfl
    have hclock : f.clock.second = f.hour * 3600 + f.minute * 60 + min f.second.val 59 := rfl
    obtain ⟨hhour, hminute, -⟩ := h.2
    have hday : i.seconds / 86400 = f.civil.toDays := by
      simp only [hs, seconds]
      omega
    have hsecond : i.secondOfDay = f.clock.second := by
      simp only [secondOfDay, hs, seconds]
      omega
    rw [hi, Option.map_some, Instant.civil, hday, Civil.ofDays_toDays h.1, hsecond, hn]
  · next h => rw [at?, if_neg h, Option.map_none]

theorem map_at?_zone (z : Zone) : (f.at? z.seconds).map (fun i ↦ (i.seconds, i.nanos)) =
    (f.at? 0).map fun i ↦ (i.seconds - z.seconds, i.nanos) := by
  by_cases h : f.Exist
  · obtain ⟨i, hi, hs, hn⟩ := f.at?_of_exist h (show (0 : Int).natAbs < 86400 by decide) rfl
    obtain ⟨j, hj, hs', hn'⟩ := f.at?_of_exist h z.natAbs_seconds_lt z.seconds_emod
    rw [hi, hj, Option.map_some, Option.map_some, hs, hs', hn, hn', Int.sub_zero]
  · rw [at?, at?, if_neg h, if_neg h, Option.map_none, Option.map_none]

end Fields

/-- The forms of a date agree, whatever digits stand in the fields. With a zulu mark, or with a
blank before the time of day, the fields give one instant, which shows them, and none exactly if
there is no such day or time of day; a day alone is its midnight; and a distance from universal
time is taken off, also across the end of a day, a month or a year. -/
theorem forms_agree (f : Fields) :
    parse? f.zuluText = parse? f.spacedText ∧
      (parse? f.zuluText).map (fun i ↦ (i.civil, i.secondOfDay, i.nanos)) =
        (if f.Exist then some (f.civil, f.clock.second, f.nanos) else none) ∧
      parse? f.dateText = parse? (f.dateText ++ " 00:00:00") ∧
      ∀ z : Zone, (parse? (f.zonedText z)).map (fun i ↦ (i.seconds, i.nanos)) =
        (parse? f.zuluText).map fun i ↦ (i.seconds - z.seconds, i.nanos) := by
  rw [f.parse?_zuluText, f.parse?_spacedText, f.parse?_dateText, ← f.spacedText_midnight,
    f.midnight.parse?_spacedText]
  refine ⟨rfl, f.map_at?_zero, rfl, fun z ↦ ?_⟩
  rw [f.parse?_zonedText]
  exact f.map_at?_zone z

example : (parse? "2016-12-31T23:59:60-05:30").map exactText = some "2017-01-01T05:29:60Z" := by
  decide +kernel

end Storefront.Instant
