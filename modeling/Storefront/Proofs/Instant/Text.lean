import Storefront.Proofs.Instant.Calendar
import Storefront.Proofs.Instant.Scan

namespace Storefront.Instant

open Scan Number

/-- A leap second, if this is one, ends a minute. -/
def Regular (i : Instant) : Prop :=
  i.isLeap → i.seconds % 60 = 59

instance (i : Instant) : Decidable i.Regular :=
  inferInstanceAs (Decidable (_ → _))

/-- The moment that a text says: elsewhere a leap second cannot be told from the next second. -/
def shown (i : Instant) : Instant :=
  if h : i.Regular then i
  else
    have hs : i.isLeap ∧ ¬ i.seconds % 60 = 59 := Classical.not_imp.1 h
    { seconds := i.seconds + 1
      nanos := i.nanos - 1000000000
      nanos_lt := Nat.lt_of_le_of_lt (Nat.sub_le _ _) i.nanos_lt
      first_le := Int.le_trans i.first_le (by omega)
      le_last := by
        have := i.le_last
        omega }

def truncate (i : Instant) : Instant :=
  { i with
    nanos := i.nanos - i.nanos % 1000000
    nanos_lt := Nat.lt_of_le_of_lt (Nat.sub_le _ _) i.nanos_lt }

def ShortYear (i : Instant) : Prop :=
  0 ≤ i.civil.year ∧ i.civil.year ≤ 9999

instance (i : Instant) : Decidable i.ShortYear :=
  inferInstanceAs (Decidable (_ ∧ _))

/-- The instant has a wire text that gives it back. -/
def Settled (i : Instant) : Prop :=
  i.nanos % 1000000 = 0 ∧ i.ShortYear

instance (i : Instant) : Decidable i.Settled :=
  inferInstanceAs (Decidable (_ ∧ _))

theorem truncate_eq_self_iff {i : Instant} : i.truncate = i ↔ i.nanos % 1000000 = 0 := by
  constructor
  · intro h
    have hn : i.nanos - i.nanos % 1000000 = i.nanos := congrArg nanos h
    have := Nat.mod_le i.nanos 1000000
    omega
  · intro h
    cases i
    simp only [truncate, h, Nat.sub_zero]

theorem fraction_truncate (i : Instant) :
    i.truncate.fraction = i.fraction / 1000000 * 1000000 := by
  change (i.nanos - i.nanos % 1000000) % 1000000000 = i.nanos % 1000000000 / 1000000 * 1000000
  omega

theorem isLeap_truncate (i : Instant) : i.truncate.isLeap = i.isLeap := by
  apply decide_eq_decide.2
  change 1000000000 ≤ i.nanos - i.nanos % 1000000 ↔ _
  omega

theorem regular_truncate {i : Instant} (h : i.Regular) : i.truncate.Regular := by
  rwa [Regular, isLeap_truncate]

theorem text_truncate (i : Instant) : i.truncate.text = i.text := by
  simp only [text, fraction_truncate, Nat.mul_div_cancel _ (show 0 < 1000000 by decide), textWith,
    isLeap_truncate]
  rfl

section Reading

variable {y m d hour minute second nanos : Nat} {offset : Int}

/-- The internet form comes to the fraction if there is such a time of day. -/
theorem run_internet_fields {separator : Char} (hs : separator = 'T' ∨ separator = ' ')
    (hy : y < 10000) (hm : m < 100) (hd : d < 100) (hh : hour < 100) (hn : minute < 100)
    (hsec : second < 100) (rest : List Char) :
    internet.run (padded 4 y ++ '-' :: (padded 2 m ++ '-' :: (padded 2 d ++ separator ::
      (padded 2 hour ++ ':' :: (padded 2 minute ++ ':' :: (padded 2 second ++ rest)))))) =
      if hour ≤ 23 ∧ minute ≤ 59 ∧ second ≤ 60 then
        (do
          let nanos ← Scan.fraction
          let offset ← Scan.offset (literal ':')
          finish
          ofLocal ⟨y, m, d⟩ (.ofFields hour minute second) nanos offset : Scan Instant).run rest
      else .error .outOfRange := by
  rw [internet, run_bind_places hy hm hd, run_bind (run_get _)]
  dsimp only
  rw [if_pos (by rcases hs with rfl | rfl <;> decide), run_bind (run_set _ _),
    run_bind (run_exactly hh (by decide) _), run_bind_inRange, run_bind (run_literal _ _),
    run_bind (run_exactly hn (by decide) _), run_bind_inRange, run_bind (run_literal _ _),
    run_bind (run_exactly hsec (by decide) _), run_bind_inRange]
  simp only [ite_and, Nat.zero_le, true_and]

theorem run_internet {fraction zone : List Char} (hy : y < 10000) (hm : m < 100) (hd : d < 100)
    (hh : hour ≤ 23) (hn : minute ≤ 59) (hs : second ≤ 60)
    (hf : Scan.fraction.run fraction = .ok (nanos, zone))
    (hz : (Scan.offset (literal ':')).run zone = .ok (offset, [])) :
    internet.run (padded 4 y ++ '-' :: (padded 2 m ++ '-' :: (padded 2 d ++ 'T' ::
      (padded 2 hour ++ ':' :: (padded 2 minute ++ ':' :: (padded 2 second ++ fraction)))))) =
      (ofLocal ⟨y, m, d⟩ (.ofFields hour minute second) nanos offset).map (·, []) := by
  rw [run_internet_fields (.inl rfl) hy hm hd (by omega) (by omega) (by omega),
    if_pos ⟨hh, hn, hs⟩, run_bind hf, run_bind hz, run_bind run_finish]
  cases ofLocal ⟨y, m, d⟩ (.ofFields hour minute second) nanos offset <;> rfl

theorem scan?_of_ok {s : Scan Instant} {cs rest : List Char} {i : Instant}
    (h : s.run cs = .ok (i, rest)) : scan? s cs = some i := by
  rw [scan?, StateT.run'_eq, h]
  rfl

theorem scan?_of_error {s : Scan Instant} {cs : List Char} {e : Fault}
    (h : s.run cs = .error e) : scan? s cs = none := by
  rw [scan?, StateT.run'_eq, h]
  rfl

/-- A signed year takes the first two readers out, and the time of day the third. -/
theorem parse?_signed {sign : Char} (hs : sign = '-' ∨ sign = '+') {digits : List Char}
    (hd : ∀ c ∈ digits, c.isDigit) (hne : digits ≠ [])
    (hlt : Nat.ofDigitChars 10 digits 0 < Nat.pow 2 31) (hm : 1 ≤ m ∧ m ≤ 12)
    (hday : 1 ≤ d ∧ d ≤ 31) (rest : List Char) :
    parse? (String.ofList
      (sign :: (digits ++ '-' :: (padded 2 m ++ '-' :: (padded 2 d ++ 'T' :: rest))))) = none := by
  have hsign : ¬ sign.isDigit := by rcases hs with rfl | rfl <;> decide
  have hdash : NoDigit ('-' :: (padded 2 m ++ '-' :: (padded 2 d ++ 'T' :: rest))) :=
    noDigit_cons.2 (by decide)
  obtain ⟨year, hyear⟩ := run_year hs hd hne hlt hdash
  have hdate : (Scan.date tight).run
      (sign :: (digits ++ '-' :: (padded 2 m ++ '-' :: (padded 2 d ++ 'T' :: rest)))) =
      .ok (⟨year, m, d⟩, 'T' :: rest) := by
    rw [Scan.date, run_bind hyear, tight, run_bind (show (pure () : Scan Unit).run _ = _ from rfl),
      run_bind (run_literal _ _), run_bind (run_field hm.1 hm.2 (by omega) _),
      run_bind (show (pure () : Scan Unit).run _ = _ from rfl), run_bind (run_literal _ _),
      run_bind (run_field hday.1 hday.2 (by omega) _)]
    rfl
  have hi : internet.run
      (sign :: (digits ++ '-' :: (padded 2 m ++ '-' :: (padded 2 d ++ 'T' :: rest)))) =
      .error .invalid :=
    run_bind_error _ (run_bind_error _ (run_digits_error hsign _ _))
  have hsp : spaced.run
      (sign :: (digits ++ '-' :: (padded 2 m ++ '-' :: (padded 2 d ++ 'T' :: rest)))) =
      .error .invalid := by
    rw [spaced, run_bind hdate]
    rfl
  have hdo : dateOnly.run
      (sign :: (digits ++ '-' :: (padded 2 m ++ '-' :: (padded 2 d ++ 'T' :: rest)))) =
      .error .trailing := by
    rw [dateOnly, run_bind hdate]
    rfl
  simp only [parse?, String.toList_ofList, scan?_of_error hi, scan?_of_error hsp,
    scan?_of_error hdo]
  rfl

end Reading

theorem make?_eq_some_iff {i : Instant} {seconds : Int} {nanos : Nat} :
    make? seconds nanos = some i ↔ seconds = i.seconds ∧ nanos = i.nanos ∧ i.Regular := by
  rw [make?]
  split
  · next h =>
    rw [Option.some.injEq]
    constructor
    · rintro rfl
      exact ⟨rfl, rfl, fun hl ↦ h.2.1 (of_decide_eq_true hl)⟩
    · rintro ⟨rfl, rfl, -⟩
      rfl
  · next h =>
    refine iff_of_false nofun ?_
    rintro ⟨rfl, rfl, hr⟩
    exact h ⟨i.nanos_lt, fun hl ↦ hr (decide_eq_true hl), i.first_le, i.le_last⟩

section Results

def YieldsRegular (s : Scan Instant) : Prop :=
  ∀ cs i rest, s.run cs = .ok (i, rest) → i.Regular

theorem yieldsRegular_bind {α : Type} {x : Scan α} {f : α → Scan Instant}
    (h : ∀ a, YieldsRegular (f a)) : YieldsRegular (x >>= f) := by
  intro cs i rest hrun
  rw [StateT.run_bind] at hrun
  cases hx : x.run cs with
  | error e =>
    rw [hx] at hrun
    cases hrun
  | ok p =>
    rw [hx] at hrun
    exact h p.1 p.2 i rest hrun

theorem yieldsRegular_throw {α : Type} (e : Fault) (f : α → Scan Instant) :
    YieldsRegular (throw e >>= f) := by
  intro cs i rest hrun
  cases hrun

theorem yieldsRegular_ofLocal (d : Civil) (clock : Clock) (nanos : Nat) (offset : Int) :
    YieldsRegular (ofLocal d clock nanos offset : Except Fault Instant) := by
  intro cs i rest hrun
  have hl : ofLocal d clock nanos offset = .ok i := by
    cases h : ofLocal d clock nanos offset with
    | error e =>
      rw [h] at hrun
      cases hrun
    | ok j =>
      rw [h] at hrun
      cases hrun
      rfl
  rw [ofLocal] at hl
  split at hl
  · cases hl
  · split at hl
    · next hm =>
      cases hl
      exact (make?_eq_some_iff.1 hm).2.2
    · cases hl

theorem yieldsRegular_internet : YieldsRegular internet := by
  unfold internet
  iterate 6 refine yieldsRegular_bind fun _ ↦ ?_
  split
  · dsimp only
    split
    · iterate 12 refine yieldsRegular_bind fun _ ↦ ?_
      exact yieldsRegular_ofLocal _ _ _ _
    · exact yieldsRegular_throw _ _
  · exact yieldsRegular_throw _ _

theorem yieldsRegular_spaced : YieldsRegular spaced :=
  yieldsRegular_bind fun _ ↦ yieldsRegular_bind fun _ ↦ yieldsRegular_bind fun _ ↦ yieldsRegular_bind fun _ ↦
    yieldsRegular_ofLocal _ _ _ _

theorem yieldsRegular_dateOnly : YieldsRegular dateOnly :=
  yieldsRegular_bind fun _ ↦ yieldsRegular_bind fun _ ↦ yieldsRegular_ofLocal _ _ _ _

theorem regular_of_scan? {s : Scan Instant} (hs : YieldsRegular s) {cs : List Char} {i : Instant}
    (h : scan? s cs = some i) : i.Regular := by
  cases hrun : s.run cs with
  | error e =>
    rw [scan?_of_error hrun] at h
    cases h
  | ok p =>
    rw [scan?_of_ok hrun] at h
    cases h
    exact hs cs p.1 p.2 hrun

theorem regular_of_parse? {text : String} {i : Instant} (h : parse? text = some i) : i.Regular := by
  simp only [parse?, Option.orElse_eq_orElse, Option.orElse_eq_or, Option.or_eq_some_iff] at h
  rcases h with h | ⟨-, h | ⟨-, h⟩⟩
  · exact regular_of_scan? yieldsRegular_internet h
  · exact regular_of_scan? yieldsRegular_spaced h
  · exact regular_of_scan? yieldsRegular_dateOnly h

end Results

variable (i : Instant)

section Shown

variable {i}

theorem shown_of_regular (h : i.Regular) : i.shown = i :=
  dif_pos h

theorem seconds_shown (h : ¬ i.Regular) : i.shown.seconds = i.seconds + 1 := by
  rw [shown, dif_neg h]

theorem nanos_shown (h : ¬ i.Regular) : i.shown.nanos = i.nanos - 1000000000 := by
  rw [shown, dif_neg h]

theorem le_nanos (h : ¬ i.Regular) : 1000000000 ≤ i.nanos :=
  of_decide_eq_true (Classical.not_imp.1 h).1

theorem seconds_emod (h : ¬ i.Regular) : i.seconds % 60 ≠ 59 :=
  (Classical.not_imp.1 h).2

theorem isLeap_shown (h : ¬ i.Regular) : i.shown.isLeap = false := by
  have := i.nanos_lt
  rw [isLeap, nanos_shown h, decide_eq_false_iff_not]
  omega

theorem civil_shown (h : ¬ i.Regular) : i.shown.civil = i.civil := by
  have := seconds_emod h
  rw [civil, civil, seconds_shown h]
  congr 1
  omega

theorem secondOfDay_shown (h : ¬ i.Regular) : i.shown.secondOfDay = i.secondOfDay + 1 := by
  have := seconds_emod h
  rw [secondOfDay, secondOfDay, seconds_shown h]
  omega

theorem secondOfDay_mod (h : ¬ i.Regular) : i.secondOfDay % 60 ≠ 59 := by
  have := seconds_emod h
  rw [secondOfDay]
  omega

end Shown

theorem regular_shown : i.shown.Regular := by
  by_cases h : i.Regular
  · rwa [shown_of_regular h]
  · intro hl
    rw [isLeap_shown h] at hl
    cases hl

theorem fraction_shown : i.shown.fraction = i.fraction := by
  by_cases h : i.Regular
  · rw [shown_of_regular h]
  · have := le_nanos h
    rw [fraction, fraction, nanos_shown h]
    omega

theorem textWith_shown (fraction : List Char) :
    i.shown.textWith fraction = i.textWith fraction := by
  by_cases h : i.Regular
  · rw [shown_of_regular h]
  · have hl : i.isLeap = true := (Classical.not_imp.1 h).1
    have hmod := secondOfDay_mod h
    have hhour : (i.secondOfDay + 1) / 3600 = i.secondOfDay / 3600 := by omega
    have hminute : (i.secondOfDay + 1) / 60 = i.secondOfDay / 60 := by omega
    have hsecond : (i.secondOfDay + 1) % 60 = i.secondOfDay % 60 + 1 := by omega
    simp only [textWith, civil_shown h, secondOfDay_shown h, isLeap_shown h, hl, hhour, hminute,
      hsecond, if_true, Bool.false_eq_true, if_false]

theorem text_shown : i.shown.text = i.text := by
  rw [text, text, fraction_shown, textWith_shown]

theorem shortYear_shown : i.shown.ShortYear ↔ i.ShortYear := by
  by_cases h : i.Regular
  · rw [shown_of_regular h]
  · rw [ShortYear, ShortYear, civil_shown h]

theorem valid_civil : i.civil.valid :=
  Civil.valid_ofDays _

theorem toDays_civil : i.civil.toDays = i.seconds / 86400 :=
  Civil.toDays_ofDays _

def shownSecond : Nat :=
  if i.isLeap then i.secondOfDay % 60 + 1 else i.secondOfDay % 60

theorem secondOfDay_mod_of_isLeap {i : Instant} (hr : i.Regular) (h : i.isLeap) :
    i.secondOfDay % 60 = 59 := by
  have := hr h
  unfold secondOfDay
  omega

theorem secondOfDay_lt : i.secondOfDay < 86400 := by
  unfold secondOfDay
  omega

theorem clock_eq {i : Instant} (hr : i.Regular) :
    Clock.ofFields (i.secondOfDay / 3600) (i.secondOfDay / 60 % 60) i.shownSecond =
      ⟨i.secondOfDay, i.isLeap⟩ := by
  simp only [Clock.ofFields, shownSecond, Clock.mk.injEq]
  by_cases h : i.isLeap
  · have := secondOfDay_mod_of_isLeap hr h
    exact ⟨by simp only [h, if_true]; omega, by simp [h, this]⟩
  · exact ⟨by simp only [h, Bool.false_eq_true, if_false]; omega, by simp [h]; omega⟩

theorem ofLocal_civil (h : i.ShortYear) (nanos : Nat) {j : Instant} (hj : j.Regular)
    (hs : j.seconds = i.seconds)
    (hn : j.nanos = if i.isLeap then nanos + 1000000000 else nanos) :
    ofLocal i.civil ⟨i.secondOfDay, i.isLeap⟩ nanos 0 = .ok j := by
  have hlow : ¬ i.civil.year < firstYear := Int.not_lt.2 (Int.le_trans (by decide) h.1)
  have hhigh : ¬ lastYear < i.civil.year := Int.not_lt.2 (Int.le_trans h.2 (by decide))
  have hm : make? (i.civil.toDays * 86400 + i.secondOfDay)
      (if i.isLeap then nanos + 1000000000 else nanos) = some j := by
    refine make?_eq_some_iff.2 ⟨?_, hn.symm, hj⟩
    rw [hs, toDays_civil, secondOfDay]
    omega
  simp [ofLocal, i.valid_civil, hlow, hhigh, hm]

theorem toList_textWith (fraction : List Char) : (i.textWith fraction).toList =
    yearText i.civil.year ++ '-' :: (padded 2 i.civil.month ++ '-' :: (padded 2 i.civil.day ++
      'T' :: (padded 2 (i.secondOfDay / 3600) ++ ':' :: (padded 2 (i.secondOfDay / 60 % 60) ++
        ':' :: (padded 2 i.shownSecond ++ (fraction ++ ['Z'])))))) := by
  simp [textWith, shownSecond]

theorem shownSecond_le : i.shownSecond ≤ 60 := by
  unfold shownSecond
  split <;> omega

theorem civil_of_shortYear (h : i.ShortYear) :
    (⟨(i.civil.year.toNat : Nat), i.civil.month, i.civil.day⟩ : Civil) = i.civil := by
  rw [Int.toNat_of_nonneg h.1]

/-- The text of an instant of a short year, with any fraction that can be read. -/
theorem parse?_textWith (hr : i.Regular) (h : i.ShortYear) {fraction : List Char} {nanos : Nat}
    (hf : Scan.fraction.run (fraction ++ ['Z']) = .ok (nanos, ['Z'])) {j : Instant}
    (hj : j.Regular) (hs : j.seconds = i.seconds) (hn : j.nanos = if i.isLeap then nanos + 1000000000 else nanos) :
    parse? (i.textWith fraction) = some j := by
  obtain ⟨hm, hm', hd, hd'⟩ := Civil.fields_of_valid i.valid_civil
  have hlt := i.secondOfDay_lt
  have h4 : i.civil.year.toNat < 10000 := by
    have := h.2
    omega
  have hrun := run_internet (m := i.civil.month) (d := i.civil.day) h4 (by omega) (by omega)
    (show i.secondOfDay / 3600 ≤ 23 by omega) (show i.secondOfDay / 60 % 60 ≤ 59 by omega)
    i.shownSecond_le hf (run_offset_zulu _ _)
  rw [i.civil_of_shortYear h, clock_eq hr, i.ofLocal_civil h _ hj hs hn] at hrun
  have htext := i.toList_textWith fraction
  rw [yearText, if_pos (show 0 ≤ i.civil.year ∧ i.civil.year ≤ 9999 from h)] at htext
  simp only [parse?, htext]
  rw [scan?_of_ok hrun]
  rfl

theorem run_fraction_millis : Scan.fraction.run ('.' :: padded 3 (i.fraction / 1000000) ++ ['Z']) =
    .ok (i.fraction / 1000000 * 1000000, ['Z']) := by
  have hmillis : i.fraction / 1000000 < Nat.pow 10 3 := by
    change i.nanos % 1000000000 / 1000000 < 1000
    omega
  exact run_fraction hmillis (by decide) (by decide) (by simp)

theorem nanos_truncate : i.truncate.nanos =
    if i.isLeap then i.fraction / 1000000 * 1000000 + 1000000000
    else i.fraction / 1000000 * 1000000 := by
  have := i.nanos_lt
  simp only [truncate, fraction, isLeap, decide_eq_true_eq]
  split <;> omega

theorem parse?_text_of_shortYear (h : i.ShortYear) : parse? i.text = some i.shown.truncate := by
  have hr := i.regular_shown
  rw [← i.text_shown]
  exact i.shown.parse?_textWith hr (i.shortYear_shown.2 h) i.shown.run_fraction_millis
    (regular_truncate hr) rfl i.shown.nanos_truncate

theorem yearText_of_not_shortYear (h : ¬ i.ShortYear) : ∃ sign digits,
    yearText i.civil.year = sign :: digits ∧ (sign = '-' ∨ sign = '+') ∧
      (∀ c ∈ digits, c.isDigit) ∧ digits ≠ [] ∧ Nat.ofDigitChars 10 digits 0 < Nat.pow 2 31 := by
  have hlt : i.civil.year.natAbs < Nat.pow 2 31 := by
    have := i.first_le
    have := i.le_last
    exact Civil.year_ofDays_lt (by omega)
  have hsign (n : Int) :
      (if n < 0 then '-' else '+') = '-' ∨ (if n < 0 then '-' else '+') = '+' := by
    split
    · exact .inl rfl
    · exact .inr rfl
  rw [yearText, if_neg (show ¬ (0 ≤ i.civil.year ∧ i.civil.year ≤ 9999) from h)]
  refine ⟨_, _, rfl, hsign _, ?_⟩
  split
  · next hle =>
    have hpow : Nat.pow 10 4 = 10000 := rfl
    refine ⟨fun c ↦ isDigit_of_mem_padded, padded_ne_nil (by decide) _, ?_⟩
    rwa [ofDigitChars_padded (by omega)]
  · refine ⟨fun c ↦ Nat.isDigit_of_mem_toDigits (by decide) (by decide), Nat.toDigits_ne_nil, ?_⟩
    rwa [Nat.ofDigitChars_ten_toDigits]

theorem parse?_text_of_not_shortYear (h : ¬ i.ShortYear) : parse? i.text = none := by
  obtain ⟨sign, digits, hyear, hs, hd, hne, hlt⟩ := i.yearText_of_not_shortYear h
  obtain ⟨hm, hm', hday, hday'⟩ := Civil.fields_of_valid i.valid_civil
  have htext := i.toList_textWith ('.' :: padded 3 (i.fraction / 1000000))
  rw [hyear] at htext
  rw [text, ← String.ofList_toList (s := i.textWith _), htext]
  exact parse?_signed hs hd hne hlt ⟨hm, hm'⟩ ⟨hday, hday'⟩ _

/-- A leap second that stands after the first second of 1970. -/
def early : Instant :=
  ⟨0, 1500000000, by decide, by decide, by decide⟩

end Storefront.Instant
