import Mathlib.Tactic.Ring
import Storefront.Proofs.Number.Rounding
import Storefront.Proofs.Number.Text

namespace Storefront.Number

open Instant.Scan

/-- A number as it is written: a sign, digits before the point, digits after it unless there is
none, and an exponent with its sign. -/
structure Numeral where
  negative : Bool
  whole : List Char
  fraction : List Char
  exponent : Option (Bool × List Char)
  whole_ne_nil : whole ≠ []
  isDigit_whole : ∀ c ∈ whole, c.isDigit
  isDigit_fraction : ∀ c ∈ fraction, c.isDigit
  isDigit_exponent : ∀ e ∈ exponent, e.2 ≠ [] ∧ ∀ c ∈ e.2, c.isDigit

namespace Numeral

def exponentChars : Option (Bool × List Char) → List Char
  | none => []
  | some (negative, digits) => 'e' :: (if negative then '-' else '+') :: digits

variable (n : Numeral)

def rest : List Char :=
  if n.fraction = [] then exponentChars n.exponent
  else '.' :: (n.fraction ++ exponentChars n.exponent)

def magnitude : List Char :=
  n.whole ++ n.rest

def chars : List Char :=
  if n.negative then '-' :: n.magnitude else n.magnitude

def power : ℤ :=
  match n.exponent with
  | none => 0
  | some (negative, digits) =>
    if negative then -(Nat.ofDigitChars 10 digits 0 : ℤ) else Nat.ofDigitChars 10 digits 0

def value : ℚ :=
  withSign n.negative
    ((Nat.ofDigitChars 10 n.whole 0 + Nat.ofDigitChars 10 n.fraction 0 / 10 ^ n.fraction.length) *
      10 ^ n.power)

def IsPlain : Prop :=
  n.fraction = [] ∧ n.exponent = none

instance : Decidable n.IsPlain :=
  inferInstanceAs (Decidable (_ ∧ _))

def toDecimal : Decimal :=
  ⟨n.negative, Nat.ofDigitChars 10 (n.whole ++ n.fraction) 0, n.power - n.fraction.length⟩

theorem value_toDecimal : n.toDecimal.value = n.value := by
  have hten : (10 : ℚ) ≠ 0 := by norm_num
  rw [Decimal.value, value, toDecimal, Nat.ofDigitChars_append,
    Nat.ofDigitChars_eq_ofDigitChars_zero, zpow_sub₀ hten, zpow_natCast]
  congr 1
  push_cast
  field_simp

theorem isNearest_ofDecimal : (Double.ofDecimal n.toDecimal).IsNearest n.value :=
  n.value_toDecimal ▸ Double.isNearest_ofDecimal n.toDecimal

theorem noDigit_exponentChars (e : Option (Bool × List Char)) : NoDigit (exponentChars e) := by
  cases e with
  | none => exact noDigit_nil
  | some => exact noDigit_cons.2 (by decide)

theorem fractionPart_exponentChars (e : Option (Bool × List Char)) :
    Decimal.fractionPart (exponentChars e) = ([], exponentChars e) := by
  cases e <;> rfl

theorem exponentPart?_exponentChars :
    Decimal.exponentPart? (exponentChars n.exponent) = some n.power := by
  rw [power]
  cases he : n.exponent with
  | none => rfl
  | some e =>
    obtain ⟨negative, digits⟩ := e
    have hd := n.isDigit_exponent (negative, digits) he
    have ha := allDigits_of_forall hd.1 hd.2
    change wholeNumber? ((if negative then '-' else '+') :: digits) = _
    cases negative <;> simp [wholeNumber?, ha]

theorem unsigned?_magnitude : Decimal.unsigned? n.negative n.magnitude = some n.toDecimal := by
  have he := n.exponentPart?_exponentChars
  have hr := noDigit_exponentChars n.exponent
  rw [magnitude, rest, toDecimal]
  split
  · next hf =>
    rw [Decimal.unsigned?_whole n.negative n.isDigit_whole n.whole_ne_nil hr
      (fractionPart_exponentChars _) he, hf, List.append_nil, List.length_nil, Int.natCast_zero,
      Int.sub_zero]
  · exact Decimal.unsigned?_point n.negative n.isDigit_whole n.whole_ne_nil n.isDigit_fraction hr he

theorem ofLexeme?_chars : Decimal.ofLexeme? n.chars = some n.toDecimal :=
  Decimal.ofLexeme?_signed n.unsigned?_magnitude

theorem noDigit_rest : NoDigit n.rest := by
  rw [rest]
  split
  · exact noDigit_exponentChars _
  · exact noDigit_cons.2 (by decide)

theorem rest_eq_nil_iff : n.rest = [] ↔ n.IsPlain := by
  rw [rest, IsPlain]
  split
  · next hf => cases he : n.exponent <;> simp [hf, exponentChars]
  · next hf => simp [hf]

theorem allDigits_magnitude_iff : allDigits n.magnitude ↔ n.IsPlain := by
  rw [← rest_eq_nil_iff, magnitude]
  constructor
  · intro h
    cases hr : n.rest with
    | nil => rfl
    | cons c cs =>
      have hc := n.noDigit_rest c (by simp [hr])
      simp only [allDigits, hr, Bool.and_eq_true, List.all_append, List.all_cons] at h
      exact absurd h.2.2.1 hc
  · intro h
    rw [h, List.append_nil]
    exact allDigits_of_forall n.whole_ne_nil n.isDigit_whole

theorem wholeNumber?_chars : wholeNumber? n.chars =
    if allDigits n.magnitude then
      some (if n.negative then -(Nat.ofDigitChars 10 n.magnitude 0 : ℤ)
        else Nat.ofDigitChars 10 n.magnitude 0)
    else none := by
  rw [chars]
  cases n.negative with
  | true => rfl
  | false =>
    obtain ⟨c, cs, hw⟩ := List.exists_cons_of_ne_nil n.whole_ne_nil
    have hc : c.isDigit := n.isDigit_whole c (hw ▸ List.mem_cons_self)
    rw [magnitude, hw]
    exact wholeNumber?_digit hc _

/-- Only a plain numeral is read as a whole number, and as the one that it stands for. -/
theorem wholeNumber?_chars_eq_some_iff {k : ℤ} :
    wholeNumber? n.chars = some k ↔ n.IsPlain ∧ n.value = k := by
  rw [wholeNumber?_chars]
  by_cases h : n.IsPlain
  · have hm : n.magnitude = n.whole := by
      rw [magnitude, n.rest_eq_nil_iff.2 h, List.append_nil]
    have hv : n.value = withSign n.negative (Nat.ofDigitChars 10 n.whole 0) := by
      simp [value, power, h.1, h.2]
    rw [if_pos (n.allDigits_magnitude_iff.2 h), hm, hv, Option.some_inj]
    cases n.negative <;> simp [h, withSign] <;> norm_cast
  · rw [if_neg (mt n.allDigits_magnitude_iff.1 h)]
    simp [h]

theorem exists_value_eq_int (h : n.IsPlain) : ∃ k : ℤ, n.value = k := by
  have hw := n.wholeNumber?_chars
  rw [if_pos (n.allDigits_magnitude_iff.2 h)] at hw
  exact ⟨_, (n.wholeNumber?_chars_eq_some_iff.1 hw).2⟩

/-! A numeral grows by one digit at its end, or by a mark and the digit after it. -/

section Growth

variable {n : Numeral} {c : Char}

theorem chars_eq_append {n' : Numeral} {cs : List Char} (hs : n'.negative = n.negative)
    (hm : n'.magnitude = n.magnitude ++ cs) : n'.chars = n.chars ++ cs := by
  rw [chars, chars, hs, hm]
  split <;> rfl

theorem forall_isDigit_singleton (hc : c.isDigit) : ∀ d ∈ [c], d.isDigit := by
  intro d hd
  rwa [List.mem_singleton.1 hd]

variable (hc : c.isDigit)
include hc

theorem forall_isDigit_concat {cs : List Char} (h : ∀ d ∈ cs, d.isDigit) :
    ∀ d ∈ cs ++ [c], d.isDigit := by
  rw [List.forall_mem_append]
  exact ⟨h, forall_isDigit_singleton hc⟩

theorem exists_digit (negative : Bool) :
    ∃ n : Numeral, n.IsPlain ∧ n.chars = if negative then ['-', c] else [c] := by
  have hd := forall_isDigit_singleton hc
  exact ⟨⟨negative, [c], [], none, List.cons_ne_nil c [], hd, nofun, nofun⟩, ⟨rfl, rfl⟩, rfl⟩

theorem exists_whole (h : n.IsPlain) : ∃ n' : Numeral, n'.IsPlain ∧ n'.chars = n.chars ++ [c] := by
  refine ⟨{ n with
    whole := n.whole ++ [c]
    whole_ne_nil := List.append_ne_nil_of_left_ne_nil n.whole_ne_nil _
    isDigit_whole := forall_isDigit_concat hc n.isDigit_whole }, h, chars_eq_append rfl ?_⟩
  simp [magnitude, rest, h.1, h.2, exponentChars]

theorem exists_point (h : n.IsPlain) : ∃ n' : Numeral,
    n'.exponent = none ∧ n'.fraction ≠ [] ∧ n'.chars = n.chars ++ ['.', c] := by
  refine ⟨{ n with
    fraction := [c]
    isDigit_fraction := forall_isDigit_singleton hc }, h.2, List.cons_ne_nil c [], chars_eq_append rfl ?_⟩
  simp [magnitude, rest, h.1, h.2, exponentChars]

theorem exists_fraction (he : n.exponent = none) (hf : n.fraction ≠ []) : ∃ n' : Numeral,
    n'.exponent = none ∧ n'.fraction ≠ [] ∧ n'.chars = n.chars ++ [c] := by
  refine ⟨{ n with
    fraction := n.fraction ++ [c]
    isDigit_fraction := forall_isDigit_concat hc n.isDigit_fraction }, he,
    List.append_ne_nil_of_left_ne_nil hf _, chars_eq_append rfl ?_⟩
  simp [magnitude, rest, hf, he, exponentChars]

theorem exists_mark (he : n.exponent = none) (negative : Bool) : ∃ n' : Numeral,
    n'.exponent.isSome ∧ n'.chars = n.chars ++ ['e', if negative then '-' else '+', c] := by
  refine ⟨{ n with
    exponent := some (negative, [c])
    isDigit_exponent := ?_ }, rfl, chars_eq_append rfl ?_⟩
  · rintro e ⟨⟩
    exact ⟨List.cons_ne_nil c [], forall_isDigit_singleton hc⟩
  · by_cases hf : n.fraction = [] <;>
      simp [magnitude, rest, hf, he, exponentChars]

theorem exists_exponent (he : n.exponent.isSome) : ∃ n' : Numeral,
    n'.exponent.isSome ∧ n'.chars = n.chars ++ [c] := by
  obtain ⟨⟨negative, digits⟩, he⟩ := Option.isSome_iff_exists.1 he
  have hd := n.isDigit_exponent _ he
  refine ⟨{ n with
    exponent := some (negative, digits ++ [c])
    isDigit_exponent := ?_ }, rfl, chars_eq_append rfl ?_⟩
  · rintro e ⟨⟩
    exact ⟨List.append_ne_nil_of_left_ne_nil hd.1 _, forall_isDigit_concat hc hd.2⟩
  · by_cases hf : n.fraction = [] <;>
      simp [magnitude, rest, hf, he, exponentChars]

end Growth

end Numeral

end Storefront.Number
