import Mathlib.Data.List.TakeDrop
import Mathlib.Data.List.TakeWhile
import Storefront.Proofs.Instant.Scan
import Storefront.Proofs.Number.Nearest

namespace Storefront.Number

open Instant.Scan

theorem span_isDigit {whole rest : List Char} (hw : ∀ c ∈ whole, c.isDigit) (hr : NoDigit rest) :
    (whole ++ rest).span Char.isDigit = (whole, rest) := by
  rw [List.span_eq_takeWhile_dropWhile, List.takeWhile_append_of_pos hw,
    List.dropWhile_append_of_pos hw]
  cases rest with
  | nil => simp
  | cons c rest => simp [noDigit_cons.1 hr]

theorem allDigits_of_forall {cs : List Char} (hne : cs ≠ []) (h : ∀ c ∈ cs, c.isDigit) :
    allDigits cs := by
  simpa [allDigits, hne] using h

theorem wholeNumber?_digit {c : Char} (hc : c.isDigit) (cs : List Char) : wholeNumber? (c :: cs) =
    if allDigits (c :: cs) then some (Nat.ofDigitChars 10 (c :: cs) 0 : Int) else none := by
  have hm : c ≠ '-' := by
    rintro rfl
    exact absurd hc (by decide)
  have hp : c ≠ '+' := by
    rintro rfl
    exact absurd hc (by decide)
  rw [wholeNumber?]
  · intro cs' he
    exact hm (List.cons.inj he).1
  · intro cs' he
    exact hp (List.cons.inj he).1

theorem wholeNumber?_of_digits {c : Char} {cs : List Char} (h : ∀ d ∈ c :: cs, d.isDigit) :
    wholeNumber? (c :: cs) = some (Nat.ofDigitChars 10 (c :: cs) 0 : Int) := by
  rw [wholeNumber?_digit (h c List.mem_cons_self),
    if_pos (allDigits_of_forall (List.cons_ne_nil c cs) h)]

theorem isDigit_toDigits (n : Nat) : ∀ c ∈ Nat.toDigits 10 n, c.isDigit :=
  fun _ ↦ Nat.isDigit_of_mem_toDigits (by decide) (by decide)

theorem wholeNumber?_toDigits (n : Nat) : wholeNumber? (Nat.toDigits 10 n) = some (n : Int) := by
  have hd := isDigit_toDigits n
  have hv : Nat.ofDigitChars 10 (Nat.toDigits 10 n) 0 = n := Nat.ofDigitChars_ten_toDigits
  cases hc : Nat.toDigits 10 n with
  | nil => exact absurd hc Nat.toDigits_ne_nil
  | cons c cs =>
    rw [hc] at hd hv
    rw [wholeNumber?_of_digits hd, hv]

theorem wholeNumber?_sign (n : Nat) : wholeNumber? ('-' :: Nat.toDigits 10 n) = some (-(n : Int)) ∧
    wholeNumber? ('+' :: Nat.toDigits 10 n) = some (n : Int) := by
  have ha := allDigits_of_forall Nat.toDigits_ne_nil (isDigit_toDigits n)
  simp only [wholeNumber?, ha, if_true, Nat.ofDigitChars_ten_toDigits, and_self]

theorem wholeNumber?_intText (n : Int) : wholeNumber? (intText n) = some n := by
  rw [intText]
  split
  · rw [(wholeNumber?_sign _).1]
    exact congrArg some (by omega)
  · rw [wholeNumber?_toDigits]
    exact congrArg some (by omega)

theorem int64?_eq_some_iff {s : String} {n : Int64} :
    int64? s = some n ↔ wholeNumber? s.toList = some n.toInt := by
  have hl : -(Nat.pow 2 63 : Int) ≤ n.toInt := n.le_toInt
  have hh : n.toInt < (Nat.pow 2 63 : Int) := n.toInt_lt
  rw [int64?]
  cases wholeNumber? s.toList with
  | none => exact iff_of_false nofun nofun
  | some k =>
    simp only
    split
    · next hk =>
      rw [Option.some_inj, Option.some_inj, ← Int64.toInt_inj, Int64.toInt_ofInt_of_le hk.1 hk.2]
    · next hk =>
      refine iff_of_false nofun ?_
      rintro ⟨⟩
      exact hk ⟨hl, hh⟩

theorem int64?_intText (n : Int64) : int64? (String.ofList (intText n.toInt)) = some n := by
  rw [int64?_eq_some_iff, String.toList_ofList, wholeNumber?_intText]

namespace Decimal

theorem fractionPart_point {fraction rest : List Char} (hf : ∀ c ∈ fraction, c.isDigit)
    (hr : NoDigit rest) : fractionPart ('.' :: (fraction ++ rest)) = (fraction, rest) :=
  span_isDigit hf hr

theorem unsigned?_point (negative : Bool) {whole fraction rest : List Char} {e : Int}
    (hw : ∀ c ∈ whole, c.isDigit) (hne : whole ≠ []) (hf : ∀ c ∈ fraction, c.isDigit)
    (hr : NoDigit rest) (he : exponentPart? rest = some e) :
    unsigned? negative (whole ++ '.' :: (fraction ++ rest)) =
      some ⟨negative, Nat.ofDigitChars 10 (whole ++ fraction) 0, e - fraction.length⟩ := by
  have hpoint : NoDigit ('.' :: (fraction ++ rest)) := noDigit_cons.2 (by decide)
  simp only [unsigned?, span_isDigit hw hpoint, fractionPart_point hf hr, he]
  simp [hne]

theorem unsigned?_whole (negative : Bool) {whole rest : List Char} {e : Int}
    (hw : ∀ c ∈ whole, c.isDigit) (hne : whole ≠ []) (hr : NoDigit rest)
    (hp : fractionPart rest = ([], rest)) (he : exponentPart? rest = some e) :
    unsigned? negative (whole ++ rest) = some ⟨negative, Nat.ofDigitChars 10 whole 0, e⟩ := by
  simp only [unsigned?, span_isDigit hw hr, hp, he]
  simp [hne]

theorem unsigned?_minus (negative : Bool) (cs : List Char) :
    unsigned? negative ('-' :: cs) = none :=
  rfl

theorem ofLexeme?_signed {negative : Bool} {cs : List Char} {d : Decimal}
    (h : unsigned? negative cs = some d) :
    ofLexeme? (if negative then '-' :: cs else cs) = some d := by
  cases negative with
  | true => exact h
  | false =>
    have hm (cs' : List Char) : cs ≠ '-' :: cs' := by
      rintro rfl
      rw [unsigned?_minus] at h
      cases h
    rw [if_neg (by decide), ofLexeme?]
    · exact h
    · exact fun cs' hcs ↦ hm cs' hcs

theorem exponentPart?_mark (e : Int) :
    exponentPart? ('e' :: (if 0 ≤ e then '+' else '-') :: Nat.toDigits 10 e.natAbs) = some e := by
  change wholeNumber? ((if 0 ≤ e then '+' else '-') :: Nat.toDigits 10 e.natAbs) = some e
  split
  · rw [(wholeNumber?_sign _).2]
    exact congrArg some (by omega)
  · rw [(wholeNumber?_sign _).1]
    exact congrArg some (by omega)

end Decimal

theorem exists_dropTrailingZeros (cs : List Char) :
    ∃ k, cs = dropTrailingZeros cs ++ List.replicate k '0' := by
  refine ⟨(cs.reverse.takeWhile (· = '0')).length, ?_⟩
  have hz : cs.reverse.takeWhile (· = '0') =
      List.replicate (cs.reverse.takeWhile (· = '0')).length '0' := by
    refine List.eq_replicate_of_mem fun c hc ↦ ?_
    simpa using List.mem_takeWhile_imp hc
  rw [dropTrailingZeros, ← List.reverse_replicate, ← hz, ← List.reverse_append,
    List.takeWhile_append_dropWhile, List.reverse_reverse]

theorem ofDigitChars_append_zeros (cs : List Char) (k : Nat) :
    Nat.ofDigitChars 10 (cs ++ List.replicate k '0') 0 = Nat.ofDigitChars 10 cs 0 * 10 ^ k := by
  rw [Nat.ofDigitChars_append, Nat.ofDigitChars_replicate_zero, Nat.mul_comm]

theorem ofDigitChars_zeros_append (k : Nat) (cs : List Char) :
    Nat.ofDigitChars 10 (List.replicate k '0' ++ cs) 0 = Nat.ofDigitChars 10 cs 0 := by
  rw [Nat.ofDigitChars_append, Nat.ofDigitChars_replicate_zero, Nat.mul_zero]

theorem isDigit_of_mem_zeros {k : Nat} {c : Char} (h : c ∈ List.replicate k '0') : c.isDigit := by
  rw [List.eq_of_mem_replicate h]
  decide

namespace Double

section Layout

variable (negative : Bool) {digits : List Char} (hd : ∀ c ∈ digits, c.isDigit) (hne : digits ≠ [])
include hd hne

theorem unsigned?_pointed {n : Nat} (hn : 0 < n) : ∃ k : Nat,
    Decimal.unsigned? negative (pointed digits n) = some ⟨negative,
      Nat.ofDigitChars 10 digits 0 * 10 ^ k, (n : Int) - digits.length - k⟩ := by
  have hpos : 0 < digits.length := List.length_pos_iff.2 hne
  by_cases hl : digits.length ≤ n
  · have hw : ∀ c ∈ digits ++ List.replicate (n - digits.length) '0', c.isDigit := by
      intro c hc
      rcases List.mem_append.1 hc with hc | hc
      · exact hd c hc
      · exact isDigit_of_mem_zeros hc
    have hf : ∀ c ∈ ['0'], c.isDigit := fun _ ↦ isDigit_of_mem_zeros (k := 1)
    have hread := Decimal.unsigned?_point negative hw (List.append_ne_nil_of_left_ne_nil hne _) hf
      noDigit_nil rfl
    refine ⟨n - digits.length + 1, ?_⟩
    have hp : pointed digits n =
        (digits ++ List.replicate (n - digits.length) '0') ++ '.' :: (['0'] ++ []) := by
      simp [pointed, List.take_of_length_le hl, List.drop_of_length_le hl]
    rw [hp, hread, List.append_assoc, show ['0'] = List.replicate 1 '0' from rfl,
      List.replicate_append_replicate, ofDigitChars_append_zeros]
    exact congrArg some (congrArg (Decimal.mk _ _) (by simp; omega))
  · have hw : ∀ c ∈ digits.take n, c.isDigit := fun c hc ↦ hd c (List.mem_of_mem_take hc)
    have hf : ∀ c ∈ digits.drop n, c.isDigit := fun c hc ↦ hd c (List.mem_of_mem_drop hc)
    have hwn : digits.take n ≠ [] := by
      rw [← List.length_pos_iff, List.length_take]
      omega
    have hfn : digits.drop n ≠ [] := by
      rw [← List.length_pos_iff, List.length_drop]
      omega
    have hread := Decimal.unsigned?_point negative hw hwn hf noDigit_nil rfl
    refine ⟨0, ?_⟩
    have hp : pointed digits n = digits.take n ++ '.' :: (digits.drop n ++ []) := by
      simp [pointed, hfn, show n - digits.length = 0 by omega]
    rw [hp, hread, List.take_append_drop, Nat.pow_zero, Nat.mul_one, List.length_drop]
    exact congrArg some (congrArg (Decimal.mk _ _) (by omega))

omit hne in
theorem unsigned?_small {e : Int} (he : e < 0) :
    Decimal.unsigned? negative ('0' :: '.' :: (List.replicate (-e - 1).toNat '0' ++ digits)) =
      some ⟨negative, Nat.ofDigitChars 10 digits 0, e + 1 - digits.length⟩ := by
  have hf : ∀ c ∈ List.replicate (-e - 1).toNat '0' ++ digits, c.isDigit := by
    intro c hc
    rcases List.mem_append.1 hc with hc | hc
    · exact isDigit_of_mem_zeros hc
    · exact hd c hc
  have hw : ∀ c ∈ ['0'], c.isDigit := fun _ ↦ isDigit_of_mem_zeros (k := 1)
  have hread := Decimal.unsigned?_point negative hw (by decide) hf noDigit_nil rfl
  rw [List.append_nil] at hread
  change Decimal.unsigned? negative (['0'] ++ '.' :: _) = _
  rw [hread, show ['0'] = List.replicate 1 '0' from rfl, ofDigitChars_zeros_append,
    ofDigitChars_zeros_append, List.length_append, List.length_replicate]
  exact congrArg some (congrArg (Decimal.mk _ _) (by omega))

theorem unsigned?_scientific (e : Int) :
    Decimal.unsigned? negative
      ((if digits.length = 1 then digits else digits.take 1 ++ '.' :: digits.drop 1) ++
        'e' :: (if 0 ≤ e then '+' else '-') :: Nat.toDigits 10 e.natAbs) =
      some ⟨negative, Nat.ofDigitChars 10 digits 0, e + 1 - digits.length⟩ := by
  have hmark (rest : List Char) : NoDigit ('e' :: rest) := noDigit_cons.2 (by decide)
  have he := Decimal.exponentPart?_mark e
  split
  · next h =>
    rw [Decimal.unsigned?_whole negative hd hne (hmark _) rfl he]
    exact congrArg some (congrArg (Decimal.mk _ _) (by omega))
  · have hw : ∀ c ∈ digits.take 1, c.isDigit := fun c hc ↦ hd c (List.mem_of_mem_take hc)
    have hf : ∀ c ∈ digits.drop 1, c.isDigit := fun c hc ↦ hd c (List.mem_of_mem_drop hc)
    have hpos : 0 < digits.length := List.length_pos_iff.2 hne
    have hwn : digits.take 1 ≠ [] := by
      rw [← List.length_pos_iff, List.length_take]
      omega
    rw [List.append_assoc, List.cons_append,
      Decimal.unsigned?_point negative hw hwn hf (hmark _) he, List.take_append_drop,
      List.length_drop]
    exact congrArg some (congrArg (Decimal.mk _ _) (by omega))

/-- However digits are laid out, they are read as a number of the same value. -/
theorem unsigned?_layout (e : Int) : ∃ k : Nat,
    Decimal.unsigned? negative (layout digits e) = some ⟨negative,
      Nat.ofDigitChars 10 digits 0 * 10 ^ k, e + 1 - digits.length - k⟩ := by
  rw [layout]
  split
  · next h =>
    obtain ⟨k, hk⟩ := unsigned?_pointed negative hd hne (Nat.succ_pos e.toNat)
    refine ⟨k, hk.trans (congrArg some (congrArg (Decimal.mk _ _) ?_))⟩
    omega
  · refine ⟨0, ?_⟩
    rw [Nat.pow_zero, Nat.mul_one, Int.natCast_zero, Int.sub_zero]
    split
    · next h => exact unsigned?_small negative hd h.2
    · exact unsigned?_scientific negative hd hne e

end Layout

theorem negative_ofPlace (negative : Bool) (place : Nat) :
    (ofPlace negative place).negative = negative :=
  rfl

theorem negative_ofDecimal (d : Decimal) : (ofDecimal d).negative = d.negative := by
  rw [ofDecimal_eq, negative_ofPlace]

theorem ofDecimal_of_digits_eq_zero {d : Decimal} (h : d.digits = 0) :
    ofDecimal d = ofPlace d.negative 0 := by
  rw [ofDecimal_cases, if_pos (.inl h)]

theorem isZero_ofPlace_zero (negative : Bool) : (ofPlace negative 0).isZero := by
  simp only [isZero, ofPlace, Nat.zero_min, beq_self_eq_true]

theorem digits_ne_zero_of_ofDecimal {x : Double} {d : Decimal} (h : ofDecimal d = x)
    (hx : ¬ x.isZero) : d.digits ≠ 0 := by
  intro h0
  apply hx
  rw [← h, ofDecimal_of_digits_eq_zero h0]
  exact isZero_ofPlace_zero _

section Trimmed

variable {d : Decimal} {digits : List Char}
  (h : digits = dropTrailingZeros (Nat.toDigits 10 d.digits))
include h

theorem isDigit_of_mem_trimmed : ∀ c ∈ digits, c.isDigit := by
  obtain ⟨k, hk⟩ := exists_dropTrailingZeros (Nat.toDigits 10 d.digits)
  intro c hc
  apply isDigit_toDigits d.digits
  rw [hk, ← h]
  exact List.mem_append_left _ hc

theorem exists_value_trimmed : ∃ k, d.digits = Nat.ofDigitChars 10 digits 0 * 10 ^ k ∧
    (Nat.toDigits 10 d.digits).length = digits.length + k := by
  obtain ⟨k, hk⟩ := exists_dropTrailingZeros (Nat.toDigits 10 d.digits)
  rw [← h] at hk
  refine ⟨k, ?_, ?_⟩
  · rw [← ofDigitChars_append_zeros, ← hk, Nat.ofDigitChars_ten_toDigits]
  · rw [hk, List.length_append, List.length_replicate]

theorem trimmed_ne_nil (h0 : d.digits ≠ 0) : digits ≠ [] := by
  obtain ⟨k, hk, -⟩ := exists_value_trimmed h
  rintro rfl
  rw [Nat.ofDigitChars_nil, Nat.zero_mul] at hk
  exact h0 hk

/-- The zeros that are left out are made up for by the place of the first digit. -/
theorem ofDecimal_trimmed {e : Int} (he : e = d.exponent + (Nat.toDigits 10 d.digits).length - 1) :
    ofDecimal ⟨d.negative, Nat.ofDigitChars 10 digits 0, e + 1 - digits.length⟩ = ofDecimal d := by
  obtain ⟨k, hk, hl⟩ := exists_value_trimmed h
  have hexp : e + 1 - digits.length - k = d.exponent := by omega
  rw [← ofDecimal_zeros _ _ _ k, ← hk, hexp]

end Trimmed

theorem ofLexeme?_signed (x : Double) {magnitude : List Char} {d : Decimal}
    (h : Decimal.unsigned? x.negative magnitude = some d) :
    ofLexeme? (x.signed magnitude) = some (ofDecimal d) := by
  rw [ofLexeme?, signed, String.toList_ofList, Decimal.ofLexeme?_signed h, Option.map_some]

theorem ofLexeme?_text (x : Double) : ofLexeme? x.text = some x := by
  rw [text]
  split
  · next hz =>
    have hread : Decimal.unsigned? x.negative ['0', '.', '0'] = some ⟨x.negative, 0, -1⟩ := rfl
    have hp : x.place = 0 := by simpa [isZero] using hz
    rw [ofLexeme?_signed x hread, ofDecimal_of_digits_eq_zero rfl, ← hp, ofPlace_place]
  · next hz =>
    obtain ⟨d, hd⟩ : ∃ d, x.shortest .even = d := ⟨_, rfl⟩
    have hx : ofDecimal d = x := by rw [← hd, ofDecimal_shortest]
    have hsign : x.negative = d.negative := by rw [← hx, negative_ofDecimal]
    have hne := trimmed_ne_nil rfl (digits_ne_zero_of_ofDecimal hx hz)
    obtain ⟨k, hread⟩ := unsigned?_layout x.negative (isDigit_of_mem_trimmed rfl) hne
      (d.exponent + (Nat.toDigits 10 d.digits).length - 1)
    simp only [significant, hd]
    rw [ofLexeme?_signed x hread, ofDecimal_zeros, hsign, ofDecimal_trimmed rfl rfl, hx]

end Double

end Storefront.Number
