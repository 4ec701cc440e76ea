import Storefront.Proofs.Json.Numeral
import Storefront.Proofs.Webhook.Reformatting

namespace Storefront.Webhook

open Number

/-- The id of the status as it is written, when the subject gives it as a number. -/
def statusNumber? (w : Webhook) : Option String :=
  match (w.subject.value?.bind (·.get? "status")).bind (·.get? "id") with
  | some (.number lexeme) => some lexeme
  | _ => none

theorem statusId?_eq (w : Webhook) : w.statusId? = w.statusNumber?.bind idOfLexeme? := by
  rw [statusId?, statusNumber?]
  rcases (w.subject.value?.bind _).bind _ with _ | v
  · rfl
  · cases v <;> rfl

theorem Subject.eq_of_value?_ofKind {u v : Json} {k : SubjectKind}
    (h : (ofKind v k).value? = some u) : u = v := by
  cases k <;> cases h <;> rfl

section Subject

variable {raw : String} {body v : Json} {w : Webhook}

theorem readable_subject (h : parse raw = .ok w) (hv : w.subject.value? = some v) :
    ∃ n, Json.Readable n v := by
  obtain ⟨body, hp, hw⟩ := parse_eq_ok_iff.1 h
  obtain ⟨u, hu, hs⟩ := subject_of_ofJson hw
  rw [hs] at hv
  rw [Subject.eq_of_value?_ofKind hv]
  split
  · exact ⟨1, .object List.nodup_nil rfl nofun⟩
  · exact (Json.readable_of_parse hp).get? hu

theorem exists_numeral_of_statusNumber? (h : parse raw = .ok w) {lexeme : String}
    (hl : w.statusNumber? = some lexeme) : ∃ n : Numeral, lexeme.toList = n.chars := by
  rw [statusNumber?] at hl
  split at hl
  · next hid =>
    cases hl
    obtain ⟨status, hstatus, hid⟩ := Option.bind_eq_some_iff.1 hid
    obtain ⟨subject, hsubject, hstatus⟩ := Option.bind_eq_some_iff.1 hstatus
    obtain ⟨_, hr⟩ := readable_subject h hsubject
    obtain ⟨_, hr⟩ := hr.get? hstatus
    obtain ⟨_, hr⟩ := hr.get? hid
    exact hr.exists_numeral
  · cases hl

end Subject

/-- Of the whole numbers that a double can stand for, the smallest one of 64 bits is left out. -/
theorem id_of_double_eq_some_iff {x : Double} {id : Int64} :
    (x.toInt?.bind fun k ↦ if k.natAbs < Nat.pow 2 63 then some (Int64.ofInt k) else none) =
      some id ↔ x.value = id.toInt ∧ id ≠ Int64.minValue := by
  have hl := id.le_toInt
  have hh := id.toInt_lt
  rw [Ne, ← Int64.toInt_inj, Int64.toInt_minValue, Option.bind_eq_some_iff]
  constructor
  · rintro ⟨k, hk, hid⟩
    split at hid
    · next hlt =>
      cases hid
      change k.natAbs < 2 ^ 63 at hlt
      rw [Int64.toInt_ofInt_of_le (by omega) (by omega)]
      exact ⟨(Double.toInt?_eq_some_iff.1 hk).2, by omega⟩
    · cases hid
  · rintro ⟨hv, hne⟩
    have habs : |x.value| < 2 ^ 63 := by
      rw [hv]
      exact_mod_cast abs_lt.2 ⟨by omega, hh⟩
    have hlt : id.toInt.natAbs < Nat.pow 2 63 := show id.toInt.natAbs < 2 ^ 63 by omega
    refine ⟨id.toInt, Double.toInt?_eq_some_iff.2 ⟨Double.not_isInfinite_of_abs_lt habs, hv⟩, ?_⟩
    rw [if_pos hlt, Int64.ofInt_toInt]

section Numeral

variable {n : Numeral} {lexeme : String} (hl : lexeme.toList = n.chars)
include hl

/-- A plain numeral is read exactly. Any other one is read as the double nearest to it, when that
stands for a whole number. -/
theorem idOfLexeme?_eq_some_iff {id : Int64} : idOfLexeme? lexeme = some id ↔
    if n.IsPlain then n.value = id.toInt
    else (Double.ofDecimal n.toDecimal).value = id.toInt ∧ id ≠ Int64.minValue := by
  have hexact (id : Int64) : int64? lexeme = some id ↔ n.IsPlain ∧ n.value = id.toInt := by
    rw [int64?_eq_some_iff, hl, n.wholeNumber?_chars_eq_some_iff]
  have hdouble : Double.ofLexeme? lexeme = some (Double.ofDecimal n.toDecimal) := by
    rw [Double.ofLexeme?, hl, n.ofLexeme?_chars, Option.map_some]
  rw [idOfLexeme?]
  cases hw : int64? lexeme with
  | some k =>
    obtain ⟨hp, hk⟩ := (hexact k).1 hw
    rw [if_pos hp, hk, Int.cast_inj, Int64.toInt_inj]
    exact Option.some_inj
  | none =>
    have hnone (id : Int64) (hp : n.IsPlain) : n.value ≠ id.toInt := by
      intro hv
      rw [(hexact id).2 ⟨hp, hv⟩] at hw
      cases hw
    rw [hdouble]
    refine id_of_double_eq_some_iff.trans ?_
    split
    · next hp =>
      refine iff_of_false ?_ (hnone id hp)
      rintro ⟨hv, hne⟩
      obtain ⟨k, hk⟩ := n.exists_value_eq_int hp
      have hlarge : 2 ^ 63 ≤ |k| := by
        by_contra hlt
        rw [not_le, abs_lt] at hlt
        apply hnone (.ofInt k) hp
        rw [hk, Int64.toInt_ofInt_of_le hlt.1.le hlt.2]
      have habs := n.isNearest_ofDecimal.le_abs_value (show 2 ^ 63 ≤ |n.value| by rw [hk]; exact_mod_cast hlarge)
      rw [hv] at habs
      have hid : 2 ^ 63 ≤ |id.toInt| := by exact_mod_cast habs
      have hl := id.le_toInt
      have hh := id.toInt_lt
      rw [Ne, ← Int64.toInt_inj, Int64.toInt_minValue] at hne
      rcases le_abs.1 hid with h | h <;> omega
    · exact Iff.rfl

/-- Whole numbers of 53 bits are read exactly, however they are written. -/
theorem idOfLexeme?_of_value {k : ℤ} (hk : |k| ≤ 2 ^ 53) (hv : n.value = k) :
    idOfLexeme? lexeme = some (.ofInt k) := by
  have hbound := abs_le.1 hk
  have hint : (Int64.ofInt k).toInt = k := Int64.toInt_ofInt_of_le (by omega) (by omega)
  rw [idOfLexeme?_eq_some_iff hl, hint]
  split
  · exact hv
  · obtain ⟨x, hx⟩ := Double.exists_value_eq_int hk
    refine ⟨(n.isNearest_ofDecimal.value_eq (hx.trans hv.symm)).trans hv, ?_⟩
    rw [Ne, ← Int64.toInt_inj, hint, Int64.toInt_minValue]
    omega

theorem idOfLexeme?_eq_one_iff :
    idOfLexeme? lexeme = some 1 ↔ 1 - 1 / 2 ^ 54 ≤ n.value ∧ n.value ≤ 1 + 1 / 2 ^ 53 := by
  have hone : ((1 : Int64).toInt : ℚ) = 1 := by
    rw [show (1 : Int64).toInt = 1 by decide, Int.cast_one]
  rw [idOfLexeme?_eq_some_iff hl, hone]
  split
  · next hp =>
    obtain ⟨k, hk⟩ := n.exists_value_eq_int hp
    rw [hk]
    constructor
    · intro h
      rw [h]
      norm_num
    · rintro ⟨hl, hh⟩
      have hpos : 0 < k := by
        rw [← Int.cast_pos (R := ℚ)]
        linarith
      have hlt : k < 2 := by
        rw [← Int.cast_lt (R := ℚ), Int.cast_two]
        linarith
      rw [show k = 1 by omega, Int.cast_one]
  · rw [n.isNearest_ofDecimal.value_eq_one_iff]
    exact and_iff_left (by decide)

end Numeral

/-- The id of a status is the number that the subject gives, rounded to a double first unless it is
written as a plain whole number. -/
theorem statusId?_spec {raw : String} {w : Webhook} (h : parse raw = .ok w) :
    (w.statusNumber? = none → w.statusId? = none ∧ ¬ w.isComplete) ∧
    ∀ lexeme, w.statusNumber? = some lexeme → ∃ (n : Numeral) (x : Double),
      lexeme.toList = n.chars ∧ x.IsNearest n.value ∧
      (∀ id, w.statusId? = some id ↔
        if n.IsPlain then n.value = id.toInt else x.value = id.toInt ∧ id ≠ Int64.minValue) ∧
      (∀ k : ℤ, |k| ≤ 2 ^ 53 → n.value = k → w.statusId? = some (.ofInt k)) ∧
      (w.isComplete ↔ 1 - 1 / 2 ^ 54 ≤ n.value ∧ n.value ≤ 1 + 1 / 2 ^ 53) := by
  rw [isComplete, decide_eq_true_iff, statusId?_eq]
  constructor
  · intro hnone
    rw [hnone]
    exact ⟨rfl, nofun⟩
  · intro lexeme hs
    obtain ⟨n, hl⟩ := exists_numeral_of_statusNumber? h hs
    have hid : w.statusNumber?.bind idOfLexeme? = idOfLexeme? lexeme := by
      rw [hs]
      rfl
    refine ⟨n, .ofDecimal n.toDecimal, hl, n.isNearest_ofDecimal, ?_, ?_, ?_⟩
    · intro id
      rw [hid, idOfLexeme?_eq_some_iff hl]
    · intro k hk hv
      rw [hid, idOfLexeme?_of_value hl hk hv]
    · rw [hid]
      exact idOfLexeme?_eq_one_iff hl

def nearlyBody : String :=
  "\x7b\"type\":\"payment.completed\",\"subject\":\x7b\"status\":\x7b\"id\":1.00000000000000001\x7d\x7d\x7d"

def nearly : Webhook where
  raw := nearlyBody
  canonical := nearlyBody
  idValue := none
  typeValue := some (.string "payment.completed")
  dateValue := none
  subject := .payment (.object [("status", .object [("id", .number "1.00000000000000001")])])

theorem parse_nearlyBody : parse nearlyBody = .ok nearly := by
  decide +kernel

theorem statusId?_spec_nearly :
    parse nearlyBody = .ok nearly ∧ nearly.statusNumber? = some "1.00000000000000001" ∧
    ∃ (n : Numeral) (x : Double),
      "1.00000000000000001".toList = n.chars ∧ x.IsNearest n.value ∧
      (∀ id, nearly.statusId? = some id ↔
        if n.IsPlain then n.value = id.toInt else x.value = id.toInt ∧ id ≠ Int64.minValue) ∧
      (∀ k : ℤ, |k| ≤ 2 ^ 53 → n.value = k → nearly.statusId? = some (.ofInt k)) ∧
      (nearly.isComplete ↔ 1 - 1 / 2 ^ 54 ≤ n.value ∧ n.value ≤ 1 + 1 / 2 ^ 53) :=
  ⟨parse_nearlyBody, rfl, (statusId?_spec parse_nearlyBody).2 _ rfl⟩

def nearlyOne : Numeral where
  negative := false
  whole := ['1']
  fraction := "00000000000000001".toList
  exponent := none
  whole_ne_nil := by decide
  isDigit_whole := List.all_eq_true.1 (by decide)
  isDigit_fraction := List.all_eq_true.1 (by decide)
  isDigit_exponent := nofun

/-- The payment counts as completed although the number of its status is not one. -/
theorem isComplete_nearly :
    parse nearlyBody = .ok nearly ∧
    nearly.statusNumber? = some (String.ofList nearlyOne.chars) ∧ nearlyOne.value ≠ 1 ∧
    nearly.statusId? = some 1 ∧ nearly.isComplete := by
  have hv : nearlyOne.value = 1 + 1 / 10 ^ 17 := by
    have hw : Nat.ofDigitChars 10 nearlyOne.whole 0 = 1 := by decide
    have hf : Nat.ofDigitChars 10 nearlyOne.fraction 0 = 1 := by decide
    have hl : nearlyOne.fraction.length = 17 := by decide
    rw [Numeral.value, hw, hf, hl]
    norm_num [nearlyOne, withSign, Numeral.power]
  have hl : "1.00000000000000001".toList = nearlyOne.chars := by decide
  have hid : nearly.statusId? = some 1 := by
    refine (idOfLexeme?_eq_one_iff hl).2 ?_
    rw [hv]
    norm_num
  refine ⟨parse_nearlyBody, by decide, ?_, hid, decide_eq_true hid⟩
  rw [hv]
  norm_num

end Storefront.Webhook
