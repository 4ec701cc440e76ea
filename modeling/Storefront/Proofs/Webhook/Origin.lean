import Storefront.Proofs.Webhook.Address
import Storefront.Webhook.Address

namespace Storefront.Webhook.Origin

open Address

variable {cs : List Char} {gs : List Nat}

theorem canonical_short_mem_iff (q : Quad) :
    (short (BitVec.ofNat 32 (ofDigits 256 q.parts))).canonical ∈ addresses ↔
      q = ⟨18, 209, 80, 3⟩ ∨ q = ⟨54, 87, 231, 232⟩ := by
  obtain ⟨a, b, c, d⟩ := q
  have := a.isLt
  have := b.isLt
  have := c.isLt
  have := d.isLt
  simp only [addresses_eq, canonical, List.mem_cons, List.not_mem_nil, or_false, short.injEq,
    ← BitVec.toNat_inj, BitVec.ofNat_eq_ofNat, BitVec.toNat_ofNat, Quad.mk.injEq, Fin.ext_iff,
    Quad.parts, ofDigits, List.foldl_cons, List.foldl_nil]
  omega

theorem canonical_long_mem_iff {n : Nat} (h : n < 2 ^ 128) :
    (long (BitVec.ofNat 128 n)).canonical ∈ addresses ↔
      n = 0xffff12d15003 ∨ n = 0xffff3657e7e8 := by
  have hmapped : BitVec.ofNat 128 n >>> 32 = 0xffff ↔ n / 2 ^ 32 = 0xffff := by
    simp only [← BitVec.toNat_inj, BitVec.toNat_ushiftRight, BitVec.ofNat_eq_ofNat,
      BitVec.toNat_ofNat, Nat.shiftRight_eq_div_pow, Nat.mod_eq_of_lt h]
  rw [canonical, addresses_eq]
  split
  · next hbits =>
    rw [hmapped] at hbits
    simp only [List.mem_cons, List.not_mem_nil, or_false, short.injEq, ← BitVec.toNat_inj,
      BitVec.toNat_setWidth, BitVec.ofNat_eq_ofNat, BitVec.toNat_ofNat, Nat.mod_eq_of_lt h]
    omega
  · next hbits =>
    rw [hmapped] at hbits
    simp only [List.mem_cons, List.not_mem_nil, or_false, reduceCtorEq, false_iff]
    omega

theorem isAllowed_eq_true_iff {s : String} : isAllowed s ↔
    ∃ a, read? (Text.trim s.toList) = some a ∧ a.canonical ∈ addresses := by
  rw [isAllowed]
  cases read? (Text.trim s.toList) <;> simp

theorem isAllowed_of_chars {s : String} {q : Quad} (h : Text.trim s.toList = q.chars) :
    isAllowed s ↔ q = ⟨18, 209, 80, 3⟩ ∨ q = ⟨54, 87, 231, 232⟩ := by
  have hread := read?_eq_some_iff.2 (.inl ⟨q, h, rfl⟩)
  simp [isAllowed_eq_true_iff, hread, canonical_short_mem_iff]

theorem isAllowed_of_isLong {s : String} (h : IsLong (Text.trim s.toList) gs) :
    isAllowed s ↔ ofDigits 65536 gs = 0xffff12d15003 ∨ ofDigits 65536 gs = 0xffff3657e7e8 := by
  have hread := read?_eq_some_iff.2 (.inr ⟨gs, h, rfl⟩)
  have hlt := ofDigits_lt (show 1 < 65536 by decide) h.lt
  rw [h.length_eq] at hlt
  simp [isAllowed_eq_true_iff, hread, canonical_long_mem_iff hlt]

theorem forms_of_isAllowed {s : String} (h : isAllowed s) :
    (∃ q : Quad, Text.trim s.toList = q.chars) ∨ ∃ gs, IsLong (Text.trim s.toList) gs := by
  obtain ⟨a, hread, -⟩ := isAllowed_eq_true_iff.1 h
  rcases read?_eq_some_iff.1 hread with ⟨q, hq, -⟩ | ⟨gs, hgs, -⟩
  · exact .inl ⟨q, hq⟩
  · exact .inr ⟨gs, hgs⟩

theorem trimmed_eq_iff {s t : String} : Text.trimmed s = t ↔ Text.trim s.toList = t.toList := by
  rw [Text.trimmed, ← String.toList_inj, String.toList_ofList]

theorem trimmed_mem_allowed_iff {s : String} : Text.trimmed s ∈ allowed ↔
    ∃ q : Quad, Text.trim s.toList = q.chars ∧ (q = ⟨18, 209, 80, 3⟩ ∨ q = ⟨54, 87, 231, 232⟩) := by
  have h₁ : Quad.chars ⟨18, 209, 80, 3⟩ = "18.209.80.3".toList := by decide
  have h₂ : Quad.chars ⟨54, 87, 231, 232⟩ = "54.87.231.232".toList := by decide
  simp [allowed, trimmed_eq_iff, ← h₁, ← h₂, and_or_left, exists_or]

/-- An address is allowed exactly when it is one of the two texts of the list, or a text of a long
address that ends in one of them after the bits `ffff`. Nothing else may stand in the text: no
second address, port, zone or bracket, and a short address has only one spelling. -/
theorem isAllowed_iff_spelled (s : String) :
    (isAllowed s ↔ Text.trimmed s = "18.209.80.3" ∨ Text.trimmed s = "54.87.231.232" ∨
      ∃ groups, IsLong (Text.trim s.toList) groups ∧
        (ofDigits 65536 groups = ofDigits 256 [0xff, 0xff, 18, 209, 80, 3] ∨
          ofDigits 65536 groups = ofDigits 256 [0xff, 0xff, 54, 87, 231, 232])) ∧
    (isAllowed s → (∀ c ∈ Text.trim s.toList, IsMark c) ∧ DotsLast (Text.trim s.toList) ∧
      (':' ∉ Text.trim s.toList → Text.trimmed s ∈ allowed)) ∧
    ∀ groups, IsLong (Text.trim s.toList) groups →
      (isAllowed s ↔ groups = [0, 0, 0, 0, 0, 0xffff, 18 * 256 + 209, 80 * 256 + 3] ∨
        groups = [0, 0, 0, 0, 0, 0xffff, 54 * 256 + 87, 231 * 256 + 232]) := by
  refine ⟨?_, ?_, ?_⟩
  · rw [← or_assoc]
    constructor
    · intro h
      rcases forms_of_isAllowed h with ⟨q, hq⟩ | ⟨gs, hgs⟩
      · left
        have hmem := trimmed_mem_allowed_iff.2 ⟨q, hq, (isAllowed_of_chars hq).1 h⟩
        simpa [allowed] using hmem
      · exact .inr ⟨gs, hgs, (isAllowed_of_isLong hgs).1 h⟩
    · rintro (h | ⟨gs, hgs, h⟩)
      · obtain ⟨q, hq, hvalue⟩ := trimmed_mem_allowed_iff.1 (by simpa [allowed] using h)
        exact (isAllowed_of_chars hq).2 hvalue
      · exact (isAllowed_of_isLong hgs).2 h
  · intro h
    rcases forms_of_isAllowed h with ⟨q, hq⟩ | ⟨gs, hgs⟩
    · have hmem := trimmed_mem_allowed_iff.2 ⟨q, hq, (isAllowed_of_chars hq).1 h⟩
      rw [hq]
      exact ⟨q.isMark, dotsLast_of_colon_not_mem q.colon_not_mem, fun _ ↦ hmem⟩
    · exact ⟨hgs.isMark, hgs.dotsLast, fun hcolon ↦ absurd hgs.colon_mem hcolon⟩
  · intro groups hlong
    have hfirst : ofDigits 65536 [0, 0, 0, 0, 0, 0xffff, 18 * 256 + 209, 80 * 256 + 3] =
        0xffff12d15003 := rfl
    have hsecond : ofDigits 65536 [0, 0, 0, 0, 0, 0xffff, 54 * 256 + 87, 231 * 256 + 232] =
        0xffff3657e7e8 := rfl
    rw [isAllowed_of_isLong hlong, ← hfirst, ← hsecond, hlong.value_eq_iff rfl (by decide),
      hlong.value_eq_iff rfl (by decide)]

/-- A long spelling with capitals, a gap and a quad, among blanks. -/
theorem isAllowed_iff_spelled_mapped :
    IsLong (Text.trim "\t::FFFF:18.209.80.3 ".toList) [0, 0, 0, 0, 0, 0xffff, 0x12d1, 0x5003] ∧
      isAllowed "\t::FFFF:18.209.80.3 " ∧ DotsLast (Text.trim "\t::FFFF:18.209.80.3 ".toList) := by
  have hlong : IsLong (Text.trim "\t::FFFF:18.209.80.3 ".toList)
      [0, 0, 0, 0, 0, 0xffff, 0x12d1, 0x5003] := octet?_eq_some_iff.1 (by decide)
  obtain ⟨-, hallowed, hgroups⟩ := isAllowed_iff_spelled "\t::FFFF:18.209.80.3 "
  have h := (hgroups _ hlong).2 (.inl rfl)
  exact ⟨hlong, h, (hallowed h).2.1⟩

end Storefront.Webhook.Origin
