import Storefront.Proofs.Text.Basic
import Storefront.Proofs.Text.Order
import Storefront.Proofs.Webhook.Acceptance

namespace Storefront.Webhook

variable {secret payload expected : String}

theorem toList_sign : (sign secret payload).toList =
    Text.hex (Hash.hmacSha256 (Text.bytes secret) (Text.bytes (digest payload))) :=
  String.toList_ofList

theorem length_sign : (sign secret payload).length = 64 := by
  rw [← String.length_toList, toList_sign, Text.length_hex, Hash.length_hmacSha256]

theorem mem_sign {c : Char} (h : c ∈ (sign secret payload).toList) :
    c ∈ "0123456789abcdef".toList ∧ c.utf8Size = 1 ∧ c.isUpper = false := by
  rw [toList_sign] at h
  obtain ⟨n, hn, rfl⟩ := Text.exists_hexDigit_of_mem_hex h
  have hall : ∀ n < 16, Text.hexDigit n ∈ "0123456789abcdef".toList ∧
      (Text.hexDigit n).utf8Size = 1 ∧ (Text.hexDigit n).isUpper = false := by
    decide
  exact hall n hn

theorem length_bytes_sign : (Text.bytes (sign secret payload)).length = 64 := by
  rw [Text.length_bytes fun c hc ↦ (mem_sign hc).2.1, length_sign]

theorem verify_iff_bytes : verify secret payload expected ↔
    Text.bytes expected = Text.bytes (sign secret payload) :=
  sameBytes_iff.trans eq_comm

/-- Only the signature itself is accepted, byte for byte: 64 small digits to the base sixteen. What
has another length, a capital or one other byte is refused, and an endpoint refuses it as well. -/
theorem verify_iff_eq_sign (secret payload expected : String) :
    (verify secret payload expected ↔ Text.bytes expected = Text.bytes (sign secret payload)) ∧
    (Text.bytes (sign secret payload)).length = 64 ∧ (sign secret payload).length = 64 ∧
    (∀ c ∈ (sign secret payload).toList, c ∈ "0123456789abcdef".toList) ∧
    ((Text.bytes expected).length ≠ 64 ∨ expected.length ≠ 64 ∨ (∃ c ∈ expected.toList, c.isUpper) ∨
      (∃ i : Nat, (Text.bytes expected)[i]? ≠ (Text.bytes (sign secret payload))[i]?) →
      verify secret payload expected = false) ∧
    ∀ (w : Webhook) (s : Settings),
      (w.hasSignature secret expected ↔
        Text.bytes expected = Text.bytes (sign secret w.canonical)) ∧
      (s.hasSignature w expected ↔
        Text.bytes expected = Text.bytes (sign s.secret w.canonical)) ∧
      (s.checkSignature w expected = .ok () ↔ s.hasSignature w expected) := by
  refine ⟨verify_iff_bytes, length_bytes_sign, length_sign, fun c hc ↦ (mem_sign hc).1, ?_, ?_⟩
  · intro h
    rw [← Bool.not_eq_true]
    intro hv
    obtain rfl := verify_iff.1 hv
    rcases h with h | h | ⟨c, hc, hupper⟩ | ⟨i, hi⟩
    · exact h length_bytes_sign
    · exact h length_sign
    · rw [(mem_sign hc).2.2] at hupper
      cases hupper
    · exact hi rfl
  · intro w s
    refine ⟨verify_iff_bytes, verify_iff_bytes, ?_⟩
    rw [checkSignature_eq_ok_iff, Settings.hasSignature, Webhook.hasSignature, verify_iff]

/-- A text of the right length, but in capitals, is refused whatever the secret is. -/
theorem verify_capitals : (∃ c ∈ (String.ofList (List.replicate 64 'A')).toList, c.isUpper) ∧
    verify "" "abc" (String.ofList (List.replicate 64 'A')) = false := by
  have h : ∃ c ∈ (String.ofList (List.replicate 64 'A')).toList, c.isUpper :=
    ⟨'A', by simp, by decide⟩
  obtain ⟨-, -, -, -, hrefused, -⟩ :=
    verify_iff_eq_sign "" "abc" (String.ofList (List.replicate 64 'A'))
  exact ⟨h, hrefused (.inr (.inr (.inl h)))⟩

end Storefront.Webhook
