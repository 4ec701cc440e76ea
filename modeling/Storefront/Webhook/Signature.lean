import Storefront.Hash
import Storefront.Text.Basic

namespace Storefront.Webhook

/-- Two lists of bytes are compared without stopping at the first difference. -/
def sameBytes (xs ys : List UInt8) : Bool :=
  xs.length == ys.length && (xs.zip ys).foldl (fun acc p ↦ acc ||| (p.1 ^^^ p.2)) 0 == 0

theorem foldl_or_eq_zero {acc : UInt8} {pairs : List (UInt8 × UInt8)} :
    pairs.foldl (fun acc p ↦ acc ||| (p.1 ^^^ p.2)) acc = 0 ↔ acc = 0 ∧ ∀ p ∈ pairs, p.1 = p.2 := by
  induction pairs generalizing acc with
  | nil => simp
  | cons p pairs ih =>
    rw [List.foldl_cons, ih, UInt8.or_eq_zero_iff, UInt8.xor_eq_zero_iff]
    simp [and_assoc]

theorem eq_of_zip {xs ys : List UInt8} (hl : xs.length = ys.length)
    (h : ∀ p ∈ xs.zip ys, p.1 = p.2) : xs = ys := by
  induction xs generalizing ys with
  | nil => exact (List.eq_nil_of_length_eq_zero hl.symm).symm
  | cons x xs ih =>
    cases ys with
    | nil => cases hl
    | cons y ys =>
      simp only [List.zip_cons_cons, List.forall_mem_cons] at h
      rw [h.1, ih (Nat.succ.inj hl) h.2]

theorem sameBytes_iff {xs ys : List UInt8} : sameBytes xs ys ↔ xs = ys := by
  simp only [sameBytes, Bool.and_eq_true, beq_iff_eq, foldl_or_eq_zero, true_and]
  constructor
  · rintro ⟨hl, h⟩
    exact eq_of_zip hl h
  · rintro rfl
    refine ⟨rfl, fun p hp ↦ ?_⟩
    obtain ⟨i, hi, rfl⟩ := List.mem_iff_getElem.1 hp
    simp

def digest (payload : String) : String :=
  String.ofList (Text.hex (Hash.sha256 (Text.bytes payload)))

def sign (secret payload : String) : String :=
  String.ofList (Text.hex (Hash.hmacSha256 (Text.bytes secret) (Text.bytes (digest payload))))

def verify (secret payload expected : String) : Bool :=
  sameBytes (Text.bytes (sign secret payload)) (Text.bytes expected)

end Storefront.Webhook
