import Mathlib.Data.List.Forall2
import Storefront.Text.Basic

namespace Storefront.Text

variable {c : Char}

theorem isLower_iff : c.isLower ↔ 97 ≤ c.toNat ∧ c.toNat ≤ 122 := by
  change (decide (97 ≤ c.toNat) && decide (c.toNat ≤ 122)) = true ↔ _
  rw [Bool.and_eq_true_iff, decide_eq_true_iff, decide_eq_true_iff]

theorem toNat_toLower (c : Char) :
    c.toLower.toNat = if 65 ≤ c.toNat ∧ c.toNat ≤ 90 then c.toNat + 32 else c.toNat := by
  split
  · next h =>
    have hval : c.toLower.val = c.val + 32 := congrArg Char.val (dif_pos h)
    rw [← Char.toNat_val, hval, UInt32.toNat_add, Char.toNat_val]
    change (c.toNat + 32) % 2 ^ 32 = _
    omega
  · next h => exact congrArg Char.toNat (dif_neg h)

theorem toNat_toUpper (c : Char) :
    c.toUpper.toNat = if 97 ≤ c.toNat ∧ c.toNat ≤ 122 then c.toNat - 32 else c.toNat := by
  split
  · next h =>
    have hshift : ('A'.val - 'a'.val).toNat = UInt32.size - 32 := by decide
    have hval : c.toUpper.val = c.val + ('A'.val - 'a'.val) := by
      rw [show c.toUpper = ⟨_, _⟩ from dif_pos h]
    rw [← Char.toNat_val, hval, UInt32.toNat_add, hshift, UInt32.size, Char.toNat_val]
    omega
  · next h => exact congrArg Char.toNat (dif_neg h)

theorem toUpper_toLower (c : Char) : c.toLower.toUpper = c.toUpper := by
  rw [← Char.toNat_inj, toNat_toUpper, toNat_toUpper, toNat_toLower]
  split_ifs <;> omega

theorem isBlank_of_isLower_toLower (h : c.toLower.isLower) : isBlank c = false := by
  rw [isLower_iff, toNat_toLower] at h
  have hletter : 65 ≤ c.toNat ∧ c.toNat ≤ 122 := by
    split at h <;> omega
  simp [isBlank]
  omega

theorem isBlank_toLower (h : isBlank c = false) : isBlank c.toLower = false := by
  simp only [isBlank, toNat_toLower] at h ⊢
  split
  · simp
    omega
  · exact h

def InAnyCase (word cs : List Char) : Prop :=
  List.Forall₂ (fun letter c ↦ c = letter ∨ c = letter.toUpper) word cs

theorem eq_toLower_iff {letter : Char} (h : letter.isLower) :
    letter = c.toLower ↔ c = letter ∨ c = letter.toUpper := by
  rw [isLower_iff] at h
  rw [← Char.toNat_inj, ← Char.toNat_inj, ← Char.toNat_inj, toNat_toLower, toNat_toUpper, if_pos h]
  split <;> omega

theorem inAnyCase_iff {word cs : List Char} (h : ∀ letter ∈ word, letter.isLower) :
    InAnyCase word cs ↔ word = cs.map Char.toLower := by
  induction word generalizing cs with
  | nil => cases cs <;> simp [InAnyCase]
  | cons letter word ih =>
    rw [List.forall_mem_cons] at h
    cases cs with
    | nil => simp [InAnyCase]
    | cons c cs =>
      rw [List.map_cons, List.cons.injEq, eq_toLower_iff h.1, ← ih h.2]
      exact List.forall₂_cons

end Storefront.Text
