import Mathlib.Data.String.Basic
import Storefront.Text.Basic

namespace Storefront.Text

theorem bytes_eq (s : String) : bytes s = s.toList.flatMap String.utf8EncodeChar := by
  rw [bytes, String.toUTF8_eq_toByteArray, ← String.utf8Encode_toList, List.utf8Encode,
    List.data_toByteArray]

theorem length_bytes {s : String} (h : ∀ c ∈ s.toList, c.utf8Size = 1) :
    (bytes s).length = s.length := by
  rw [bytes_eq, ← String.length_toList]
  generalize s.toList = cs at h
  induction cs with
  | nil => rfl
  | cons c cs ih =>
    obtain ⟨hc, hcs⟩ := List.forall_mem_cons.1 h
    rw [List.flatMap_cons, List.length_append, String.length_utf8EncodeChar, hc, ih hcs,
      List.length_cons, Nat.add_comm]

theorem toNat_lt (c : Char) : c.val.toNat < 0x110000 := by
  have h := c.valid
  simp only [UInt32.isValidChar, Nat.isValidChar] at h
  omega

/-- The bytes of a smaller character come first, whatever follows them. -/
theorem utf8EncodeChar_append_lt {c d : Char} (h : c < d) (xs ys : List UInt8) :
    String.utf8EncodeChar c ++ xs < String.utf8EncodeChar d ++ ys := by
  have hlt : c.val.toNat < d.val.toNat := h
  have hmax := toNat_lt d
  simp only [String.utf8EncodeChar]
  -- the first bytes of spellings of different lengths lie in different ranges
  split_ifs <;>
    simp (disch := omega) only [List.cons_append, List.nil_append, List.cons_lt_cons_iff,
      ← UInt8.toNat_inj, UInt8.lt_iff_toNat_lt, UInt8.toNat_ofNat', Nat.mod_eq_of_lt,
      Nat.add_lt_add_iff_right, Nat.add_right_cancel_iff] <;>
    omega

theorem append_lt_append_iff (front : List UInt8) {xs ys : List UInt8} :
    front ++ xs < front ++ ys ↔ xs < ys := by
  induction front with
  | nil => rfl
  | cons b front ih =>
    rw [List.cons_append, List.cons_append, List.cons_lt_cons_iff, ih]
    simp

theorem flatMap_utf8EncodeChar_lt_iff {cs ds : List Char} :
    cs.flatMap String.utf8EncodeChar < ds.flatMap String.utf8EncodeChar ↔ cs < ds := by
  induction cs generalizing ds with
  | nil =>
    cases ds with
    | nil => simp
    | cons d ds =>
      obtain ⟨b, bs, hb⟩ := List.exists_cons_of_ne_nil (@String.utf8EncodeChar_ne_nil d)
      simp [hb]
  | cons c cs ih =>
    cases ds with
    | nil => simp
    | cons d ds =>
      rw [List.flatMap_cons, List.flatMap_cons, List.cons_lt_cons_iff]
      rcases lt_trichotomy c d with h | rfl | h
      · exact iff_of_true (utf8EncodeChar_append_lt h _ _) (.inl h)
      · simp [append_lt_append_iff, ih]
      · refine iff_of_false (List.lt_asymm (utf8EncodeChar_append_lt h _ _)) ?_
        rintro (h' | ⟨rfl, -⟩)
        · exact absurd h' (lt_asymm h)
        · exact lt_irrefl _ h

theorem bytes_lt_bytes_iff {s t : String} : bytes s < bytes t ↔ s < t := by
  rw [bytes_eq, bytes_eq, flatMap_utf8EncodeChar_lt_iff, String.lt_iff_toList_lt]

theorem bytes_le_bytes_iff {s t : String} : bytes s ≤ bytes t ↔ s ≤ t :=
  not_congr bytes_lt_bytes_iff

end Storefront.Text
