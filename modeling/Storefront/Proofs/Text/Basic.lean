import Mathlib.Data.List.Basic
import Storefront.Text.Basic

namespace Storefront.Text

def IsHexDigit (c : Char) (n : Nat) : Prop :=
  n < 16 ∧ (c = hexDigit n ∨ c = (hexDigit n).toUpper)

variable {c : Char} {n : Nat}

theorem hexValue?_eq_some_iff : hexValue? c = some n ↔ IsHexDigit c n := by
  constructor
  · intro h
    have hlt : c.toNat < 103 := by
      simp only [hexValue?] at h
      grind
    have hall : ∀ m < 103, ∀ n ∈ hexValue? (Char.ofNat m), n < 16 ∧
        (Char.ofNat m = hexDigit n ∨ Char.ofNat m = (hexDigit n).toUpper) := by
      decide
    have hc := hall c.toNat hlt n
    rw [Char.ofNat_toNat] at hc
    exact hc h
  · have hall : ∀ n < 16, hexValue? (hexDigit n) = some n ∧
        hexValue? (hexDigit n).toUpper = some n := by
      decide
    rintro ⟨hn, rfl | rfl⟩
    · exact (hall n hn).1
    · exact (hall n hn).2

theorem hexValue?_hexDigit (h : n < 16) : hexValue? (hexDigit n) = some n :=
  hexValue?_eq_some_iff.2 ⟨h, .inl rfl⟩

theorem utf8Size_hexDigit (h : n < 16) : (hexDigit n).utf8Size = 1 := by
  have hall : ∀ n < 16, (hexDigit n).utf8Size = 1 := by decide
  exact hall n h

theorem exists_hexDigit_of_mem_hex {bytes : List UInt8} (h : c ∈ hex bytes) :
    ∃ n < 16, c = hexDigit n := by
  obtain ⟨b, -, hc⟩ := List.mem_flatMap.1 h
  have hb : b.toNat < 256 := b.toNat_lt
  simp only [List.mem_cons, List.not_mem_nil, or_false] at hc
  rcases hc with rfl | rfl
  · exact ⟨_, by omega, rfl⟩
  · exact ⟨_, Nat.mod_lt _ (by decide), rfl⟩

theorem isSome_dropFront?_iff {front cs : List Char} :
    (dropFront? front cs).isSome ↔ front <+: cs := by
  rw [Option.isSome_iff_exists]
  exact exists_congr fun rest ↦ dropFront?_eq_some_iff.trans eq_comm

theorem occursIn_iff {part cs : List Char} : occursIn part cs ↔ part <:+: cs := by
  induction cs with
  | nil => simp [occursIn]
  | cons c cs ih => rw [occursIn, Bool.or_eq_true, isSome_dropFront?_iff, ih, List.infix_cons_iff]

section Pieces

variable {separator : Char} {cs front back : List Char}

theorem pieces_of_not_mem (h : separator ∉ cs) : pieces separator cs = [cs] := by
  induction cs with
  | nil => rfl
  | cons c cs ih =>
    have ⟨hc, hcs⟩ := not_or.1 (mt List.mem_cons.2 h)
    rw [pieces, if_neg (Ne.symm hc), ih hcs]

theorem pieces_append (h : separator ∉ front) (back : List Char) :
    pieces separator (front ++ separator :: back) = front :: pieces separator back := by
  induction front with
  | nil => rw [List.nil_append, pieces, if_pos rfl]
  | cons c front ih =>
    have ⟨hc, hfront⟩ := not_or.1 (mt List.mem_cons.2 h)
    rw [List.cons_append, pieces, if_neg (Ne.symm hc), ih hfront]

theorem pieces_ne_nil (cs : List Char) : pieces separator cs ≠ [] := by
  by_cases hmem : separator ∈ cs
  · obtain ⟨front, rest, rfl, hfront⟩ := List.eq_append_cons_of_mem hmem
    rw [pieces_append hfront]
    exact List.cons_ne_nil _ _
  · rw [pieces_of_not_mem hmem]
    exact List.cons_ne_nil _ _

theorem pieces_eq_singleton_iff {piece : List Char} :
    pieces separator cs = [piece] ↔ separator ∉ cs ∧ cs = piece := by
  constructor
  · intro h
    by_cases hmem : separator ∈ cs
    · obtain ⟨front, rest, rfl, hfront⟩ := List.eq_append_cons_of_mem hmem
      rw [pieces_append hfront] at h
      exact absurd (List.cons.inj h).2 (pieces_ne_nil rest)
    · rw [pieces_of_not_mem hmem] at h
      exact ⟨hmem, (List.cons.inj h).1⟩
  · rintro ⟨hmem, rfl⟩
    exact pieces_of_not_mem hmem

/-- The first of several pieces reaches to the first separator. -/
theorem pieces_eq_cons_cons_iff {piece next : List Char} {more : List (List Char)} :
    pieces separator cs = piece :: next :: more ↔ separator ∉ piece ∧
      ∃ rest, cs = piece ++ separator :: rest ∧ pieces separator rest = next :: more := by
  constructor
  · intro h
    by_cases hmem : separator ∈ cs
    · obtain ⟨front, rest, rfl, hfront⟩ := List.eq_append_cons_of_mem hmem
      rw [pieces_append hfront] at h
      obtain ⟨rfl, hrest⟩ := List.cons.inj h
      exact ⟨hfront, rest, rfl, hrest⟩
    · rw [pieces_of_not_mem hmem] at h
      cases h
  · rintro ⟨hpiece, rest, rfl, hrest⟩
    rw [pieces_append hpiece, hrest]

end Pieces

section Cut

variable {mark cs front back : List Char}

theorem eq_append_of_cut? (h : cut? mark cs = some (front, back)) : cs = front ++ mark ++ back := by
  induction cs generalizing front with
  | nil => cases h
  | cons c cs ih =>
    rw [cut?] at h
    split at h
    · next rest hrest =>
      cases h
      exact dropFront?_eq_some_iff.1 hrest
    · obtain ⟨⟨front', back'⟩, hcut, he⟩ := Option.map_eq_some_iff.1 h
      cases he
      rw [ih hcut]
      rfl

def Skips (mark front : List Char) : Prop :=
  ∀ rest, cut? mark (front ++ rest) = (cut? mark rest).map fun p ↦ (front ++ p.1, p.2)

theorem skips_nil : Skips mark [] := by
  intro rest
  simp

theorem Skips.append (hf : Skips mark front) (hb : Skips mark back) :
    Skips mark (front ++ back) := by
  intro rest
  rw [List.append_assoc, hf, hb, Option.map_map]
  simp [Function.comp_def]

theorem skips_singleton {c : Char} (h : ∀ rest, dropFront? mark (c :: rest) = none) :
    Skips mark [c] := by
  intro rest
  rw [List.singleton_append, cut?, h rest]
  rfl

theorem skips_of_not_mem {m : Char} (h : m ∉ front) : Skips (m :: mark) front := by
  induction front with
  | nil => exact skips_nil
  | cons c front ih =>
    have ⟨hc, hfront⟩ := not_or.1 (mt List.mem_cons.2 h)
    have hfirst : Skips (m :: mark) [c] := skips_singleton fun rest ↦ by rw [dropFront?, if_neg hc]
    exact hfirst.append (ih hfront)

theorem Skips.cons {m c : Char} (h : Skips [m, m] (c :: front)) (hc : c ≠ m) :
    Skips [m, m] (m :: c :: front) := by
  intro rest
  have hdrop : dropFront? [m, m] (m :: c :: front ++ rest) = none := by
    simp [dropFront?, Ne.symm hc]
  rw [List.cons_append, cut?, ← List.cons_append, hdrop, h rest, Option.map_map]
  simp [Function.comp_def]

theorem Skips.cut?_append (h : Skips mark front) (hm : mark ≠ []) (back : List Char) :
    cut? mark (front ++ mark ++ back) = some (front, back) := by
  have hdrop : dropFront? mark (mark ++ back) = some back := dropFront?_eq_some_iff.2 rfl
  have hcut : cut? mark (mark ++ back) = some ([], back) := by
    cases mark with
    | nil => exact absurd rfl hm
    | cons m mark =>
      rw [List.cons_append] at hdrop ⊢
      rw [cut?, hdrop]
  rw [List.append_assoc, h, hcut, Option.map_some, List.append_nil]

theorem Skips.cut?_eq_none (h : Skips mark front) : cut? mark front = none := by
  simpa [cut?] using h []

end Cut

end Storefront.Text
