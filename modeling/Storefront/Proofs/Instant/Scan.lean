import Mathlib.Logic.Basic
import Storefront.Instant.Basic
import Storefront.Instant.Reader

namespace Storefront

namespace Number

theorem isDigit_of_mem_padded {width n : Nat} {c : Char} (h : c ∈ padded width n) : c.isDigit := by
  induction width generalizing n with
  | zero => cases h
  | succ width ih =>
    rcases List.mem_append.1 h with h | h
    · exact ih h
    · rw [List.mem_singleton.1 h, Nat.isDigit_digitChar]
      exact decide_eq_true (Nat.mod_lt _ (by decide))

theorem ofDigitChars_padded {width n : Nat} (h : n < Nat.pow 10 width) :
    Nat.ofDigitChars 10 (padded width n) 0 = n := by
  induction width generalizing n with
  | zero =>
    change n < 1 at h
    rw [Nat.lt_one_iff.1 h]
    rfl
  | succ width ih =>
    change n < Nat.pow 10 width * 10 at h
    rw [padded, Nat.ofDigitChars_append, ih (by omega),
      Nat.ofDigitChars_cons_digitChar_of_lt_ten (Nat.mod_lt _ (by decide)),
      Nat.ofDigitChars_nil]
    omega

theorem padded_ne_nil {width : Nat} (h : 0 < width) (n : Nat) : padded width n ≠ [] := by
  rw [← List.length_pos_iff, length_padded]
  exact h

end Number

namespace Instant.Scan

open Number

def NoDigit (rest : List Char) : Prop :=
  ∀ c ∈ rest.head?, ¬ c.isDigit

@[simp] theorem noDigit_nil : NoDigit [] :=
  fun _ h ↦ nomatch h

@[simp] theorem noDigit_cons {c : Char} {rest : List Char} : NoDigit (c :: rest) ↔ ¬ c.isDigit := by
  simp [NoDigit]

theorem takeWhile_take_digits {found rest : List Char} {limit : Nat}
    (hf : ∀ c ∈ found, c.isDigit) (hl : found.length ≤ limit)
    (hr : found.length = limit ∨ NoDigit rest) :
    ((found ++ rest).take limit).takeWhile Char.isDigit = found := by
  rw [List.take_append, List.take_of_length_le hl, List.takeWhile_append_of_pos hf]
  suffices h : (rest.take (limit - found.length)).takeWhile Char.isDigit = [] by
    rw [h, List.append_nil]
  rcases hr with hr | hr
  · simp [hr]
  · cases rest with
    | nil => simp
    | cons c rest =>
      cases hk : limit - found.length with
      | zero => simp
      | succ k => simp [noDigit_cons.1 hr]

theorem run_digits {found rest : List Char} {limit : Nat} (hf : ∀ c ∈ found, c.isDigit)
    (hne : found ≠ []) (hl : found.length ≤ limit) (hr : found.length = limit ∨ NoDigit rest) :
    (digits limit).run (found ++ rest) = .ok (found, rest) := by
  have ht := takeWhile_take_digits hf hl hr
  cases found with
  | nil => exact absurd rfl hne
  | cons c found =>
    have hc : c.isDigit := hf c (List.mem_cons_self ..)
    change digits limit (c :: found ++ rest) = _
    simp only [digits, List.cons_append, hc, if_true]
    rw [List.cons_append] at ht
    rw [ht, ← List.cons_append, List.drop_left]

theorem run_digits_padded {width n limit : Nat} (hw : 0 < width) (hl : width ≤ limit)
    {rest : List Char} (hr : width = limit ∨ NoDigit rest) :
    (digits limit).run (padded width n ++ rest) = .ok (padded width n, rest) := by
  have hlen : (padded width n).length = width := length_padded width n
  refine run_digits (fun c ↦ isDigit_of_mem_padded) (padded_ne_nil hw n) ?_ ?_
  · rwa [hlen]
  · rwa [hlen]

theorem run_bind {α β : Type} {x : Scan α} {f : α → Scan β} {a : α} {cs rest : List Char}
    (h : x.run cs = .ok (a, rest)) : (x >>= f).run cs = (f a).run rest := by
  rw [StateT.run_bind, h]
  rfl

theorem run_bind_error {α β : Type} {x : Scan α} (f : α → Scan β) {e : Fault} {cs : List Char}
    (h : x.run cs = .error e) : (x >>= f).run cs = .error e := by
  rw [StateT.run_bind, h]
  rfl

theorem run_get (cs : List Char) : (get : Scan (List Char)).run cs = .ok (cs, cs) :=
  rfl

theorem run_set (cs rest : List Char) : (set rest : Scan Unit).run cs = .ok ((), rest) :=
  rfl

theorem run_modify (f : List Char → List Char) (cs : List Char) :
    (modify f : Scan Unit).run cs = .ok ((), f cs) :=
  rfl

theorem run_literal (c : Char) (rest : List Char) :
    (literal c).run (c :: rest) = .ok ((), rest) := by
  change literal c (c :: rest) = _
  simp [literal]

theorem run_inRange {low high n : Nat} (hl : low ≤ n) (hh : n ≤ high) (cs : List Char) :
    (inRange low high n).run cs = .ok (n, cs) := by
  rw [inRange, if_pos ⟨hl, hh⟩]
  rfl

theorem run_bind_inRange {α : Type} {n : Nat} (low high : Nat) (f : Nat → Scan α)
    (cs : List Char) : (inRange low high n >>= f).run cs =
      if low ≤ n ∧ n ≤ high then (f n).run cs else .error .outOfRange := by
  by_cases h : low ≤ n ∧ n ≤ high
  · rw [if_pos h, run_bind (run_inRange h.1 h.2 cs)]
  · rw [if_neg h, inRange, if_neg h]
    rfl

theorem run_digits_error {c : Char} (h : ¬ c.isDigit) (limit : Nat) (rest : List Char) :
    (digits limit).run (c :: rest) = .error .invalid := by
  change digits limit (c :: rest) = _
  simp [digits, h]

theorem run_number {width n limit : Nat} (h : n < Nat.pow 10 width) (hw : 0 < width)
    (hl : width ≤ limit) {rest : List Char} (hr : width = limit ∨ NoDigit rest) :
    (number limit).run (padded width n ++ rest) = .ok (n, rest) := by
  rw [number, run_bind (run_digits_padded hw hl hr), ofDigitChars_padded h]
  rfl

theorem run_exactly {width n : Nat} (h : n < Nat.pow 10 width) (hw : 0 < width) (rest : List Char) :
    (exactly width).run (padded width n ++ rest) = .ok (n, rest) := by
  rw [exactly, run_bind (run_digits_padded hw (Nat.le_refl _) (.inl rfl)),
    if_pos (length_padded _ _), ofDigitChars_padded h]
  rfl

/-- The places of the internet form hold any day, also one that there is not. -/
theorem run_bind_places {α : Type} {y m d : Nat} (hy : y < 10000) (hm : m < 100) (hd : d < 100)
    (k : Nat → Nat → Nat → Scan α) (rest : List Char) :
    (do
      let y ← exactly 4
      literal '-'
      let m ← exactly 2
      literal '-'
      let d ← exactly 2
      k y m d : Scan α).run (padded 4 y ++ '-' :: (padded 2 m ++ '-' :: (padded 2 d ++ rest))) =
      (k y m d).run rest := by
  rw [run_bind (run_exactly hy (by decide) _), run_bind (run_literal _ _),
    run_bind (run_exactly hm (by decide) _), run_bind (run_literal _ _),
    run_bind (run_exactly hd (by decide) _)]

theorem isBlank_of_isDigit {c : Char} (h : c.isDigit) : Text.isBlank c = false := by
  have hc : 48 ≤ c.toNat ∧ c.toNat ≤ 57 := by simpa using Char.isDigit_iff_toNat.1 h
  simp [Text.isBlank]
  omega

theorem trimStart_padded {width : Nat} (h : 0 < width) (n : Nat) (rest : List Char) :
    Text.trimStart (padded width n ++ rest) = padded width n ++ rest := by
  cases hp : padded width n with
  | nil => exact absurd hp (padded_ne_nil h n)
  | cons c cs =>
    have hc : c.isDigit := isDigit_of_mem_padded (hp ▸ List.mem_cons_self ..)
    simp [Text.trimStart, isBlank_of_isDigit hc]

theorem run_field {n low high : Nat} (hl : low ≤ n) (hh : n ≤ high) (hn : n < 100)
    (rest : List Char) : (field low high).run (padded 2 n ++ rest) = .ok (n, rest) := by
  rw [field, blanks, run_bind (run_modify _ _), trimStart_padded (by decide),
    run_bind (run_number hn (by decide) (Nat.le_refl _) (.inl rfl)), run_inRange hl hh]

theorem run_fraction {width n : Nat} (h : n < Nat.pow 10 width) (hw : 0 < width) (hl : width ≤ 9)
    {rest : List Char} (hr : NoDigit rest) :
    Scan.fraction.run ('.' :: (padded width n ++ rest)) =
      .ok (n * Nat.pow 10 (9 - width), rest) := by
  have ht : rest.dropWhile Char.isDigit = rest := by
    cases rest with
    | nil => rfl
    | cons c rest => simp [noDigit_cons.1 hr]
  rw [Scan.fraction, run_bind (run_get _)]
  change (do
    set (padded width n ++ rest)
    let found ← digits 9
    modify (List.dropWhile Char.isDigit)
    return Nat.ofDigitChars 10 found 0 * Nat.pow 10 (9 - found.length) : Scan Nat).run _ = _
  rw [run_bind (run_set _ _), run_bind (run_digits_padded hw hl (.inr hr)),
    run_bind (run_modify _ _), ht, ofDigitChars_padded h, length_padded]
  rfl

theorem run_offset_zulu (between : Scan Unit) (rest : List Char) :
    (offset between).run ('Z' :: rest) = .ok (0, rest) :=
  rfl

theorem run_finish : finish.run [] = .ok ((), []) :=
  rfl

theorem run_year {sign : Char} (hs : sign = '-' ∨ sign = '+') {digits rest : List Char}
    (hd : ∀ c ∈ digits, c.isDigit) (hne : digits ≠ [])
    (hlt : Nat.ofDigitChars 10 digits 0 < Nat.pow 2 31) (hr : NoDigit rest) :
    ∃ y, year.run (sign :: (digits ++ rest)) = .ok (y, rest) := by
  have hn : (number (digits ++ rest).length).run (digits ++ rest) =
      .ok (Nat.ofDigitChars 10 digits 0, rest) := by
    rw [number, run_bind (run_digits hd hne (by simp) (.inr hr))]
    rfl
  rcases hs with rfl | rfl
  · refine ⟨-(Nat.ofDigitChars 10 digits 0 : Nat), ?_⟩
    rw [year, blanks, run_bind (run_modify _ _), run_bind (run_get _)]
    change (do
      set (digits ++ rest)
      let n ← number (digits ++ rest).length
      if n ≤ Nat.pow 2 31 then return -(n : Int) else throw .outOfRange : Scan Int).run _ = _
    rw [run_bind (run_set _ _), run_bind hn, if_pos (Nat.le_of_lt hlt)]
    rfl
  · refine ⟨(Nat.ofDigitChars 10 digits 0 : Nat), ?_⟩
    rw [year, blanks, run_bind (run_modify _ _), run_bind (run_get _)]
    change (do
      set (digits ++ rest)
      let n ← number (digits ++ rest).length
      if n < Nat.pow 2 31 then return (n : Int) else throw .outOfRange : Scan Int).run _ = _
    rw [run_bind (run_set _ _), run_bind hn, if_pos hlt]
    rfl

end Instant.Scan

end Storefront
