import Storefront.Proofs.Json.Unfinished

namespace Storefront.Json

/-- Nothing gets heavier when it is printed: a capital becomes a small letter, and a plus that an
exponent is given weighs nothing. -/
def weight (c : Char) : Nat :=
  if c = '+' then 0 else if 'A' ≤ c ∧ c ≤ 'F' then 2 else 1

def weigh : List Char → Nat
  | [] => 0
  | c :: cs => weight c + weigh cs

variable {cs ds cs' ds' token t glyph : List Char} {c d : Char} {n : Nat}

theorem weigh_append (cs ds : List Char) : weigh (cs ++ ds) = weigh cs + weigh ds := by
  induction cs with
  | nil => simp [weigh]
  | cons c cs ih => rw [List.cons_append, weigh, weigh, ih, Nat.add_assoc]

/-- The second text is no heavier than the first; where it weighs the same it is no shorter, and
where it is as long too it is the same. -/
structure Lightens (cs ds : List Char) : Prop where
  le : weigh ds ≤ weigh cs
  length_le : weigh ds = weigh cs → cs.length ≤ ds.length
  eq : weigh ds = weigh cs → cs.length = ds.length → cs = ds

namespace Lightens

theorem refl (cs : List Char) : Lightens cs cs :=
  ⟨Nat.le_refl _, fun _ ↦ Nat.le_refl _, fun _ _ ↦ rfl⟩

theorem of_lt (h : weigh ds < weigh cs) : Lightens cs ds :=
  ⟨Nat.le_of_lt h, fun he ↦ absurd he (Nat.ne_of_lt h), fun he ↦ absurd he (Nat.ne_of_lt h)⟩

theorem append (h : Lightens cs ds) (h' : Lightens cs' ds') : Lightens (cs ++ cs') (ds ++ ds') := by
  have hle := h.le
  have hle' := h'.le
  constructor
  · rw [weigh_append, weigh_append]
    omega
  · rw [weigh_append, weigh_append, List.length_append, List.length_append]
    intro he
    have hl := h.length_le (by omega)
    have hl' := h'.length_le (by omega)
    omega
  · rw [weigh_append, weigh_append, List.length_append, List.length_append]
    intro he hl
    have hl₁ := h.length_le (by omega)
    have hl₂ := h'.length_le (by omega)
    rw [h.eq (by omega) (by omega), h'.eq (by omega) (by omega)]

theorem cons (h : Lightens [c] [d]) (h' : Lightens cs ds) : Lightens (c :: cs) (d :: ds) :=
  h.append h'

end Lightens

section Strings

theorem weight_le (c : Char) : weight c ≤ 2 := by
  rw [weight]
  split
  · decide
  split <;> decide

theorem lightens_hexDigit (h : Text.hexValue? d = some n) :
    n < 16 ∧ 1 ≤ weight d ∧ Lightens [d] [Text.hexDigit n] := by
  have hall : ∀ m < 103, ∀ n ∈ Text.hexValue? (Char.ofNat m), n < 16 ∧ 1 ≤ weight (Char.ofNat m) ∧
      (weigh [Text.hexDigit n] < weigh [Char.ofNat m] ∨ Char.ofNat m = Text.hexDigit n) := by
    decide
  have hd := hall d.toNat (toNat_lt_of_hexValue? h) n
  rw [Char.ofNat_toNat] at hd
  obtain ⟨hn, hw, hlt | he⟩ := hd h
  · exact ⟨hn, hw, .of_lt hlt⟩
  · exact ⟨hn, hw, he ▸ .refl [d]⟩

theorem lightens_digits {digits : List Char} (hl : digits.length = 4)
    (h : hexNumber? digits = some n) :
    n < 0x10000 ∧ 4 ≤ weigh digits ∧
      (n < 0x20 → Lightens digits ['0', '0', Text.hexDigit (n / 16), Text.hexDigit (n % 16)]) := by
  obtain ⟨a, b, c, d, rfl⟩ := List.length_eq_four.1 hl
  obtain ⟨m₃, n₄, h₃, hd, hn₄⟩ := @of_hexNumber?_concat [a, b, c] d n h
  obtain ⟨m₂, n₃, h₂, hc, hn₃⟩ := @of_hexNumber?_concat [a, b] c m₃ h₃
  obtain ⟨m₁, n₂, h₁, hb, hn₂⟩ := @of_hexNumber?_concat [a] b m₂ h₂
  obtain ⟨m₀, n₁, h₀, ha, hn₁⟩ := @of_hexNumber?_concat [] a m₁ h₁
  obtain rfl : 0 = m₀ := Option.some.inj h₀
  obtain ⟨ha₁, ha₂, ha⟩ := lightens_hexDigit ha
  obtain ⟨hb₁, hb₂, hb⟩ := lightens_hexDigit hb
  obtain ⟨hc₁, hc₂, hc⟩ := lightens_hexDigit hc
  obtain ⟨hd₁, hd₂, hd⟩ := lightens_hexDigit hd
  refine ⟨by omega, ?_, ?_⟩
  · simp only [weigh]
    omega
  · intro hlt
    obtain rfl : n₁ = 0 := by omega
    obtain rfl : n₂ = 0 := by omega
    have hdiv : n / 16 = n₃ := by omega
    have hmod : n % 16 = n₄ := by omega
    rw [hdiv, hmod]
    exact ha.cons (hb.cons (hc.cons hd))

theorem weigh_short {letter : Char} (h : letter ∈ ['"', '\\', 'n', 'r', 't', 'b', 'f']) :
    weigh ['\\', letter] = 2 := by
  have hall : ['"', '\\', 'n', 'r', 't', 'b', 'f'].all fun letter ↦ weigh ['\\', letter] = 2 := by
    decide
  exact of_decide_eq_true (List.all_eq_true.1 hall letter h)

theorem weigh_singleton_le (c : Char) : weigh [c] ≤ 2 := by
  have hc := weight_le c
  simp only [weigh]
  omega

/-- Only a control character without a short escape is printed as more than two characters. -/
theorem weigh_escaped (c : Char) : weigh (escaped c) ≤ 2 ∨ c.toNat < 0x20 ∧
    escaped c =
      ['\\', 'u', '0', '0', Text.hexDigit (c.toNat / 16), Text.hexDigit (c.toNat % 16)] := by
  have h := escape_escaped c
  generalize escaped c = glyph at h ⊢
  cases h with
  | short hl => exact .inl (Nat.le_of_eq (weigh_short hl))
  | code hc => exact .inr ⟨hc, rfl⟩
  | plain => exact .inl (weigh_singleton_le c)

theorem weigh_escaped_le (c : Char) : weigh (escaped c) ≤ 8 := by
  rcases weigh_escaped c with h | ⟨-, h⟩
  · omega
  · have hhigh := weight_le (Text.hexDigit (c.toNat / 16))
    have hlow := weight_le (Text.hexDigit (c.toNat % 16))
    have hfront : weigh ['\\', 'u', '0', '0'] = 4 := rfl
    simp only [weigh] at hfront
    rw [h]
    simp only [weigh]
    omega

theorem weight_le_weigh_escaped (c : Char) : weight c ≤ weigh (escaped c) := by
  have hc := weight_le c
  have h := escape_escaped c
  generalize escaped c = glyph at h ⊢
  cases h with
  | short hl => rwa [weigh_short hl]
  | code =>
    have hfront : weigh ['\\', 'u', '0', '0'] = 4 := rfl
    simp only [weigh] at hfront ⊢
    omega
  | plain => exact Nat.le_refl _

theorem weigh_le_flatMap_escaped (cs : List Char) : weigh cs ≤ weigh (cs.flatMap escaped) := by
  induction cs with
  | nil => exact Nat.le_refl _
  | cons c cs ih =>
    have hc := weight_le_weigh_escaped c
    rw [List.flatMap_cons, weigh_append, weigh]
    omega

theorem escaped_of_plain (hq : c ≠ '"') (hs : c ≠ '\\') (hc : 0x20 ≤ c.toNat) :
    escaped c = [c] := by
  have hne : ∀ d : Char, d.toNat < 0x20 → c ≠ d := by
    rintro d hd rfl
    omega
  have h8 : c.toNat ≠ 8 := by omega
  have h12 : c.toNat ≠ 12 := by omega
  have hlow : ¬ c.toNat < 0x20 := by omega
  simp [escaped, hq, hs, hne, h8, h12, hlow]

/-- Of the short escapes only that of the slash is not printed. -/
theorem lightens_short {letter : Char} (h : shortEscape? letter = some c) :
    Lightens ['\\', letter] (escaped c) := by
  have hletter : letter ∈ ['/', '"', '\\', 'b', 'f', 'n', 'r', 't'] := by
    simp only [shortEscape?] at h
    grind
  rcases List.mem_cons.1 hletter with rfl | hletter
  · obtain rfl : '/' = c := Option.some.inj h
    exact .of_lt (by decide)
  · have hall : ['"', '\\', 'b', 'f', 'n', 'r', 't'].all fun letter ↦
        (shortEscape? letter).all fun c ↦ ['\\', letter] = escaped c := by
      decide
    have hsame := List.all_eq_true.1 hall letter hletter
    rw [h, Option.all_some, decide_eq_true_eq] at hsame
    exact hsame ▸ .refl _

theorem Glyph.lightens (h : Glyph glyph c) : Lightens glyph (escaped c) := by
  cases h with
  | plain hq hs hc =>
    rw [escaped_of_plain hq hs hc]
    exact .refl [c]
  | short hc => exact lightens_short hc
  | @code digits n hl hn hhigh hlow =>
    obtain ⟨hlt, hw, hd⟩ := lightens_digits hl hn
    -- six characters and more give way to two at most, or to six with small digits
    rcases weigh_escaped (Char.ofNat n) with h | ⟨hc, h⟩
    · refine .of_lt (Nat.lt_of_le_of_lt h ?_)
      simp only [weigh, weight]
      omega
    · have hvalid : n.isValidChar := by
        simp only [isHighSurrogate, isLowSurrogate, Bool.and_eq_false_iff,
          decide_eq_false_iff_not] at hhigh hlow
        unfold Nat.isValidChar
        omega
      have hcode : (Char.ofNat n).toNat = n := by
        rw [Char.ofNat, dif_pos hvalid]
        rfl
      rw [hcode] at hc h
      rw [h]
      exact (Lightens.refl ['\\', 'u']).append (hd hc)
  | @pair digits digits' high low hl hl' hn hn' =>
    obtain ⟨-, hw, -⟩ := lightens_digits hl hn
    obtain ⟨-, hw', -⟩ := lightens_digits hl' hn'
    have hslash : weight '\\' = 1 := rfl
    refine .of_lt (Nat.lt_of_le_of_lt (weigh_escaped_le _) ?_)
    simp only [weigh, weigh_append, hslash]
    omega

theorem Literal.lightens (h : Literal cs ds) : Lightens cs (ds.flatMap escaped) := by
  induction h with
  | nil => exact .refl []
  | snoc _ hg ih =>
    rw [List.flatMap_append, List.flatMap_singleton]
    exact ih.append hg.lightens

end Strings

theorem lightens_smallMark (c : Char) : Lightens [c] [smallMark c] := by
  rw [smallMark]
  split
  · next hc =>
    rw [hc]
    exact .of_lt (by decide)
  · exact .refl [c]

theorem lightens_reprint (cs : List Char) : Lightens cs (reprint cs) := by
  induction cs using reprint.induct with
  | case1 => exact .refl []
  | case2 c => exact lightens_smallMark c
  | case3 c d cs h ih =>
    -- a small mark weighs as much with the plus, but the text gets longer
    have hc : Lightens [c] ['e', '+'] := by
      have hm : isMark c := (Bool.and_eq_true _ _ ▸ h).1
      simp only [isMark, Bool.or_eq_true, decide_eq_true_eq] at hm
      rcases hm with rfl | rfl
      · exact ⟨by decide, by decide, by decide⟩
      · exact .of_lt (by decide)
    rw [reprint, if_pos h]
    exact hc.append ih
  | case4 c d cs h ih =>
    rw [reprint, if_neg h]
    exact (lightens_smallMark c).cons ih

theorem Spells.lightens (h : Spells token t) : Lightens token t := by
  cases h with
  | fixed => exact .refl token
  | number _ _ hr =>
    rw [← hr]
    exact lightens_reprint token
  | string hl => exact (Lightens.refl ['"']).append (hl.lightens.append (.refl ['"']))

end Storefront.Json
