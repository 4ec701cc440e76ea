import Storefront.Json.Printer
import Storefront.Proofs.Json.Readable

namespace Storefront.Json

def hexNumber? (digits : List Char) : Option Nat :=
  digits.foldl (fun code c ↦ do return (← code) * 16 + (← Text.hexValue? c)) (some 0)

theorem hexNumber?_concat (digits : List Char) (c : Char) :
    hexNumber? (digits ++ [c]) = do return (← hexNumber? digits) * 16 + (← Text.hexValue? c) := by
  rw [hexNumber?, List.foldl_append]
  rfl

theorem of_hexNumber?_concat {digits : List Char} {c : Char} {n : Nat}
    (h : hexNumber? (digits ++ [c]) = some n) :
    ∃ m k, hexNumber? digits = some m ∧ Text.hexValue? c = some k ∧ n = m * 16 + k := by
  rw [hexNumber?_concat] at h
  obtain ⟨m, hm, h⟩ := Option.bind_eq_some_iff.1 h
  obtain ⟨k, hk, h⟩ := Option.bind_eq_some_iff.1 h
  exact ⟨m, k, hm, hk, (Option.some.inj h).symm⟩

inductive Glyph : List Char → Char → Prop
  | plain {c : Char} : c ≠ '"' → c ≠ '\\' → 0x20 ≤ c.toNat → Glyph [c] c
  | short {letter c : Char} : shortEscape? letter = some c → Glyph ['\\', letter] c
  | code {digits : List Char} {n : Nat} : digits.length = 4 → hexNumber? digits = some n →
      isHighSurrogate n = false → isLowSurrogate n = false →
      Glyph ('\\' :: 'u' :: digits) (Char.ofNat n)
  | pair {digits digits' : List Char} {high low : Nat} : digits.length = 4 → digits'.length = 4 →
      hexNumber? digits = some high → hexNumber? digits' = some low →
      isHighSurrogate high → isLowSurrogate low →
      Glyph ('\\' :: 'u' :: (digits ++ '\\' :: 'u' :: digits'))
        (Char.ofNat (0x10000 + (high - 0xD800) * 0x400 + (low - 0xDC00)))

/-- What is printed for one character of a string. -/
inductive Escape (c : Char) : List Char → Prop
  | short {letter : Char} : letter ∈ ['"', '\\', 'n', 'r', 't', 'b', 'f'] →
      shortEscape? letter = some c → Escape c ['\\', letter]
  | code : c.toNat < 0x20 → Escape c
      ['\\', 'u', '0', '0', Text.hexDigit (c.toNat / 16), Text.hexDigit (c.toNat % 16)]
  | plain : c ≠ '"' → c ≠ '\\' → 0x20 ≤ c.toNat → Escape c [c]

theorem escape_escaped (c : Char) : Escape c (escaped c) := by
  have hof : ∀ n, c.toNat = n → Char.ofNat n = c := by
    intro n hn
    rw [← hn, Char.ofNat_toNat]
  rw [escaped]
  split
  · next h => exact .short (by decide) (congrArg some h.symm)
  next hq =>
  split
  · next h => exact .short (by decide) (congrArg some h.symm)
  next hs =>
  split
  · next h => exact .short (by decide) (congrArg some h.symm)
  split
  · next h => exact .short (by decide) (congrArg some h.symm)
  split
  · next h => exact .short (by decide) (congrArg some h.symm)
  split
  · next h => exact .short (by decide) (congrArg some (hof 8 h))
  split
  · next h => exact .short (by decide) (congrArg some (hof 12 h))
  split
  · next h => exact .code h
  · next h => exact .plain hq hs (Nat.le_of_not_lt h)

inductive Literal : List Char → List Char → Prop
  | nil : Literal [] []
  | snoc {cs ds glyph : List Char} {c : Char} : Literal cs ds → Glyph glyph c →
      Literal (cs ++ glyph) (ds ++ [c])

def isMark (c : Char) : Bool :=
  c = 'e' || c = 'E'

def isSign (c : Char) : Bool :=
  c = '+' || c = '-'

def smallMark (c : Char) : Char :=
  if c = 'E' then 'e' else c

/-- A number as it is printed: the mark of its exponent is a small `e`, and a sign follows it. -/
def reprint : List Char → List Char
  | [] => []
  | [c] => [smallMark c]
  | c :: d :: cs =>
    if isMark c && !isSign d then 'e' :: '+' :: reprint (d :: cs)
    else smallMark c :: reprint (d :: cs)

def fixedTokens : List (List Char) :=
  ["null".toList, "true".toList, "false".toList, ['['], [']'], ['\x7b'], ['\x7d'], [','], [':']]

/-- A token of a text, and the token that is printed for the same thing. -/
inductive Spells : List Char → List Char → Prop
  | fixed {token : List Char} : token ∈ fixedTokens → Spells token token
  | number {part : NumberPart} {cs seen : List Char} : Spelled part seen → part.complete →
      reprint cs = seen.reverse → Spells cs seen.reverse
  | string {cs : List Char} {s : String} : Literal cs s.toList →
      Spells ('"' :: (cs ++ ['"'])) (stringToken s)

section Numbers

variable {part part' : NumberPart} {seen : List Char} {c d : Char}

theorem smallMark_of_isMark (h : isMark c) : smallMark c = 'e' := by
  simp only [isMark, Bool.or_eq_true, decide_eq_true_eq] at h
  rcases h with rfl | rfl <;> rfl

theorem reprint_concat (cs : List Char) (c d : Char) :
    reprint (cs ++ [c, d]) = reprint (cs ++ [c]) ++
      if isMark c && !isSign d then ['+', smallMark d] else [smallMark d] := by
  induction cs with
  | nil =>
    by_cases h : isMark c && !isSign d
    · have hc := smallMark_of_isMark (Bool.and_eq_true _ _ ▸ h).1
      simp [reprint, h, hc]
    · simp [reprint, h]
  | cons a cs ih =>
    cases cs with
    | nil =>
      simp only [List.nil_append, List.cons_append] at ih ⊢
      rw [reprint, ih]
      simp only [reprint]
      split <;> rfl
    | cons b cs =>
      simp only [List.cons_append] at ih ⊢
      rw [reprint, ih]
      simp only [reprint]
      split <;> rfl

theorem smallMark_mem_reprint {cs : List Char} (h : c ∈ cs) : smallMark c ∈ reprint cs := by
  induction cs using reprint.induct with
  | case1 => cases h
  | case2 d =>
    rw [List.mem_singleton.1 h]
    exact List.mem_singleton_self _
  | case3 a b cs hab ih =>
    rw [reprint, if_pos hab]
    rcases List.mem_cons.1 h with rfl | h
    · rw [smallMark_of_isMark (Bool.and_eq_true _ _ ▸ hab).1]
      exact List.mem_cons_self
    · exact List.mem_cons_of_mem _ (List.mem_cons_of_mem _ (ih h))
  | case4 a b cs hab ih =>
    rw [reprint, if_neg hab]
    rcases List.mem_cons.1 h with rfl | h
    · exact List.mem_cons_self
    · exact List.mem_cons_of_mem _ (ih h)

/-- What a character of a number is, and which of them lead to the part after a mark. -/
theorem NumberPart.of_next (h : part.next c = some (some part')) :
    part' = .mark ∧ isMark c ∨ part' ≠ .mark ∧ (c.isDigit ∨ c = '.' ∨ isSign c) := by
  have hzero : c = '0' → c.isDigit := by
    intro hc
    rw [hc]
    rfl
  cases part <;>
    grind [next, next.afterWhole, next.afterFraction, next.digitOfExponent, isMark, isSign]

theorem ne_of_isDigit (h : c.isDigit) (hd : d.isDigit = false) : c ≠ d := by
  intro he
  rw [he, hd] at h
  cases h

theorem NumberPart.eq_mark_iff (h : part.next c = some (some part')) :
    part' = .mark ↔ isMark c := by
  rcases NumberPart.of_next h with ⟨hp, hc⟩ | ⟨hp, hd | rfl | hs⟩
  · exact iff_of_true hp hc
  · have hne : ∀ d : Char, d.isDigit = false → c ≠ d := fun d ↦ ne_of_isDigit hd
    exact iff_of_false hp (by simp [isMark, hne])
  · exact iff_of_false hp nofun
  · refine iff_of_false hp ?_
    simp only [isSign, Bool.or_eq_true, decide_eq_true_eq] at hs
    rcases hs with rfl | rfl <;> exact nofun

def Solid (c : Char) : Prop :=
  isSpace c = false ∧ c ≠ '"'

theorem solid_of_isDigit (h : c.isDigit) : Solid c := by
  have hne : ∀ d : Char, d.isDigit = false → c ≠ d := fun d ↦ ne_of_isDigit h
  exact ⟨by simp [isSpace, hne], hne _ rfl⟩

theorem NumberPart.solid_of_next (h : part.next c = some (some part')) : Solid c := by
  rcases NumberPart.of_next h with ⟨-, hm⟩ | ⟨-, hd | rfl | hs⟩
  · simp only [isMark, Bool.or_eq_true, decide_eq_true_eq] at hm
    rcases hm with rfl | rfl <;> exact ⟨rfl, by decide⟩
  · exact solid_of_isDigit hd
  · exact ⟨rfl, by decide⟩
  · simp only [isSign, Bool.or_eq_true, decide_eq_true_eq] at hs
    rcases hs with rfl | rfl <;> exact ⟨rfl, by decide⟩

theorem Spelled.solid (h : Spelled part seen) : ∀ c ∈ seen, Solid c := by
  induction h with
  | minus => exact List.forall_mem_singleton.2 ⟨rfl, by decide⟩
  | zero => exact List.forall_mem_singleton.2 ⟨rfl, by decide⟩
  | whole hd => exact List.forall_mem_singleton.2 (solid_of_isDigit hd)
  | more _ hc _ ih => exact List.forall_mem_cons.2 ⟨NumberPart.solid_of_next hc, ih⟩

theorem solid_of_smallMark (h : Solid (smallMark c)) : Solid c := by
  rw [smallMark] at h
  split at h
  · next hc =>
    rw [hc]
    exact ⟨rfl, by decide⟩
  · exact h

theorem solid_of_reprint {cs : List Char} (hs : Spelled part seen)
    (h : reprint cs = seen.reverse) : ∀ c ∈ cs, Solid c := by
  intro c hc
  have hm : smallMark c ∈ seen.reverse := h ▸ smallMark_mem_reprint hc
  exact solid_of_smallMark (hs.solid _ (List.mem_reverse.1 hm))

end Numbers

end Storefront.Json
