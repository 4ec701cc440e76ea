import Storefront.Json.Reader
import Storefront.Proofs.Entries

namespace Storefront.Json

def Reads (s : State) (cs : List Char) (s' : State) : Prop :=
  cs.foldlM step s = .ok s'

variable {s s' s'' : State} {c : Char} {cs ds : List Char} {frames : List Frame} {v : Json}

namespace Reads

theorem nil (s : State) : Reads s [] s :=
  rfl

theorem cons (h : step s c = .ok s') (hs : Reads s' cs s'') : Reads s (c :: cs) s'' := by
  rw [Reads, List.foldlM_cons, h]
  exact hs

theorem one (h : step s c = .ok s') : Reads s [c] s' :=
  cons h (nil s')

theorem trans (h : Reads s cs s') (hs : Reads s' ds s'') : Reads s (cs ++ ds) s'' := by
  rw [Reads, List.foldlM_append, h]
  exact hs

theorem of_nil (h : Reads s [] s') : s' = s := by
  cases h
  rfl

theorem of_cons (h : Reads s (c :: cs) s'') : ∃ s', step s c = .ok s' ∧ Reads s' cs s'' := by
  rw [Reads, List.foldlM_cons] at h
  cases hs : step s c with
  | error e =>
    rw [hs] at h
    cases h
  | ok s' =>
    rw [hs] at h
    exact ⟨s', rfl, h⟩

/-- What every step preserves, every run preserves. -/
theorem preserves {p : State → Prop} (hp : ∀ s c s', p s → step s c = .ok s' → p s')
    (h : Reads s cs s') (hs : p s) : p s' := by
  induction cs generalizing s with
  | nil =>
    rw [h.of_nil]
    exact hs
  | cons c cs ih =>
    obtain ⟨s₁, h₁, h₂⟩ := h.of_cons
    exact ih h₂ (hp s c s₁ hs h₁)

end Reads

theorem run_eq_ok_iff {bytes : Nat} :
    run s bytes cs = .ok v ↔ ∃ s', Reads s cs s' ∧ finish s' = .ok v := by
  induction cs generalizing s bytes with
  | nil =>
    rw [run]
    constructor
    · intro h
      cases hf : finish s with
      | error e =>
        rw [hf] at h
        cases h
      | ok w =>
        rw [hf] at h
        cases h
        exact ⟨s, .nil s, hf⟩
    · intro h
      obtain ⟨s', hs, hf⟩ := h
      rw [hs.of_nil] at hf
      rw [hf]
      rfl
  | cons c cs ih =>
    rw [run]
    cases hc : step s c with
    | error e =>
      refine iff_of_false nofun ?_
      intro h
      obtain ⟨s', hs, -⟩ := h
      obtain ⟨s₁, h₁, -⟩ := hs.of_cons
      rw [hc] at h₁
      cases h₁
    | ok s₁ =>
      dsimp only
      rw [ih]
      constructor
      · intro h
        obtain ⟨s', hs, hf⟩ := h
        exact ⟨s', hs.cons hc, hf⟩
      · intro h
        obtain ⟨s', hs, hf⟩ := h
        obtain ⟨s₂, h₂, hs⟩ := hs.of_cons
        rw [hc] at h₂
        cases h₂
        exact ⟨s', hs, hf⟩

theorem parse_eq_ok_iff {text : String} :
    parse text = .ok v ↔ ∃ s, Reads .start text.toList s ∧ finish s = .ok v := by
  rw [← @run_eq_ok_iff .start text.toList v 0, parse]
  cases run .start 0 text.toList with
  | error e => exact iff_of_false nofun nofun
  | ok w => simp [Except.mapError]

theorem finishBetween_eq_ok_iff {mode : Mode} : finishBetween mode = .ok v ↔ mode = .ended v := by
  cases mode with
  | misfit m => cases m <;> simp [finishBetween]
  | value | firstItem | item | itemEnd | firstKey | key | colon | memberEnd | numeral | numeralEnd
  | word | number | string | ended => simp [finishBetween]

end Storefront.Json
