import Storefront.Proofs.Json.Machine

namespace Storefront.Json

inductive Starts (frames : List Frame) : Char → State → Prop
  | null : Starts frames 'n' ⟨frames, .word ['u', 'l', 'l'] .null⟩
  | true : Starts frames 't' ⟨frames, .word ['r', 'u', 'e'] (.boolean true)⟩
  | false : Starts frames 'f' ⟨frames, .word ['a', 'l', 's', 'e'] (.boolean false)⟩
  | string : Starts frames '"' ⟨frames, .string .plain [] .value⟩
  | minus : Starts frames '-' ⟨frames, .number .minus ['-']⟩
  | zero : Starts frames '0' ⟨frames, .number .zero ['0']⟩
  | whole {c : Char} : c.isDigit → c ≠ '0' → Starts frames c ⟨frames, .number .whole [c]⟩
  | array : frames.length < depthLimit → Starts frames '[' ⟨frames, .firstItem⟩
  | object : frames.length < depthLimit → Starts frames '\x7b' ⟨frames, .firstKey⟩

/-- What a character other than a blank does between two tokens. -/
inductive Moves : State → Char → State → Prop
  | value {frames : List Frame} {c : Char} {s : State} : Starts frames c s →
      Moves ⟨frames, .value⟩ c s
  | firstItem {frames : List Frame} {c : Char} {s : State} : Starts (.array [] :: frames) c s →
      Moves ⟨frames, .firstItem⟩ c s
  | noItem (frames : List Frame) : Moves ⟨frames, .firstItem⟩ ']' (deliver (.array []) frames)
  | item {frames : List Frame} {done : List Json} {c : Char} {s : State} :
      Starts (.array done :: frames) c s → Moves ⟨frames, .item done⟩ c s
  | nextItem (frames : List Frame) (done : List Json) :
      Moves ⟨frames, .itemEnd done⟩ ',' ⟨frames, .item done⟩
  | closeArray (frames : List Frame) (done : List Json) :
      Moves ⟨frames, .itemEnd done⟩ ']' (deliver (.array done.reverse) frames)
  | firstKey (frames : List Frame) :
      Moves ⟨frames, .firstKey⟩ '"' ⟨frames, .string .plain [] (.key [])⟩
  | noMember (frames : List Frame) :
      Moves ⟨frames, .firstKey⟩ '\x7d' (deliver (.object []) frames)
  | key (frames : List Frame) (done : List (String × Json)) :
      Moves ⟨frames, .key done⟩ '"' ⟨frames, .string .plain [] (.key done)⟩
  | colon (frames : List Frame) {done : List (String × Json)} {key : String} :
      ¬ (done = [] ∧ key = numberMark) →
      Moves ⟨frames, .colon done key⟩ ':' ⟨.object done key :: frames, .value⟩
  | mark (frames : List Frame) {done : List (String × Json)} {key : String} :
      done = [] → key = numberMark → Moves ⟨frames, .colon done key⟩ ':' ⟨frames, .numeral⟩
  | numeral (frames : List Frame) :
      Moves ⟨frames, .numeral⟩ '"' ⟨frames, .string .plain [] .numeral⟩
  | misfit (frames : List Frame) (c : Char) (m : Misfit) :
      Moves ⟨frames, .numeral⟩ c ⟨frames, .misfit m⟩
  | closeNumeral (frames : List Frame) (v : Json) :
      Moves ⟨frames, .numeralEnd v⟩ '\x7d' (deliver v frames)
  | nextKey (frames : List Frame) (done : List (String × Json)) :
      Moves ⟨frames, .memberEnd done⟩ ',' ⟨frames, .key done⟩
  | closeObject (frames : List Frame) (done : List (String × Json)) :
      Moves ⟨frames, .memberEnd done⟩ '\x7d' (deliver (.object done) frames)

variable {s : State} {c : Char} {frames : List Frame}

theorem starts_of_beginValue (h : beginValue frames c = .ok s) : Starts frames c s := by
  rw [beginValue] at h
  split at h
  · next hc =>
    cases h
    exact hc ▸ .null
  split at h
  · next hc =>
    cases h
    exact hc ▸ .true
  split at h
  · next hc =>
    cases h
    exact hc ▸ .false
  split at h
  · next hc =>
    cases h
    exact hc ▸ .string
  split at h
  · next hc =>
    subst hc
    cases h
    exact .minus
  split at h
  · next hc =>
    subst hc
    cases h
    exact .zero
  split at h
  · next hz hd =>
    cases h
    exact .whole hd hz
  split at h
  · next hc =>
    split at h
    · next hl =>
      cases h
      exact hc ▸ .array hl
    · cases h
  split at h
  · next hc =>
    split at h
    · next hl =>
      cases h
      exact hc ▸ .object hl
    · cases h
  · cases h

theorem moves_of_stepBetween {mode : Mode} (hc : isSpace c = false)
    (h : stepBetween frames mode c = .ok s) : Moves ⟨frames, mode⟩ c s := by
  rw [stepBetween.eq_def, if_neg (by simp [hc])] at h
  cases mode with
  | value => exact .value (starts_of_beginValue h)
  | firstItem =>
    dsimp only at h
    split at h
    · next hb =>
      cases h
      exact hb ▸ .noItem frames
    · exact .firstItem (starts_of_beginValue h)
  | item done =>
    dsimp only at h
    split at h
    · cases h
    · exact .item (starts_of_beginValue h)
  | itemEnd done =>
    dsimp only at h
    split at h
    · next hb =>
      cases h
      exact hb ▸ .nextItem frames done
    split at h
    · next hb =>
      cases h
      exact hb ▸ .closeArray frames done
    · cases h
  | firstKey =>
    dsimp only at h
    split at h
    · next hb =>
      cases h
      exact hb ▸ .firstKey frames
    split at h
    · next hb =>
      cases h
      exact hb ▸ .noMember frames
    · cases h
  | key done =>
    dsimp only at h
    split at h
    · next hb =>
      cases h
      exact hb ▸ .key frames done
    split at h <;> cases h
  | colon done key =>
    dsimp only at h
    split at h
    · next hb =>
      subst hb
      split at h
      · next hm =>
        cases h
        obtain ⟨hd, hk⟩ := Bool.and_eq_true_iff.1 hm
        exact .mark frames (List.isEmpty_iff.1 hd) (of_decide_eq_true hk)
      · next hm =>
        cases h
        refine .colon frames fun hmark ↦ hm ?_
        simp [hmark]
    · cases h
  | memberEnd done =>
    dsimp only at h
    split at h
    · next hb =>
      cases h
      exact hb ▸ .nextKey frames done
    split at h
    · next hb =>
      cases h
      exact hb ▸ .closeObject frames done
    · cases h
  | numeral =>
    dsimp only at h
    split at h
    · next hb =>
      cases h
      exact hb ▸ .numeral frames
    · cases hm : beginMisfit c with
      | error e =>
        rw [hm] at h
        cases h
      | ok m =>
        rw [hm] at h
        cases h
        exact .misfit frames c m
  | numeralEnd v =>
    dsimp only at h
    split at h
    · cases h
    split at h
    · next hb =>
      cases h
      exact hb ▸ .closeNumeral frames v
    · cases h
  | misfit | word | number | string | ended => cases h

/-- A step between two tokens goes over a blank or begins, goes on with or closes something. -/
theorem stepBetween_cases {mode : Mode} (h : stepBetween frames mode c = .ok s) :
    isSpace c ∧ s = ⟨frames, mode⟩ ∨ Moves ⟨frames, mode⟩ c s := by
  cases hc : isSpace c with
  | false => exact .inr (moves_of_stepBetween hc h)
  | true =>
    rw [stepBetween.eq_def, if_pos hc] at h
    exact .inl ⟨rfl, (Except.ok.inj h).symm⟩

theorem stepNumber_cases {part : NumberPart} {seen : List Char}
    (h : stepNumber frames part seen c = .ok s) :
    (∃ part', part.next c = some (some part') ∧ s = ⟨frames, .number part' (part.write c seen)⟩) ∨
      part.next c = some none ∧ stepBetween (deliver (numberOf seen) frames).frames
        (deliver (numberOf seen) frames).mode c = .ok s := by
  rw [stepNumber] at h
  split at h
  · cases h
  · next part' hc => exact .inl ⟨part', hc, (Except.ok.inj h).symm⟩
  · next hc => exact .inr ⟨hc, h⟩

theorem stepString_cases {part : StringPart} {seen : List Char} {purpose : Purpose}
    (h : stepString frames part seen purpose c = .ok s) :
    part = .plain ∧ c = '"' ∧ endString frames seen purpose = .ok s ∨
      ¬ (part = .plain ∧ c = '"') ∧ ∃ part' seen', stepStringPart part seen c = .ok (part', seen') ∧
        s = ⟨frames, .string part' seen' purpose⟩ := by
  rw [stepString] at h
  split at h
  · next hc => exact .inl ⟨hc.1, hc.2, h⟩
  · next hc =>
    cases hp : stepStringPart part seen c with
    | error e =>
      rw [hp] at h
      cases h
    | ok next =>
      rw [hp] at h
      exact .inr ⟨hc, next.1, next.2, rfl, (Except.ok.inj h).symm⟩

theorem endString_numeral {seen : List Char} (h : endString frames seen .numeral = .ok s) :
    ∃ v, readNumeral (String.ofList seen.reverse) = .ok v ∧ s = ⟨frames, .numeralEnd v⟩ := by
  rw [endString] at h
  split at h
  · next v hv => exact ⟨v, hv, (Except.ok.inj h).symm⟩
  · cases h

theorem stepWord_cases {r : Char} {rest : List Char} {v : Json}
    (h : step ⟨frames, .word (r :: rest) v⟩ c = .ok s) :
    c = r ∧ (rest = [] ∧ s = deliver v frames ∨ rest ≠ [] ∧ s = ⟨frames, .word rest v⟩) := by
  simp only [step] at h
  split at h
  · cases h
  · next hc =>
    refine ⟨of_not_not hc, ?_⟩
    split at h
    · next he => exact .inl ⟨List.isEmpty_iff.1 he, (Except.ok.inj h).symm⟩
    · next he => exact .inr ⟨fun hr ↦ he (List.isEmpty_iff.2 hr), (Except.ok.inj h).symm⟩

theorem stepMisfit_cases {m : Misfit} (h : step ⟨frames, .misfit m⟩ c = .ok s) :
    ∃ m', s = ⟨frames, .misfit m'⟩ := by
  replace h : (stepMisfit c m).map (fun m ↦ (⟨frames, .misfit m⟩ : State)) = .ok s := h
  cases hm : stepMisfit c m with
  | error e =>
    rw [hm] at h
    cases h
  | ok m' =>
    rw [hm] at h
    exact ⟨m', (Except.ok.inj h).symm⟩

theorem first?_eq_some {part : NumberPart} (h : NumberPart.first? c = some part) :
    c = '-' ∧ part = .minus ∨ c = '0' ∧ part = .zero ∨
      c.isDigit ∧ c ≠ '0' ∧ part = .whole := by
  rw [NumberPart.first?] at h
  split at h
  · next hc => exact .inl ⟨hc, (Option.some.inj h).symm⟩
  split at h
  · next hc => exact .inr (.inl ⟨hc, (Option.some.inj h).symm⟩)
  next hz =>
  split at h
  · next hd => exact .inr (.inr ⟨hd, hz, (Option.some.inj h).symm⟩)
  · cases h

section Numerals

variable {p : NumberPart → List Char → List Char → Prop} {v : Json}

theorem scanNumeral_preserves
    (hp : ∀ part part' front seen c, p part front seen → part.next c = some (some part') →
      p part' (front ++ [c]) (part.write c seen))
    {part : NumberPart} {front seen cs : List Char} {read : Nat} (hs : p part front seen)
    (h : scanNumeral part seen read cs = .ok v) :
    ∃ part' seen', v = numberOf seen' ∧ part'.complete ∧ p part' (front ++ cs) seen' := by
  induction cs generalizing part front seen read with
  | nil =>
    rw [scanNumeral] at h
    split at h
    · next hc =>
      cases h
      rw [List.append_nil]
      exact ⟨part, seen, rfl, hc, hs⟩
    · cases h
  | cons c cs ih =>
    rw [scanNumeral] at h
    split at h
    · next part' hc =>
      have hr := ih (hp part part' front seen c hs hc) h
      rwa [List.append_assoc] at hr
    · cases h

/-- What the first character of a number has and every further one keeps, the number has. -/
theorem readNumeral_preserves (hfirst : ∀ c part, NumberPart.first? c = some part → p part [c] [c])
    (hp : ∀ part part' front seen c, p part front seen → part.next c = some (some part') →
      p part' (front ++ [c]) (part.write c seen))
    {text : String} (h : readNumeral text = .ok v) :
    ∃ part seen, v = numberOf seen ∧ part.complete ∧ p part text.toList seen := by
  cases hs : readNumeral.scan text.toList with
  | error e =>
    rw [readNumeral, hs] at h
    cases h
  | ok w =>
    rw [readNumeral, hs] at h
    cases h
    cases ht : text.toList with
    | nil =>
      rw [ht] at hs
      cases hs
    | cons c cs =>
      rw [ht, readNumeral.scan] at hs
      split at hs
      · next part hc => exact scanNumeral_preserves hp (hfirst c part hc) hs
      · cases hs

end Numerals

end Storefront.Json
