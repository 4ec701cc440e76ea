import Storefront.Proofs.Json.Steps
import Storefront.Proofs.Json.Within

namespace Storefront.Json

inductive Spelled : NumberPart → List Char → Prop
  | minus : Spelled .minus ['-']
  | zero : Spelled .zero ['0']
  | whole {c : Char} : c.isDigit → c ≠ '0' → Spelled .whole [c]
  | more {part part' : NumberPart} {c : Char} {seen : List Char} : Spelled part seen →
      part.next c = some (some part') → part.write c seen = c :: seen → Spelled part' (c :: seen)

theorem NumberPart.next_capital (part : NumberPart) : part.next 'E' = part.next 'e' := by
  cases part <;> rfl

theorem NumberPart.write_eq {part : NumberPart} {c : Char} (hp : part ≠ .mark) (hc : c ≠ 'E')
    (seen : List Char) : part.write c seen = c :: seen := by
  cases part <;> first | contradiction | exact if_neg hc

/-- Only a complete number gives way to another character. -/
theorem NumberPart.complete_of_next {part : NumberPart} {c : Char}
    (h : part.next c = some none) : part.complete := by
  cases part with
  | zero | whole | fraction | exponent => rfl
  | minus =>
    rw [next] at h
    split at h
    · cases h
    split at h <;> cases h
  | point =>
    rw [next] at h
    split at h <;> cases h
  | mark =>
    rw [next, next.digitOfExponent] at h
    split at h
    · cases h
    split at h <;> cases h
  | sign =>
    rw [next, next.digitOfExponent] at h
    split at h <;> cases h

/-- A number is spelled the same way when it is read again: no step changes what an earlier
reading has written. -/
theorem Spelled.next {part part' : NumberPart} {seen : List Char} {c : Char}
    (h : Spelled part seen) (hc : part.next c = some (some part')) :
    Spelled part' (part.write c seen) := by
  by_cases hm : part = .mark
  · subst hm
    by_cases hs : c = '+' ∨ c = '-'
    · have hw : NumberPart.mark.write c seen = c :: seen := by
        simp [NumberPart.write, hs]
      rw [hw]
      exact h.more hc hw
    · rw [NumberPart.next, if_neg (by simpa using hs), NumberPart.next.digitOfExponent] at hc
      split at hc
      · next hd =>
        cases hc
        have hw : NumberPart.mark.write c seen = c :: '+' :: seen := by
          simp [NumberPart.write, hs]
        have hplus : Spelled .sign ('+' :: seen) := h.more rfl rfl
        have hne : c ≠ 'E' := by
          intro he
          rw [he] at hd
          exact absurd hd (by decide)
        rw [hw]
        refine hplus.more ?_ (NumberPart.write_eq (by decide) hne _)
        rw [NumberPart.next, NumberPart.next.digitOfExponent, if_pos hd]
      · cases hc
  · by_cases hE : c = 'E'
    · subst hE
      have hw : part.write 'E' seen = 'e' :: seen := by
        cases part <;> first | contradiction | rfl
      rw [hw]
      rw [NumberPart.next_capital] at hc
      exact h.more hc (NumberPart.write_eq hm (by decide) _)
    · have hw := NumberPart.write_eq hm hE seen
      rw [hw]
      exact h.more hc hw

theorem spelled_of_first? {part : NumberPart} {c : Char} (h : NumberPart.first? c = some part) :
    Spelled part [c] := by
  rcases first?_eq_some h with ⟨rfl, rfl⟩ | ⟨rfl, rfl⟩ | ⟨hd, hz, rfl⟩
  · exact .minus
  · exact .zero
  · exact .whole hd hz

section Marks

variable {key : String} {v w : Json} {done es : List (String × Json)}

theorem isMarked_append (h : done ≠ []) (es : List (String × Json)) :
    isMarked (done ++ es) = isMarked done := by
  cases done with
  | nil => contradiction
  | cons e es => rfl

theorem isMarked_of_append (h : isMarked (done ++ es) = false) : isMarked done = false := by
  cases done with
  | nil => rfl
  | cons e es => exact h

theorem isMarked_put (key : String) (v : Json) (done : List (String × Json)) :
    isMarked (Entries.put key v done) = isMarked (done ++ [(key, w)]) := by
  cases done with
  | nil => rfl
  | cons e es =>
    rw [Entries.put]
    split <;> rfl

theorem isMarked_concat_congr (h : isMarked (done ++ [(key, w)]) = false) :
    isMarked (done ++ [(key, v)]) = false := by
  cases done with
  | nil | cons => exact h

/-- After a key only the first key can be the mark. -/
theorem isMarked_concat (h : isMarked done = false) (hk : ¬ (done = [] ∧ key = numberMark)) :
    isMarked (done ++ [(key, v)]) = false := by
  cases done with
  | nil => exact decide_eq_false fun he ↦ hk ⟨rfl, he⟩
  | cons e es => exact h

end Marks

/-- A value that the reader can return where so many containers may still be opened. -/
inductive Readable : Nat → Json → Prop
  | null (n : Nat) : Readable n .null
  | boolean (n : Nat) (b : Bool) : Readable n (.boolean b)
  | number {part : NumberPart} {seen : List Char} (n : Nat) : Spelled part seen → part.complete →
      Readable n (numberOf seen)
  | string (n : Nat) (s : String) : Readable n (.string s)
  | array {n : Nat} {items : List Json} : (∀ v ∈ items, Readable n v) →
      Readable (n + 1) (.array items)
  | object {n : Nat} {members : List (String × Json)} : (Entries.keys members).Nodup →
      isMarked members = false → (∀ e ∈ members, Readable n e.2) → Readable (n + 1) (.object members)

theorem Readable.get? {n : Nat} {v member : Json} {key : String} (h : Readable n v)
    (hm : v.get? key = some member) : ∃ n', Readable n' member := by
  cases h with
  | null | boolean | number | string | array => cases hm
  | object _ _ hv => exact ⟨_, hv _ (Entries.mem_of_find? hm)⟩

def Frame.Sound (n : Nat) : Frame → Prop
  | .array done => ∀ v ∈ done, Readable n v
  | .object done key => (Entries.keys done).Nodup ∧ (∀ e ∈ done, Readable n e.2) ∧
      isMarked (done ++ [(key, .null)]) = false

def SoundFrames : List Frame → Prop
  | [] => True
  | f :: frames =>
    frames.length < depthLimit ∧ f.Sound (depthLimit - (frames.length + 1)) ∧ SoundFrames frames

def State.Sound (s : State) : Prop :=
  match s.mode with
  | .value => SoundFrames s.frames
  | .firstItem => SoundFrames (.array [] :: s.frames)
  | .item done | .itemEnd done => SoundFrames (.array done :: s.frames)
  | .firstKey => SoundFrames (.object [] "" :: s.frames)
  | .key done | .colon done _ | .memberEnd done => SoundFrames (.object done "" :: s.frames)
  | .numeral | .misfit _ => SoundFrames s.frames
  | .word _ v | .numeralEnd v => SoundFrames s.frames ∧ ∀ n, Readable n v
  | .number part seen => SoundFrames s.frames ∧ Spelled part seen
  | .string _ _ .value | .string _ _ .numeral => SoundFrames s.frames
  | .string _ _ (.key done) => SoundFrames (.object done "" :: s.frames)
  | .ended v => s.frames = [] ∧ Readable depthLimit v

variable {s s' : State} {c : Char} {frames : List Frame} {v : Json}

theorem sound_deliver (hf : SoundFrames frames)
    (hv : Readable (depthLimit - frames.length) v) : (deliver v frames).Sound := by
  rcases frames with _ | ⟨done | ⟨done, key⟩, rest⟩
  · exact ⟨rfl, hv⟩
  · obtain ⟨hl, hd, hr⟩ := hf
    exact ⟨hl, List.forall_mem_cons.2 ⟨hv, hd⟩, hr⟩
  · obtain ⟨hl, ⟨hn, hd, hm⟩, hr⟩ := hf
    refine ⟨hl, ⟨Entries.nodup_keys_put key v hn, ?_, ?_⟩, hr⟩
    · intro e he
      rcases Entries.mem_put he with rfl | he
      · exact hv
      · exact hd e he
    · rw [isMarked_append (Entries.put_ne_nil key v done), isMarked_put, hm]

theorem sound_starts (hf : SoundFrames frames) (h : Starts frames c s) : s.Sound := by
  cases h with
  | null => exact ⟨hf, Readable.null⟩
  | true => exact ⟨hf, fun n ↦ .boolean n true⟩
  | false => exact ⟨hf, fun n ↦ .boolean n false⟩
  | string => exact hf
  | minus => exact ⟨hf, .minus⟩
  | zero => exact ⟨hf, .zero⟩
  | whole hd hz => exact ⟨hf, .whole hd hz⟩
  | array hl => exact ⟨hl, nofun, hf⟩
  | object hl => exact ⟨hl, ⟨by simp [Entries.keys], nofun, rfl⟩, hf⟩

theorem sound_close {f : Frame} (hf : SoundFrames (f :: frames))
    (hv : ∀ n, f.Sound n → Readable (n + 1) v) : (deliver v frames).Sound := by
  obtain ⟨hl, hs, hr⟩ := hf
  have hd : depthLimit - frames.length = depthLimit - (frames.length + 1) + 1 := by omega
  apply sound_deliver hr
  rw [hd]
  exact hv _ hs

theorem sound_moves (hs : s.Sound) (h : Moves s c s') : s'.Sound := by
  cases h with
  | value h | firstItem h | item h => exact sound_starts hs h
  | noItem => exact sound_close hs fun n _ ↦ .array nofun
  | closeArray => exact sound_close hs fun n hd ↦ .array fun v hv ↦ hd v (List.mem_reverse.1 hv)
  | noMember | closeObject =>
    exact sound_close hs fun n hd ↦ .object hd.1 (isMarked_of_append hd.2.2) hd.2.1
  | colon frames hk =>
    obtain ⟨hl, ⟨hn, hd, hm⟩, hr⟩ := hs
    exact ⟨hl, ⟨hn, hd, isMarked_concat (isMarked_of_append hm) hk⟩, hr⟩
  | mark => exact hs.2.2
  | closeNumeral => exact sound_deliver hs.1 (hs.2 _)
  | nextItem | firstKey | key | nextKey | numeral | misfit => exact hs

theorem sound_stepBetween {mode : Mode} (hs : (⟨frames, mode⟩ : State).Sound)
    (h : stepBetween frames mode c = .ok s) : s.Sound := by
  rcases stepBetween_cases h with ⟨-, rfl⟩ | h
  · exact hs
  · exact sound_moves hs h

theorem sound_stepNumber {part : NumberPart} {seen : List Char} (hf : SoundFrames frames)
    (hp : Spelled part seen) (h : stepNumber frames part seen c = .ok s) : s.Sound := by
  rcases stepNumber_cases h with ⟨part', hc, rfl⟩ | ⟨hc, h⟩
  · exact ⟨hf, hp.next hc⟩
  · have hd := sound_deliver hf (.number _ hp (NumberPart.complete_of_next hc))
    exact sound_stepBetween hd h

theorem readable_of_readNumeral {text : String} (h : readNumeral text = .ok v) (n : Nat) :
    Readable n v := by
  obtain ⟨part, seen, rfl, hc, hs⟩ := readNumeral_preserves (p := fun part _ seen ↦ Spelled part seen)
    (fun _ _ h ↦ spelled_of_first? h) (fun _ _ _ _ _ hs hc ↦ hs.next hc) h
  exact .number n hs hc

theorem sound_stepString {part : StringPart} {seen : List Char} {purpose : Purpose}
    (hs : (⟨frames, .string part seen purpose⟩ : State).Sound)
    (h : stepString frames part seen purpose c = .ok s) : s.Sound := by
  rcases stepString_cases h with ⟨-, -, he⟩ | ⟨-, part', seen', -, rfl⟩
  · cases purpose with
    | value =>
      cases he
      exact sound_deliver hs (.string _ _)
    | key done =>
      cases he
      exact hs
    | numeral =>
      obtain ⟨v, hv, rfl⟩ := endString_numeral he
      exact ⟨hs, readable_of_readNumeral hv⟩
  · cases purpose <;> exact hs

theorem sound_step (hs : s.Sound) (h : step s c = .ok s') : s'.Sound := by
  obtain ⟨frames, mode⟩ := s
  cases mode with
  | word rest v =>
    obtain ⟨hf, hv⟩ := hs
    cases rest with
    | nil => exact @sound_stepBetween s' c frames (.word [] v) ⟨hf, hv⟩ h
    | cons r rest =>
      obtain ⟨-, ⟨-, rfl⟩ | ⟨-, rfl⟩⟩ := stepWord_cases h
      · exact sound_deliver hf (hv _)
      · exact ⟨hf, hv⟩
  | number part seen => exact sound_stepNumber hs.1 hs.2 h
  | string part seen purpose => exact sound_stepString hs h
  | misfit m =>
    obtain ⟨m', rfl⟩ := stepMisfit_cases h
    exact hs
  | value | firstItem | item | itemEnd | firstKey | key | colon | memberEnd | numeral | numeralEnd
  | ended => exact sound_stepBetween hs h

theorem sound_finish (hs : s.Sound) (h : finish s = .ok v) : Readable depthLimit v := by
  have he : ∀ {s : State}, s.Sound → finishBetween s.mode = .ok v → Readable depthLimit v := by
    intro s hs h
    obtain ⟨frames, mode⟩ := s
    obtain rfl : mode = .ended v := finishBetween_eq_ok_iff.1 h
    exact hs.2
  obtain ⟨frames, mode⟩ := s
  cases mode with
  | number part seen =>
    simp only [finish] at h
    split at h
    · next hp => exact he (sound_deliver hs.1 (.number _ hs.2 hp)) h
    · cases h
  | value | firstItem | item | itemEnd | firstKey | key | colon | memberEnd | numeral | misfit
  | numeralEnd | word | string | ended => exact he hs h

/-- Every value that is read from a text is readable, within the limit. -/
theorem readable_of_parse {text : String} (h : parse text = .ok v) : Readable depthLimit v := by
  obtain ⟨s, hr, hf⟩ := parse_eq_ok_iff.1 h
  have hstart : State.start.Sound := trivial
  exact sound_finish (hr.preserves (fun _ _ _ ↦ sound_step) hstart) hf

end Storefront.Json
