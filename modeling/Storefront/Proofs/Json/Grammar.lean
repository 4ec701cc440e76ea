import Mathlib.Data.List.Forall2
import Storefront.Proofs.Json.Decoded
import Storefront.Proofs.Json.Spaced
import Storefront.Proofs.Json.Unfinished

namespace Storefront.Json

def Writes (cs : List Char) (ts : List (List Char)) : Prop :=
  ∃ written, Spaced written cs ∧ List.Forall₂ Spells written ts

variable {s s' : State} {c : Char} {cs ds seen token t : List Char} {ts : List (List Char)}
variable {frames : List Frame} {v : Json} {part : NumberPart} {purpose : Purpose}

namespace Writes

theorem nil : Writes [] [] :=
  ⟨[], .nil nofun, .nil⟩

theorem blank (h : Writes cs ts) (hc : isSpace c) : Writes (cs ++ [c]) ts := by
  obtain ⟨written, hs, hf⟩ := h
  have hb : Spaced [] [c] := .nil (List.forall_mem_singleton.2 hc)
  have hs' := hs.append hb
  rw [List.append_nil] at hs'
  exact ⟨written, hs', hf⟩

theorem append (h : Writes cs ts) (ht : Spells token t) : Writes (cs ++ token) (ts ++ [t]) := by
  obtain ⟨written, hs, hf⟩ := h
  have hone := Spaced.flatten [token]
  rw [List.flatten_singleton] at hone
  exact ⟨written ++ [token], hs.append hone, List.rel_append hf (.cons ht .nil)⟩

theorem fixed (h : Writes cs ts) (ht : token ∈ fixedTokens) :
    Writes (cs ++ token) (ts ++ [token]) :=
  h.append (.fixed ht)

end Writes

inductive Opens : List Frame → List (List Char) → Prop
  | nil : Opens [] []
  | array {frames : List Frame} {ts : List (List Char)} (items : List Json) : Opens frames ts →
      Opens (.array (decodedItems items).reverse :: frames) (ts ++ ['['] :: itemsBefore items)
  | object {frames : List Frame} {ts : List (List Char)} (members : List (String × Json))
      (key : String) : isMarked (members ++ [(key, .null)]) = false → Opens frames ts →
      Opens (.object (Entries.ofList (decodedMembers members)) key :: frames)
        (ts ++ ['\x7b'] :: (membersBefore members ++ [stringToken key, [':']]))

inductive Awaits (frames : List Frame) : Purpose → List (List Char) → Prop
  | value {ts : List (List Char)} : Opens frames ts → Awaits frames .value ts
  | key {ts : List (List Char)} (members : List (String × Json)) : isMarked members = false →
      Opens frames ts → Awaits frames (.key (Entries.ofList (decodedMembers members)))
        (ts ++ ['\x7b'] :: membersBefore members)
  | numeral {ts : List (List Char)} : Opens frames ts →
      Awaits frames .numeral (ts ++ [['\x7b'], stringToken numberMark, [':']])

/-- The tokens that are printed up to where the reader is, between two tokens. -/
inductive Printed : State → List (List Char) → Prop
  | value {frames : List Frame} {ts : List (List Char)} : Opens frames ts →
      Printed ⟨frames, .value⟩ ts
  | firstItem {frames : List Frame} {ts : List (List Char)} : Opens frames ts →
      Printed ⟨frames, .firstItem⟩ (ts ++ [['[']])
  | item {frames : List Frame} {done : List Json} {ts : List (List Char)} :
      Opens (.array done :: frames) ts → Printed ⟨frames, .item done⟩ ts
  | itemEnd {frames : List Frame} {done : List Json} {ts : List (List Char)} (v : Json) :
      Opens (.array done :: frames) ts →
      Printed ⟨frames, .itemEnd (decoded v :: done)⟩ (ts ++ v.tokens)
  | firstKey {frames : List Frame} {ts : List (List Char)} : Opens frames ts →
      Printed ⟨frames, .firstKey⟩ (ts ++ [['\x7b']])
  | key {frames : List Frame} {done : List (String × Json)} {ts : List (List Char)} :
      Awaits frames (.key done) ts → Printed ⟨frames, .key done⟩ ts
  | colon {frames : List Frame} {done : List (String × Json)} {ts : List (List Char)}
      (key : String) : Awaits frames (.key done) ts →
      Printed ⟨frames, .colon done key⟩ (ts ++ [stringToken key])
  | memberEnd {frames : List Frame} {done : List (String × Json)} {key : String}
      {ts : List (List Char)} (v : Json) : Opens (.object done key :: frames) ts →
      Printed ⟨frames, .memberEnd (Entries.put key (decoded v) done)⟩ (ts ++ v.tokens)
  | numeral {frames : List Frame} {ts : List (List Char)} : Awaits frames .numeral ts →
      Printed ⟨frames, .numeral⟩ ts
  | numeralEnd {frames : List Frame} {ts : List (List Char)} {text : String} {v : Json} :
      Opens frames ts → readNumeral text = .ok v → Printed ⟨frames, .numeralEnd v⟩
        (ts ++ [['\x7b'], stringToken numberMark, [':'], stringToken text])
  | ended (v : Json) : Printed ⟨[], .ended (decoded v)⟩ v.tokens

/-- The reader has come here over a text that spells what it has collected, where the last token
may be unfinished. A misfit gets no further, so nothing is said of it. -/
inductive Follows : State → List Char → Prop
  | between {s : State} {cs : List Char} {ts : List (List Char)} : Writes cs ts → Printed s ts →
      Follows s cs
  | word {frames : List Frame} {cs front rest : List Char} {ts : List (List Char)} {v : Json} :
      Writes cs ts → Opens frames ts → decoded v = v → v.tokens = [front ++ rest] →
      front ++ rest ∈ fixedTokens → rest ≠ [] → Follows ⟨frames, .word rest v⟩ (cs ++ front)
  | number {frames : List Frame} {part : NumberPart} {cs front seen : List Char}
      {ts : List (List Char)} : Writes cs ts → Opens frames ts → Numeral part front seen →
      Follows ⟨frames, .number part seen⟩ (cs ++ front)
  | string {frames : List Frame} {part : StringPart} {purpose : Purpose}
      {cs front seen : List Char} {ts : List (List Char)} : Writes cs ts →
      Awaits frames purpose ts → Quoted part front seen.reverse →
      Follows ⟨frames, .string part seen purpose⟩ (cs ++ '"' :: front)
  | misfit (frames : List Frame) (m : Misfit) (cs : List Char) : Follows ⟨frames, .misfit m⟩ cs

theorem printed_deliver (h : Opens frames ts) (v : Json) :
    Printed (deliver (decoded v) frames) (ts ++ v.tokens) := by
  cases h with
  | nil => exact .ended v
  | array items h => exact .itemEnd v (.array items h)
  | object members key hm h => exact .memberEnd v (.object members key hm h)

theorem follows_starts (hw : Writes cs ts) (ho : Opens frames ts) (h : Starts frames c s) :
    Follows s (cs ++ [c]) := by
  cases h with
  | null | true | false => exact .word hw ho rfl rfl (by decide) (by decide)
  | string => exact .string hw (.value ho) (.plain .nil)
  | minus => exact .number hw ho (.one .minus (by decide) (.inr rfl))
  | zero => exact .number hw ho (.one .zero (by decide) (.inl rfl))
  | whole hd hz => exact .number hw ho (.one (.whole hd hz) (by decide) (.inl hd))
  | array => exact .between (hw.fixed (by decide)) (.firstItem ho)
  | object => exact .between (hw.fixed (by decide)) (.firstKey ho)

/-- The tokens of a container are put together where it is closed. -/
theorem follows_moves (hw : Writes cs ts) (hp : Printed s ts) (h : Moves s c s') :
    Follows s' (cs ++ [c]) := by
  cases h with
  | value h =>
    cases hp with
    | value ho => exact follows_starts hw ho h
  | firstItem h =>
    cases hp with
    | firstItem ho => exact follows_starts hw (.array [] ho) h
  | noItem =>
    cases hp with
    | firstItem ho =>
    have hclose := hw.fixed (show [']'] ∈ fixedTokens by decide)
    rw [List.append_assoc] at hclose
    exact .between hclose (printed_deliver ho (.array []))
  | item h =>
    cases hp with
    | item ho => exact follows_starts hw ho h
  | nextItem =>
    cases hp with
    | itemEnd v ho =>
    cases ho with
    | @array _ ts items ho =>
    have hopen := Opens.array (items ++ [v]) ho
    rw [decodedItems_append, List.reverse_append] at hopen
    have hcomma := hw.fixed (show [','] ∈ fixedTokens by decide)
    simp only [itemsBefore, List.flatMap_append, List.flatMap_singleton] at hopen hcomma
    simp only [List.append_assoc, List.cons_append] at hcomma
    exact .between hcomma (.item hopen)
  | closeArray =>
    cases hp with
    | itemEnd v ho =>
    cases ho with
    | @array _ ts items ho =>
    have hclose := hw.fixed (show [']'] ∈ fixedTokens by decide)
    have hd := printed_deliver ho (.array (items ++ [v]))
    rw [tokens_array_append, decoded, decodedItems_append] at hd
    simp only [List.append_assoc, List.cons_append] at hclose
    rw [List.reverse_cons, List.reverse_reverse]
    exact .between hclose hd
  | firstKey =>
    cases hp with
    | firstKey ho => exact .string hw (.key [] rfl ho) (.plain .nil)
  | noMember =>
    cases hp with
    | firstKey ho =>
    have hclose := hw.fixed (show ['\x7d'] ∈ fixedTokens by decide)
    rw [List.append_assoc] at hclose
    exact .between hclose (printed_deliver ho (.object []))
  | key =>
    cases hp with
    | key ha => exact .string hw ha (.plain .nil)
  | @colon _ _ key hk =>
    cases hp with
    | colon _ ha =>
    cases ha with
    | key members hm ho =>
    have hnext : isMarked (members ++ [(key, .null)]) = false := by
      refine isMarked_concat hm fun h ↦ hk ⟨?_, h.2⟩
      rw [h.1]
      rfl
    have hcolon := hw.fixed (show [':'] ∈ fixedTokens by decide)
    simp only [List.append_assoc, List.cons_append, List.nil_append] at hcolon
    exact .between hcolon (.value (.object members key hnext ho))
  | mark _ hd hk =>
    cases hp with
    | colon _ ha =>
    cases ha with
    | key members hm ho =>
    obtain rfl : members = [] := by
      by_contra hne
      exact Entries.ofList_ne_nil (by simpa [decodedMembers_eq] using hne) hd
    have hcolon := hw.fixed (show [':'] ∈ fixedTokens by decide)
    rw [hk] at hcolon
    simp only [membersBefore, List.flatMap_nil, List.append_assoc, List.cons_append,
      List.nil_append] at hcolon
    exact .between hcolon (.numeral (.numeral ho))
  | numeral =>
    cases hp with
    | numeral ha => exact .string hw ha (.plain .nil)
  | misfit frames c m => exact .misfit frames m _
  | closeNumeral =>
    cases hp with
    | @numeralEnd _ ts text v ho hv =>
    have hclose := hw.fixed (show ['\x7d'] ∈ fixedTokens by decide)
    have hd := printed_deliver ho (.object [(numberMark, .string text)])
    rw [decoded_marked hv] at hd
    simp only [List.append_assoc, List.cons_append, List.nil_append] at hclose
    exact .between hclose hd
  | nextKey =>
    cases hp with
    | @memberEnd _ _ key _ v ho =>
    cases ho with
    | @object _ ts members _ hm ho =>
    rw [← ofList_decodedMembers_append]
    have hcomma := hw.fixed (show [','] ∈ fixedTokens by decide)
    have hopen := Awaits.key (members ++ [(key, v)]) (isMarked_concat_congr hm) ho
    simp only [membersBefore, List.flatMap_append, List.flatMap_singleton] at hopen hcomma
    simp only [List.append_assoc, List.cons_append, List.nil_append] at hcomma
    exact .between hcomma (.key hopen)
  | closeObject =>
    cases hp with
    | @memberEnd _ _ key _ v ho =>
    cases ho with
    | @object _ ts members _ hm ho =>
    rw [← ofList_decodedMembers_append]
    have hclose := hw.fixed (show ['\x7d'] ∈ fixedTokens by decide)
    have hd := printed_deliver ho (.object (members ++ [(key, v)]))
    rw [tokens_object_append, decoded_object (isMarked_concat_congr hm)] at hd
    simp only [List.append_assoc, List.cons_append, List.nil_append] at hclose
    exact .between hclose hd

theorem follows_stepBetween {mode : Mode} (hw : Writes cs ts) (hp : Printed ⟨frames, mode⟩ ts)
    (h : stepBetween frames mode c = .ok s) : Follows s (cs ++ [c]) := by
  rcases stepBetween_cases h with ⟨hc, rfl⟩ | h
  · exact .between (hw.blank hc) hp
  · exact follows_moves hw hp h

theorem Numeral.delivered {front : List Char} (hn : Numeral part front seen) (hw : Writes cs ts)
    (ho : Opens frames ts) (hp : part.complete) :
    ∃ ts', Writes (cs ++ front) ts' ∧ Printed (deliver (numberOf seen) frames) ts' := by
  have hd := printed_deliver ho (numberOf seen)
  rw [numberOf, tokens, String.toList_ofList] at hd
  exact ⟨_, hw.append (.number hn.spelled hp hn.reprinted), hd⟩

theorem follows_stepNumber {front : List Char} (hw : Writes cs ts) (ho : Opens frames ts)
    (hn : Numeral part front seen) (h : stepNumber frames part seen c = .ok s) :
    Follows s (cs ++ front ++ [c]) := by
  rcases stepNumber_cases h with ⟨part', hc, rfl⟩ | ⟨hc, h⟩
  · rw [List.append_assoc]
    exact .number hw ho (hn.next hc)
  · obtain ⟨ts', hw', hd⟩ := hn.delivered hw ho (NumberPart.complete_of_next hc)
    exact follows_stepBetween hw' hd h

theorem follows_stepString {part : StringPart} {front : List Char} (hw : Writes cs ts)
    (ha : Awaits frames purpose ts) (hq : Quoted part front seen.reverse)
    (h : stepString frames part seen purpose c = .ok s) :
    Follows s (cs ++ '"' :: front ++ [c]) := by
  rw [List.append_assoc]
  rcases stepString_cases h with ⟨rfl, rfl, he⟩ | ⟨hc, part', seen', hs, rfl⟩
  · cases hq with
    | plain hl =>
    have hs : (String.ofList seen.reverse).toList = seen.reverse := String.toList_ofList
    rw [← hs] at hl
    have hw' := hw.append (.string hl)
    cases ha with
    | value ho =>
      cases he
      exact .between hw' (printed_deliver ho (.string (String.ofList seen.reverse)))
    | key members hm ho =>
      cases he
      exact .between hw' (.colon _ (.key members hm ho))
    | numeral ho =>
      obtain ⟨v, hv, rfl⟩ := endString_numeral he
      simp only [List.append_assoc, List.cons_append, List.nil_append] at hw'
      exact .between hw' (.numeralEnd ho hv)
  · rw [List.cons_append]
    exact .string hw ha (hq.next hc hs)

theorem follows_step (hf : Follows s cs) (h : step s c = .ok s') : Follows s' (cs ++ [c]) := by
  cases hf with
  | between hw hp =>
    obtain ⟨frames, mode⟩ := s
    have hb : step ⟨frames, mode⟩ c = stepBetween frames mode c := by
      cases hp <;> rfl
    rw [hb] at h
    exact follows_stepBetween hw hp h
  | @word frames cs front rest ts v hw ho hv ht hm hne =>
    cases rest with
    | nil => contradiction
    | cons r rest =>
      obtain ⟨rfl, hnext⟩ := stepWord_cases h
      rw [List.append_cons] at ht hm
      rw [List.append_assoc]
      rcases hnext with ⟨rfl, rfl⟩ | ⟨hr, rfl⟩
      · rw [List.append_nil] at ht hm
        have hd := printed_deliver ho v
        rw [hv, ht] at hd
        exact .between (hw.fixed hm) hd
      · exact .word hw ho hv ht hm hr
  | number hw ho hn => exact follows_stepNumber hw ho hn h
  | string hw ha hq => exact follows_stepString hw ha hq h
  | misfit frames m cs =>
    obtain ⟨m', rfl⟩ := stepMisfit_cases h
    exact .misfit frames m' _

theorem follows_reads (hf : Follows s cs) (h : Reads s ds s') : Follows s' (cs ++ ds) := by
  induction ds generalizing s cs with
  | nil =>
    rw [h.of_nil, List.append_nil]
    exact hf
  | cons c ds ih =>
    obtain ⟨s₁, h₁, h₂⟩ := h.of_cons
    have hr := ih (follows_step hf h₁) h₂
    rwa [List.append_assoc] at hr

theorem writes_of_finish (hf : Follows s cs) (h : finish s = .ok v) :
    ∃ u, v = decoded u ∧ Writes cs u.tokens := by
  have hend : ∀ {s cs ts}, Writes cs ts → Printed s ts → finishBetween s.mode = .ok v →
      ∃ u, v = decoded u ∧ Writes cs u.tokens := by
    intro s cs ts hw hp h
    obtain ⟨frames, mode⟩ := s
    obtain rfl : mode = .ended v := finishBetween_eq_ok_iff.1 h
    cases hp with
    | ended u => exact ⟨u, rfl, hw⟩
  cases hf with
  | between hw hp =>
    refine hend hw hp ?_
    cases hp <;> exact h
  | word | string => cases h
  | misfit frames m =>
    cases m <;> cases h
  | number hw ho hn =>
    simp only [finish] at h
    split at h
    · next hp =>
      obtain ⟨ts', hw', hd⟩ := hn.delivered hw ho hp
      exact hend hw' hd h
    · cases h

/-- A text that is read spells the tokens of a document, and what is read is the decoded document. -/
theorem writes_of_parse {text : String} (h : parse text = .ok v) :
    ∃ u, v = decoded u ∧ Writes text.toList u.tokens := by
  obtain ⟨s, hr, hf⟩ := parse_eq_ok_iff.1 h
  have hstart : Follows .start [] := .between .nil (.value .nil)
  exact writes_of_finish (follows_reads hstart hr) hf

end Storefront.Json
