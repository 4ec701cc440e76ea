import Storefront.Proofs.Json.Spelling
import Storefront.Proofs.Text.Basic

namespace Storefront.Json

/-- A text is made of the tokens, with any blanks before, between and after them. -/
inductive Spaced : List (List Char) → List Char → Prop
  | nil {blanks : List Char} : (∀ c ∈ blanks, isSpace c) → Spaced [] blanks
  | cons {blanks token rest : List Char} {tokens : List (List Char)} : (∀ c ∈ blanks, isSpace c) →
      Spaced tokens rest → Spaced (token :: tokens) (blanks ++ (token ++ rest))

namespace Spaced

variable {token cs : List Char} {ts us : List (List Char)}

theorem flatten (ts : List (List Char)) : Spaced ts ts.flatten := by
  induction ts with
  | nil => exact .nil nofun
  | cons t ts ih => exact @Spaced.cons [] t ts.flatten ts nofun ih

theorem of_nil (h : Spaced [] cs) : ∀ c ∈ cs, isSpace c := by
  cases h with
  | nil hb => exact hb

theorem of_cons (h : Spaced (token :: ts) cs) :
    ∃ blanks rest, cs = blanks ++ (token ++ rest) ∧ (∀ c ∈ blanks, isSpace c) ∧
      Spaced ts rest := by
  cases h with
  | cons hb hr => exact ⟨_, _, rfl, hb, hr⟩

theorem of_append (h : Spaced (ts ++ us) cs) :
    ∃ front back, cs = front ++ back ∧ Spaced ts front ∧ Spaced us back := by
  induction ts generalizing cs with
  | nil => exact ⟨[], cs, rfl, .nil nofun, h⟩
  | cons t ts ih =>
    obtain ⟨blanks, rest, rfl, hb, hr⟩ := h.of_cons
    obtain ⟨front, back, rfl, hf, hbk⟩ := ih hr
    refine ⟨blanks ++ (t ++ front), back, ?_, .cons hb hf, hbk⟩
    simp only [List.append_assoc]

theorem of_blanks {blanks : List Char} (hb : ∀ c ∈ blanks, isSpace c) (h : Spaced ts cs) :
    Spaced ts (blanks ++ cs) := by
  have hall : ∀ {more}, (∀ c ∈ more, isSpace c) → ∀ c ∈ blanks ++ more, isSpace c :=
    fun hm ↦ List.forall_mem_append.2 ⟨hb, hm⟩
  cases h with
  | nil hm => exact .nil (hall hm)
  | cons hm hr =>
    rw [← List.append_assoc]
    exact .cons (hall hm) hr

theorem append {ds : List Char} (h : Spaced ts cs) (h' : Spaced us ds) :
    Spaced (ts ++ us) (cs ++ ds) := by
  induction h with
  | nil hb => exact h'.of_blanks hb
  | cons hb _ ih =>
    simp only [List.append_assoc]
    exact .cons hb ih

end Spaced

variable {s s' : State} {c : Char} {cs : List Char} {frames : List Frame} {v : Json}

def Rests (s : State) : Prop :=
  ∀ c, isSpace c → step s c = .ok s

theorem Rests.reads {blanks : List Char} (h : Rests s) (hb : ∀ c ∈ blanks, isSpace c) :
    Reads s blanks s := by
  induction blanks with
  | nil => exact .nil s
  | cons c cs ih =>
    obtain ⟨hc, hcs⟩ := List.forall_mem_cons.1 hb
    exact .cons (h c hc) (ih hcs)

theorem rests_of_between {mode : Mode}
    (h : ∀ c, step ⟨frames, mode⟩ c = stepBetween frames mode c) : Rests ⟨frames, mode⟩ := by
  intro c hc
  rw [h]
  unfold stepBetween
  exact if_pos hc

theorem step_deliver (v : Json) (frames : List Frame) (c : Char) :
    step (deliver v frames) c = stepBetween (deliver v frames).frames (deliver v frames).mode c := by
  rcases frames with _ | ⟨_ | _, rest⟩ <;> rfl

theorem rests_deliver (v : Json) (frames : List Frame) : Rests (deliver v frames) :=
  rests_of_between (step_deliver v frames)

structure Begins (s : State) (frames : List Frame) : Prop where
  rests : Rests s
  step : ∀ c, isSpace c = false → c ≠ ']' → step s c = beginValue frames c

theorem begins_value (frames : List Frame) : Begins ⟨frames, .value⟩ frames where
  rests := rests_of_between fun _ ↦ rfl
  step c hc _ := by
    change stepBetween frames .value c = _
    simp [stepBetween, hc]

theorem begins_firstItem (frames : List Frame) :
    Begins ⟨frames, .firstItem⟩ (.array [] :: frames) where
  rests := rests_of_between fun _ ↦ rfl
  step c hc hb := by
    change stepBetween frames .firstItem c = _
    simp [stepBetween, hc, hb]

theorem begins_item (frames : List Frame) (done : List Json) :
    Begins ⟨frames, .item done⟩ (.array done :: frames) where
  rests := rests_of_between fun _ ↦ rfl
  step c hc hb := by
    change stepBetween frames (.item done) c = _
    simp [stepBetween, hc, hb]

/-- The value has been read and goes into the innermost container, at once or, for a number, with
the next character. -/
inductive Delivered : Json → List Frame → State → Prop
  | done (v : Json) (frames : List Frame) : Delivered v frames (deliver v frames)
  | number {part : NumberPart} (seen : List Char) (frames : List Frame) : part.complete →
      Delivered (numberOf seen) frames ⟨frames, .number part seen⟩

def Boundary (c : Char) : Prop :=
  isSpace c ∨ c = ',' ∨ c = ']' ∨ c = '\x7d'

theorem Boundary.plain (h : Boundary c) : c.isDigit = false ∧ c ≠ '.' ∧ c ≠ 'e' ∧ c ≠ 'E' := by
  simp only [Boundary, isSpace, Bool.or_eq_true, decide_eq_true_eq, or_assoc] at h
  rcases h with rfl | rfl | rfl | rfl | rfl | rfl | rfl <;> decide

theorem NumberPart.next_of_boundary {part : NumberPart} (hp : part.complete) (hc : Boundary c) :
    part.next c = some none := by
  obtain ⟨hd, hpoint, he, hE⟩ := hc.plain
  have hf : next.afterFraction c = none := by simp [next.afterFraction, he, hE]
  have hw : next.afterWhole c = none := by simp [next.afterWhole, hpoint, hf]
  cases part with
  | zero | whole => simp [next, hd, hw]
  | fraction => simp [next, hd, hf]
  | exponent => simp [next, hd]
  | minus | point | mark | sign => cases hp

namespace Delivered

theorem step (h : Delivered v frames s) (hc : Boundary c) :
    step s c = Json.step (deliver v frames) c := by
  cases h with
  | done => rfl
  | @number part seen _ hp =>
    change stepNumber frames part seen c = _
    rw [stepNumber, NumberPart.next_of_boundary hp hc, step_deliver]

theorem blanks {blanks : List Char} (h : Delivered v frames s) (hb : ∀ c ∈ blanks, isSpace c) :
    ∃ s', Reads s blanks s' ∧ Delivered v frames s' := by
  cases blanks with
  | nil => exact ⟨s, .nil s, h⟩
  | cons c cs =>
    obtain ⟨hc, hcs⟩ := List.forall_mem_cons.1 hb
    have hstep := h.step (.inl hc)
    rw [rests_deliver v frames c hc] at hstep
    exact ⟨_, .cons hstep ((rests_deliver v frames).reads hcs), .done v frames⟩

/-- A separator or bracket after the value, with blanks before it. -/
theorem reads {blanks : List Char} (h : Delivered v frames s) (hb : ∀ c ∈ blanks, isSpace c)
    (hc : Boundary c) (hs : Json.step (deliver v frames) c = .ok s') :
    Reads s (blanks ++ [c]) s' := by
  obtain ⟨s₁, h₁, hd⟩ := h.blanks hb
  refine h₁.trans (.one ?_)
  rw [hd.step hc, hs]

theorem finish (h : Delivered v [] s) : Json.finish s = .ok v := by
  cases h with
  | done => rfl
  | number seen _ hp => simp [Json.finish, hp, deliver, finishBetween]

end Delivered

section Scalars

theorem reads_number {part : NumberPart} {seen : List Char} (hb : Begins s frames)
    (h : Spelled part seen) : Reads s seen.reverse ⟨frames, .number part seen⟩ := by
  induction h with
  | minus => exact .one (hb.step '-' rfl (by decide))
  | zero => exact .one (hb.step '0' rfl (by decide))
  | @whole c hd hz =>
    have hne : ∀ d : Char, d.isDigit = false → c ≠ d := by
      intro d hd' he
      rw [← he, hd] at hd'
      cases hd'
    have hs : isSpace c = false := by
      simp [isSpace, hne]
    refine .one ?_
    rw [hb.step c hs (hne _ rfl)]
    simp [beginValue, hne, hz, hd]
  | @more part part' c seen _ hc hw ih =>
    rw [List.reverse_cons]
    refine ih.trans (.one ?_)
    change stepNumber frames part seen c = _
    rw [stepNumber, hc, hw]

variable {part part' : StringPart} {seen seen' : List Char} {purpose : Purpose}

theorem step_string (hc : ¬ (part = .plain ∧ c = '"'))
    (h : stepStringPart part seen c = .ok (part', seen')) :
    step ⟨frames, .string part seen purpose⟩ c = .ok ⟨frames, .string part' seen' purpose⟩ := by
  change stepString frames part seen purpose c = _
  rw [stepString, if_neg hc, h]
  rfl

theorem step_hexDigit {need code n : Nat} (hn : n < 16) (hneed : 1 < need) :
    step ⟨frames, .string (.hex none need (some code)) seen purpose⟩ (Text.hexDigit n) =
      .ok ⟨frames, .string (.hex none (need - 1) (some (code * 16 + n))) seen purpose⟩ := by
  refine step_string nofun ?_
  simp [stepStringPart, Text.hexValue?_hexDigit hn, Text.utf8Size_hexDigit hn, hneed]

/-- The escape of a control character by its code. -/
theorem reads_unicode {n : Nat} (hn : n < 0x20) :
    Reads ⟨frames, .string .plain seen purpose⟩
      ['\\', 'u', '0', '0', Text.hexDigit (n / 16), Text.hexDigit (n % 16)]
      ⟨frames, .string .plain (Char.ofNat n :: seen) purpose⟩ := by
  have h₁ : n / 16 < 16 := by omega
  have h₂ : n % 16 < 16 := by omega
  refine .cons rfl (.cons rfl ?_)
  refine .cons (step_hexDigit (show 0 < 16 by decide) (by decide)) ?_
  refine .cons (step_hexDigit (show 0 < 16 by decide) (by decide)) ?_
  refine .cons (step_hexDigit h₁ (by decide)) (.one (step_string nofun ?_))
  have hcode : n / 16 * 16 + n % 16 = n := Nat.div_add_mod' n 16
  have hlow : isLowSurrogate n = false := by
    simp only [isLowSurrogate, Bool.and_eq_false_iff, decide_eq_false_iff_not]
    omega
  have hhigh : isHighSurrogate n = false := by
    simp only [isHighSurrogate, Bool.and_eq_false_iff, decide_eq_false_iff_not]
    omega
  simp [stepStringPart, Text.hexValue?_hexDigit h₂, Text.utf8Size_hexDigit h₂, hcode, endHex, hlow, hhigh]

theorem reads_shortEscape {d : Char} (hd : d ≠ 'u') (h : shortEscape? d = some c) :
    Reads ⟨frames, .string .plain seen purpose⟩ ['\\', d]
      ⟨frames, .string .plain (c :: seen) purpose⟩ := by
  have hescape : stepStringPart .escape seen d = .ok (.plain, c :: seen) := by
    rw [stepStringPart, if_neg hd, h]
  exact .cons rfl (.one (step_string nofun hescape))

theorem reads_escaped (c : Char) :
    Reads ⟨frames, .string .plain seen purpose⟩ (escaped c)
      ⟨frames, .string .plain (c :: seen) purpose⟩ := by
  have h := escape_escaped c
  generalize escaped c = glyph at h ⊢
  cases h with
  | @short letter hl hc =>
    refine reads_shortEscape ?_ hc
    rintro rfl
    exact absurd hl (by decide)
  | code hc =>
    have hr := @reads_unicode frames seen purpose c.toNat hc
    rwa [Char.ofNat_toNat] at hr
  | plain hq hs hc =>
    refine .one (step_string (fun h ↦ hq h.2) ?_)
    rw [stepStringPart, if_neg hs, if_neg (Nat.not_lt.2 hc)]

theorem reads_escapeds (cs : List Char) :
    Reads ⟨frames, .string .plain seen purpose⟩ (cs.flatMap escaped)
      ⟨frames, .string .plain (cs.reverse ++ seen) purpose⟩ := by
  induction cs generalizing seen with
  | nil => exact .nil _
  | cons c cs ih =>
    rw [List.flatMap_cons, List.reverse_cons, List.append_assoc]
    exact (reads_escaped c).trans ih

theorem reads_stringToken (t : String) (h : step s '"' = .ok ⟨frames, .string .plain [] purpose⟩)
    (he : endString frames t.toList.reverse purpose = .ok s') : Reads s (stringToken t) s' := by
  have hq : step ⟨frames, .string .plain (t.toList.reverse ++ []) purpose⟩ '"' = .ok s' := by
    rw [List.append_nil]
    exact he
  refine .cons h (.trans ?_ (.one hq))
  exact reads_escapeds t.toList

theorem endString_value (t : String) :
    endString frames t.toList.reverse .value = .ok (deliver (.string t) frames) := by
  rw [endString, List.reverse_reverse, String.ofList_toList]

theorem endString_key (t : String) (done : List (String × Json)) :
    endString frames t.toList.reverse (.key done) = .ok ⟨frames, .colon done t⟩ := by
  rw [endString, List.reverse_reverse, String.ofList_toList]

end Scalars

section Containers

/-- Where a value may begin, its tokens lead to its delivery. -/
def Arrives (n : Nat) (v : Json) : Prop :=
  ∀ {s : State} {frames : List Frame} {cs : List Char}, Begins s frames →
    frames.length + n ≤ depthLimit → Spaced v.tokens cs → ∃ s', Reads s cs s' ∧ Delivered v frames s'

theorem arrives_token {token : List Char} (hb : Begins s frames) (ht : Reads s token s')
    (hd : Delivered v frames s') (hs : Spaced [token] cs) :
    ∃ s', Reads s cs s' ∧ Delivered v frames s' := by
  obtain ⟨blanks, rest, rfl, hblanks, hr⟩ := hs.of_cons
  obtain ⟨s₁, h₁, hd₁⟩ := hd.blanks hr.of_nil
  exact ⟨s₁, (hb.rests.reads hblanks).trans (ht.trans h₁), hd₁⟩

theorem reads_items {n : Nat} {items : List Json} (ih : ∀ v ∈ items, Arrives n v)
    {done : List Json} {w : Json} (hn : frames.length + (n + 1) ≤ depthLimit)
    (hd : Delivered w (.array done :: frames) s) (hs : Spaced (itemTokens items ++ [[']']]) cs) :
    ∃ s', Reads s cs s' ∧ Delivered (.array ((w :: done).reverse ++ items)) frames s' := by
  induction items generalizing done w s cs with
  | nil =>
    obtain ⟨blanks, rest, rfl, hb, hr⟩ := hs.of_cons
    have hc : Reads s (blanks ++ [']']) (deliver (.array (w :: done).reverse) frames) :=
      hd.reads hb (.inr (.inr (.inl rfl))) rfl
    obtain ⟨s₁, h₁, hd₁⟩ := (Delivered.done (.array (w :: done).reverse) frames).blanks hr.of_nil
    refine ⟨s₁, ?_, ?_⟩
    · rw [← List.append_assoc]
      exact hc.trans h₁
    · rwa [List.append_nil]
  | cons v vs ihs =>
    obtain ⟨hv, hvs⟩ := List.forall_mem_cons.1 ih
    rw [itemTokens, List.cons_append, List.append_assoc] at hs
    obtain ⟨blanks, rest, rfl, hb, hr⟩ := hs.of_cons
    obtain ⟨front, back, rfl, hfront, hback⟩ := hr.of_append
    have hc : Reads s (blanks ++ [',']) ⟨frames, .item (w :: done)⟩ :=
      hd.reads hb (.inr (.inl rfl)) rfl
    have hl : (Frame.array (w :: done) :: frames).length + n ≤ depthLimit := by
      rw [List.length_cons]
      omega
    obtain ⟨s₁, h₁, hd₁⟩ := hv (begins_item frames (w :: done)) hl hfront
    obtain ⟨s₂, h₂, hd₂⟩ := ihs hvs hd₁ hback
    refine ⟨s₂, ?_, ?_⟩
    · rw [← List.append_assoc]
      exact hc.trans (h₁.trans h₂)
    · rwa [List.reverse_cons, List.append_assoc] at hd₂

theorem step_colon {done : List (String × Json)} {key : String}
    (hk : isMarked (done ++ [(key, v)]) = false) :
    step ⟨frames, .colon done key⟩ ':' = .ok ⟨.object done key :: frames, .value⟩ := by
  have hm : (done.isEmpty && key = numberMark) = false := by
    cases done with
    | nil => exact hk
    | cons e es => rfl
  change stepBetween frames (.colon done key) ':' = _
  simp [stepBetween, isSpace, hm]

theorem reads_key {done : List (String × Json)} {key : String}
    {ts : List (List Char)} (hk : isMarked (done ++ [(key, v)]) = false) (hrests : Rests s)
    (hq : step s '"' = .ok ⟨frames, .string .plain [] (.key done)⟩)
    (hs : Spaced (stringToken key :: [':'] :: ts) cs) :
    ∃ front back, cs = front ++ back ∧ Reads s front ⟨.object done key :: frames, .value⟩ ∧
      Spaced ts back := by
  obtain ⟨blanks, _, rfl, hb, hr⟩ := hs.of_cons
  obtain ⟨blanks', back, rfl, hb', hr'⟩ := hr.of_cons
  have hkey := reads_stringToken key hq (endString_key key done)
  have hcolon : Rests ⟨frames, .colon done key⟩ := rests_of_between fun _ ↦ rfl
  refine ⟨blanks ++ (stringToken key ++ (blanks' ++ [':'])), back, ?_, ?_, hr'⟩
  · simp only [List.append_assoc]
  · exact (hrests.reads hb).trans (hkey.trans ((hcolon.reads hb').trans (.one (step_colon hk))))

theorem reads_members {n : Nat} {members : List (String × Json)}
    (ih : ∀ e ∈ members, Arrives n e.2) {done : List (String × Json)} {key : String} {w : Json}
    (hn : frames.length + (n + 1) ≤ depthLimit)
    (hk : (Entries.keys (done ++ (key, w) :: members)).Nodup)
    (hm : isMarked (done ++ [(key, w)]) = false)
    (hd : Delivered w (.object done key :: frames) s)
    (hs : Spaced (memberTokens members ++ [['\x7d']]) cs) :
    ∃ s', Reads s cs s' ∧ Delivered (.object (done ++ (key, w) :: members)) frames s' := by
  induction members generalizing done key w s cs with
  | nil =>
    obtain ⟨blanks, rest, rfl, hb, hr⟩ := hs.of_cons
    have hc : Reads s (blanks ++ ['\x7d']) (deliver (.object (done ++ [(key, w)])) frames) := by
      rw [← Entries.put_of_nodup hk]
      exact hd.reads hb (.inr (.inr (.inr rfl))) rfl
    obtain ⟨s₁, h₁, hd₁⟩ := (Delivered.done (.object (done ++ [(key, w)])) frames).blanks hr.of_nil
    refine ⟨s₁, ?_, hd₁⟩
    rw [← List.append_assoc]
    exact hc.trans h₁
  | cons e es ihs =>
    obtain ⟨he, hes⟩ := List.forall_mem_cons.1 ih
    obtain ⟨next, v⟩ := e
    rw [memberTokens, List.cons_append, List.cons_append, List.cons_append,
      List.append_assoc] at hs
    obtain ⟨blanks, rest, rfl, hb, hr⟩ := hs.of_cons
    have hc : Reads s (blanks ++ [',']) ⟨frames, .key (done ++ [(key, w)])⟩ := by
      rw [← Entries.put_of_nodup hk]
      exact hd.reads hb (.inr (.inl rfl)) rfl
    have hrests : Rests ⟨frames, .key (done ++ [(key, w)])⟩ := rests_of_between fun _ ↦ rfl
    have hnext : isMarked (done ++ [(key, w)] ++ [(next, v)]) = false := by
      rw [isMarked_append (by simp), hm]
    obtain ⟨front, back, rfl, hkey, hback⟩ := reads_key hnext hrests rfl hr
    obtain ⟨value, others, rfl, hvalue, hothers⟩ := hback.of_append
    have hl : (Frame.object (done ++ [(key, w)]) next :: frames).length + n ≤ depthLimit := by
      rw [List.length_cons]
      omega
    obtain ⟨s₁, h₁, hd₁⟩ := he (begins_value _) hl hvalue
    rw [List.append_cons] at hk
    obtain ⟨s₂, h₂, hd₂⟩ := ihs hes hk hnext hd₁ hothers
    refine ⟨s₂, ?_, ?_⟩
    · rw [← List.append_assoc]
      exact hc.trans (hkey.trans (h₁.trans h₂))
    · rwa [← List.append_cons] at hd₂

theorem step_openArray (hb : Begins s frames) (hl : frames.length < depthLimit) :
    step s '[' = .ok ⟨frames, .firstItem⟩ := by
  rw [hb.step '[' rfl (by decide)]
  exact if_pos hl

theorem step_openObject (hb : Begins s frames) (hl : frames.length < depthLimit) :
    step s '\x7b' = .ok ⟨frames, .firstKey⟩ := by
  rw [hb.step '\x7b' rfl (by decide)]
  exact if_pos hl

theorem arrives_array {n : Nat} {items : List Json} (ih : ∀ v ∈ items, Arrives n v) :
    Arrives (n + 1) (.array items) := by
  intro s frames cs hb hn hs
  have hopen : step s '[' = .ok ⟨frames, .firstItem⟩ := step_openArray hb (by omega)
  cases items with
  | nil =>
    obtain ⟨blanks, _, rfl, hblanks, hs⟩ := hs.of_cons
    obtain ⟨blanks', rest, rfl, hblanks', hr⟩ := hs.of_cons
    have hrests : Rests ⟨frames, .firstItem⟩ := rests_of_between fun _ ↦ rfl
    have hclose : Reads ⟨frames, .firstItem⟩ [']'] (deliver (.array []) frames) := .one rfl
    refine ⟨_, ?_, .done (.array []) frames⟩
    exact (hb.rests.reads hblanks).trans (.cons hopen ((hrests.reads hblanks').trans
      (hclose.trans ((rests_deliver (.array []) frames).reads hr.of_nil))))
  | cons v vs =>
    obtain ⟨hv, hvs⟩ := List.forall_mem_cons.1 ih
    obtain ⟨blanks, _, rfl, hblanks, hs⟩ := hs.of_cons
    obtain ⟨front, back, rfl, hfront, hback⟩ := hs.of_append
    have hl : (Frame.array [] :: frames).length + n ≤ depthLimit := by
      rw [List.length_cons]
      omega
    obtain ⟨s₁, h₁, hd₁⟩ := hv (begins_firstItem frames) hl hfront
    obtain ⟨s₂, h₂, hd₂⟩ := reads_items hvs hn hd₁ hback
    exact ⟨s₂, (hb.rests.reads hblanks).trans (.cons hopen (h₁.trans h₂)), hd₂⟩

theorem arrives_object {n : Nat} {members : List (String × Json)}
    (hk : (Entries.keys members).Nodup) (hm : isMarked members = false) (ih : ∀ e ∈ members, Arrives n e.2) :
    Arrives (n + 1) (.object members) := by
  intro s frames cs hb hn hs
  have hopen : step s '\x7b' = .ok ⟨frames, .firstKey⟩ := step_openObject hb (by omega)
  have hrests : Rests ⟨frames, .firstKey⟩ := rests_of_between fun _ ↦ rfl
  cases members with
  | nil =>
    obtain ⟨blanks, _, rfl, hblanks, hs⟩ := hs.of_cons
    obtain ⟨blanks', rest, rfl, hblanks', hr⟩ := hs.of_cons
    have hclose : Reads ⟨frames, .firstKey⟩ ['\x7d'] (deliver (.object []) frames) := .one rfl
    refine ⟨_, ?_, .done (.object []) frames⟩
    exact (hb.rests.reads hblanks).trans (.cons hopen ((hrests.reads hblanks').trans
      (hclose.trans ((rests_deliver (.object []) frames).reads hr.of_nil))))
  | cons e es =>
    obtain ⟨he, hes⟩ := List.forall_mem_cons.1 ih
    obtain ⟨key, v⟩ := e
    obtain ⟨blanks, _, rfl, hblanks, hs⟩ := hs.of_cons
    obtain ⟨front, back, rfl, hkey, hback⟩ := reads_key (v := v) hm hrests rfl hs
    obtain ⟨value, others, rfl, hvalue, hothers⟩ := hback.of_append
    have hl : (Frame.object [] key :: frames).length + n ≤ depthLimit := by
      rw [List.length_cons]
      omega
    obtain ⟨s₁, h₁, hd₁⟩ := he (begins_value _) hl hvalue
    obtain ⟨s₂, h₂, hd₂⟩ := reads_members hes hn hk hm hd₁ hothers
    exact ⟨s₂, (hb.rests.reads hblanks).trans (.cons hopen (hkey.trans (h₁.trans h₂))), hd₂⟩

/-- A readable value is read from its tokens, whatever blanks stand between them. -/
theorem arrives_of_readable {n : Nat} (h : Readable n v) : Arrives n v := by
  induction h with
  | null n =>
    intro s frames cs hb hn hs
    have ht : Reads s ['n', 'u', 'l', 'l'] (deliver .null frames) :=
      .cons (hb.step 'n' rfl (by decide)) (.cons rfl (.cons rfl (.one rfl)))
    exact arrives_token hb ht (.done _ _) hs
  | boolean n b =>
    intro s frames cs hb hn hs
    cases b with
    | true =>
      have ht : Reads s ['t', 'r', 'u', 'e'] (deliver (.boolean true) frames) :=
        .cons (hb.step 't' rfl (by decide)) (.cons rfl (.cons rfl (.one rfl)))
      exact arrives_token hb ht (.done _ _) hs
    | false =>
      have ht : Reads s ['f', 'a', 'l', 's', 'e'] (deliver (.boolean false) frames) :=
        .cons (hb.step 'f' rfl (by decide)) (.cons rfl (.cons rfl (.cons rfl (.one rfl))))
      exact arrives_token hb ht (.done _ _) hs
  | @number part seen n hp hc =>
    intro s frames cs hb hn hs
    rw [numberOf, tokens, String.toList_ofList] at hs
    exact arrives_token hb (reads_number hb hp) (.number seen frames hc) hs
  | string n t =>
    intro s frames cs hb hn hs
    have ht := reads_stringToken t (hb.step '"' rfl (by decide)) (endString_value t)
    exact arrives_token hb ht (.done _ _) hs
  | array _ ih => exact arrives_array ih
  | object hk hm _ ih => exact arrives_object hk hm ih

theorem parse_of_spaced {text r : String} (h : parse text = .ok v) (hr : Spaced v.tokens r.toList) :
    parse r = .ok v := by
  have hl : ([] : List Frame).length + depthLimit ≤ depthLimit := by simp
  obtain ⟨s, hs, hd⟩ := arrives_of_readable (readable_of_parse h) (begins_value []) hl hr
  exact parse_eq_ok_iff.2 ⟨s, hs, hd.finish⟩

end Containers

end Storefront.Json
