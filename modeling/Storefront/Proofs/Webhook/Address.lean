import Mathlib.Data.Nat.Digits.Defs
import Storefront.Proofs.Number.Digits
import Storefront.Proofs.Outcome
import Storefront.Proofs.Text.Basic
import Storefront.Webhook.Address

namespace Storefront.Webhook.Address

section Digits

theorem ofDigits_eq (base : Nat) (digits : List Nat) :
    ofDigits base digits = Nat.ofDigits base digits.reverse := by
  rw [Nat.ofDigits_eq_foldr, List.foldr_reverse, ofDigits]
  refine congrFun (congrFun (congrArg _ ?_) 0) digits
  funext n d
  rw [Nat.add_comm, Nat.mul_comm, Nat.cast_id]

theorem ofDigits_lt {base : Nat} (hb : 1 < base) {digits : List Nat} (h : ∀ d ∈ digits, d < base) :
    ofDigits base digits < base ^ digits.length := by
  rw [ofDigits_eq, ← List.length_reverse]
  exact Nat.ofDigits_lt_base_pow_length hb fun d hd ↦ h d (List.mem_reverse.1 hd)

theorem ofDigits_inj {base : Nat} (hb : 1 < base) {digits others : List Nat}
    (hl : digits.length = others.length) (h : ∀ d ∈ digits, d < base)
    (h' : ∀ d ∈ others, d < base) :
    ofDigits base digits = ofDigits base others ↔ digits = others := by
  refine ⟨fun he ↦ List.reverse_injective ?_, fun he ↦ he ▸ rfl⟩
  rw [ofDigits_eq, ofDigits_eq] at he
  exact Nat.ofDigits_inj_of_len_eq hb (by simpa using hl) (fun d hd ↦ h d (List.mem_reverse.1 hd))
    (fun d hd ↦ h' d (List.mem_reverse.1 hd)) he

end Digits

section Quads

theorem part?_eq_some_iff {cs : List Char} {n : Nat} :
    part? cs = some n ↔ n < 256 ∧ cs = Nat.toDigits 10 n := by
  constructor
  · intro h
    rw [part?] at h
    split at h
    · cases h
    · next hc =>
      simp only [Bool.or_eq_true, Bool.and_eq_true, decide_eq_true_eq, Bool.not_eq_true',
        List.isEmpty_iff, not_or, not_and, Bool.not_eq_false, List.all_eq_true, not_not] at hc
      obtain ⟨⟨⟨hne, -⟩, hd⟩, hz⟩ := hc
      obtain ⟨hn, he⟩ := Option.ite_none_right_eq_some.1 h
      cases he
      exact ⟨hn, (Number.toDigits_ofDigitChars hd hne hz).symm⟩
  · rintro ⟨hn, rfl⟩
    have hl : (Nat.toDigits 10 n).length ≤ 3 :=
      (Nat.length_toDigits_le_iff (by decide) (by decide)).2 (by omega)
    have hd : (Nat.toDigits 10 n).all Char.isDigit :=
      List.all_eq_true.2 fun c ↦ Nat.isDigit_of_mem_toDigits (by decide) (by decide)
    have hz : (Nat.toDigits 10 n).head? = some '0' → Nat.toDigits 10 n = ['0'] := by
      intro h
      rw [Number.eq_zero_of_head?_toDigits h]
      rfl
    have hne : (Nat.toDigits 10 n).isEmpty = false := by simp
    rw [part?, if_neg]
    · simp only [Nat.ofDigitChars_ten_toDigits, hn, if_true]
    · simp only [hne, hd, Nat.not_lt.2 hl]
      simpa using hz

structure Quad where
  a : Fin 256
  b : Fin 256
  c : Fin 256
  d : Fin 256
  deriving DecidableEq

namespace Quad

def chars (q : Quad) : List Char :=
  Nat.toDigits 10 q.a ++ '.' :: (Nat.toDigits 10 q.b ++ '.' ::
    (Nat.toDigits 10 q.c ++ '.' :: Nat.toDigits 10 q.d))

def parts (q : Quad) : List Nat :=
  [q.a, q.b, q.c, q.d]

def groups (q : Quad) : List Nat :=
  [q.a * 256 + q.b, q.c * 256 + q.d]

end Quad

theorem dot_not_mem_toDigits (n : Nat) : '.' ∉ Nat.toDigits 10 n := by
  intro h
  exact absurd (Nat.isDigit_of_mem_toDigits (by decide) (by decide) h) (by decide)

theorem quad?_eq_some_iff {cs : List Char} {parts : List Nat} :
    quad? cs = some parts ↔ ∃ q : Quad, cs = q.chars ∧ parts = q.parts := by
  constructor
  · intro h
    obtain ⟨hl, h⟩ := Option.ite_none_right_eq_some.1 h
    obtain ⟨p₁, p₂, p₃, p₄, hp₁⟩ := List.length_eq_four.1 hl
    rw [hp₁, mapM_eq_some_iff] at h
    obtain _ | ⟨h₁, _ | ⟨h₂, _ | ⟨h₃, _ | ⟨h₄, _ | _⟩⟩⟩⟩ := h
    obtain ⟨-, rest₁, rfl, hp₂⟩ := Text.pieces_eq_cons_cons_iff.1 hp₁
    obtain ⟨-, rest₂, rfl, hp₃⟩ := Text.pieces_eq_cons_cons_iff.1 hp₂
    obtain ⟨-, rest₃, rfl, hp₄⟩ := Text.pieces_eq_cons_cons_iff.1 hp₃
    obtain ⟨-, rfl⟩ := Text.pieces_eq_singleton_iff.1 hp₄
    obtain ⟨ha, rfl⟩ := part?_eq_some_iff.1 h₁
    obtain ⟨hb, rfl⟩ := part?_eq_some_iff.1 h₂
    obtain ⟨hc, rfl⟩ := part?_eq_some_iff.1 h₃
    obtain ⟨hd, rfl⟩ := part?_eq_some_iff.1 h₄
    exact ⟨⟨⟨_, ha⟩, ⟨_, hb⟩, ⟨_, hc⟩, ⟨_, hd⟩⟩, rfl, rfl⟩
  · rintro ⟨q, rfl, rfl⟩
    have hpieces : Text.pieces '.' q.chars = [Nat.toDigits 10 q.a, Nat.toDigits 10 q.b,
        Nat.toDigits 10 q.c, Nat.toDigits 10 q.d] := by
      rw [Quad.chars, Text.pieces_append (dot_not_mem_toDigits _),
        Text.pieces_append (dot_not_mem_toDigits _), Text.pieces_append (dot_not_mem_toDigits _),
        Text.pieces_of_not_mem (dot_not_mem_toDigits _)]
    have hpart (n : Fin 256) : part? (Nat.toDigits 10 n) = some n.val :=
      part?_eq_some_iff.2 ⟨n.isLt, rfl⟩
    simp only [quad?, hpieces]
    refine (if_pos rfl).trans (mapM_eq_some_iff.2 ?_)
    exact .cons (hpart _) (.cons (hpart _) (.cons (hpart _) (.cons (hpart _) .nil)))

end Quads

def IsGroup (cs : List Char) (g : Nat) : Prop :=
  1 ≤ cs.length ∧ cs.length ≤ 4 ∧
    ∃ digits, List.Forall₂ Text.IsHexDigit cs digits ∧ g = ofDigits 16 digits

/-- Groups between single colons. Where it is allowed, a quad may stand for the last two. -/
inductive Groups : Bool → List Char → List Nat → Prop
  | group {quads : Bool} {cs : List Char} {g : Nat} : IsGroup cs g → Groups quads cs [g]
  | quad (q : Quad) : Groups true q.chars q.groups
  | cons {quads : Bool} {cs rest : List Char} {g : Nat} {gs : List Nat} :
      IsGroup cs g → Groups quads rest gs → Groups quads (cs ++ ':' :: rest) (g :: gs)

inductive Side (quads : Bool) : List Char → List Nat → Prop
  | nothing : Side quads [] []
  | groups {cs : List Char} {gs : List Nat} : Groups quads cs gs → Side quads cs gs

/-- The text of a long address with its eight groups. A double colon is a gap that stands for at
least one group of zero; a quad comes last. -/
inductive IsLong : List Char → List Nat → Prop
  | full {cs : List Char} {gs : List Nat} : Groups true cs gs → gs.length = 8 → IsLong cs gs
  | gap {front back : List Char} {fs bs : List Nat} : Side false front fs → Side true back bs →
      fs.length + bs.length < 8 →
      IsLong (front ++ [':', ':'] ++ back)
        (fs ++ List.replicate (8 - (fs.length + bs.length)) 0 ++ bs)

variable {cs front back : List Char} {g : Nat} {gs fs bs : List Nat} {quads : Bool}

theorem group?_eq_some_iff : group? cs = some g ↔ IsGroup cs g := by
  constructor
  · intro h
    obtain ⟨hl, h⟩ := Option.ite_none_left_eq_some.1 h
    obtain ⟨digits, hdigits, rfl⟩ := Option.map_eq_some_iff.1 h
    simp only [Bool.or_eq_true, List.isEmpty_iff, decide_eq_true_eq, not_or, Nat.not_lt] at hl
    exact ⟨List.length_pos_iff.2 hl.1, hl.2, digits,
      (mapM_eq_some_iff.1 hdigits).imp fun _ _ ↦ Text.hexValue?_eq_some_iff.1, rfl⟩
  · rintro ⟨hl, hl', digits, hdigits, rfl⟩
    have hread := mapM_eq_some_iff.2 (hdigits.imp fun _ _ ↦ Text.hexValue?_eq_some_iff.2)
    refine Option.ite_none_left_eq_some.2 ⟨?_, Option.map_eq_some_iff.2 ⟨digits, hread, rfl⟩⟩
    simpa [List.length_pos_iff.1 hl] using hl'

theorem IsGroup.isSome_hexValue? (h : IsGroup cs g) : ∀ c ∈ cs, (Text.hexValue? c).isSome := by
  obtain ⟨-, -, digits, hdigits, -⟩ := h
  have hboth : List.Forall₂ (fun c d ↦ (Text.hexValue? c).isSome ∧ Text.IsHexDigit c d) cs digits :=
    hdigits.imp fun c d hd ↦ ⟨by rw [Text.hexValue?_eq_some_iff.2 hd]; rfl, hd⟩
  exact ((List.forall₂_and_left _ _).1 hboth).1

theorem IsGroup.not_mem {c : Char} (h : IsGroup cs g) (hc : Text.hexValue? c = none) : c ∉ cs := by
  intro hmem
  have hsome := h.isSome_hexValue? c hmem
  rw [hc] at hsome
  cases hsome

theorem IsGroup.ne_nil (h : IsGroup cs g) : cs ≠ [] :=
  List.length_pos_iff.1 h.1

theorem IsGroup.lt (h : IsGroup cs g) : g < 65536 := by
  obtain ⟨-, hl, digits, hdigits, rfl⟩ := h
  have hboth : List.Forall₂ (fun d c ↦ d < 16 ∧ Text.IsHexDigit c d) digits cs :=
    hdigits.flip.imp fun d c hd ↦ ⟨hd.1, hd⟩
  have hlt := ofDigits_lt (show 1 < 16 by decide) ((List.forall₂_and_left _ _).1 hboth).1
  rw [← hdigits.length_eq] at hlt
  exact Nat.lt_of_lt_of_le hlt (Nat.pow_le_pow_right (by decide) hl)

theorem Quad.dot_mem (q : Quad) : '.' ∈ q.chars := by
  simp [Quad.chars]

theorem Quad.isDigit_of_mem (q : Quad) {c : Char} (h : c ∈ q.chars) : c = '.' ∨ c.isDigit := by
  have hd (n : Nat) : c ∈ Nat.toDigits 10 n → c = '.' ∨ c.isDigit :=
    fun hc ↦ .inr (Nat.isDigit_of_mem_toDigits (by decide) (by decide) hc)
  simp only [Quad.chars, List.mem_append, List.mem_cons] at h
  rcases h with h | h | h | h | h | h | h
  · exact hd _ h
  · exact .inl h
  · exact hd _ h
  · exact .inl h
  · exact hd _ h
  · exact .inl h
  · exact hd _ h

theorem Quad.colon_not_mem (q : Quad) : ':' ∉ q.chars := by
  intro h
  rcases q.isDigit_of_mem h with h | h <;> exact absurd h (by decide)

theorem Quad.chars_ne_nil (q : Quad) : q.chars ≠ [] :=
  List.ne_nil_of_mem q.dot_mem

theorem Groups.ne_nil (h : Groups quads cs gs) : cs ≠ [] := by
  cases h with
  | group hg => exact hg.ne_nil
  | quad q => exact q.chars_ne_nil
  | cons => simp

def groupsReader : Bool → List (List Char) → Option (List Nat)
  | true => groups?
  | false => List.mapM group?

theorem groupsReader_singleton : groupsReader quads [cs] = some gs ↔
    (∃ g, IsGroup cs g ∧ [g] = gs) ∨ quads ∧ ∃ q : Quad, cs = q.chars ∧ q.groups = gs := by
  cases quads with
  | false =>
    simp [groupsReader, Option.bind_eq_some_iff, group?_eq_some_iff]
  | true =>
    simp only [groupsReader, groups?]
    cases hg : group? cs with
    | some g =>
      have hquad (q : Quad) : cs ≠ q.chars := by
        rintro rfl
        exact (group?_eq_some_iff.1 hg).not_mem (by decide) q.dot_mem
      simp [hquad, ← group?_eq_some_iff, hg]
    | none =>
      simp only [← group?_eq_some_iff, hg, reduceCtorEq, false_and, exists_false, false_or,
        true_and]
      constructor
      · intro h
        split at h
        · next a b c d hq =>
          obtain ⟨q, hcs, hparts⟩ := quad?_eq_some_iff.1 hq
          cases hparts
          exact ⟨q, hcs, Option.some.inj h⟩
        · cases h
      · rintro ⟨q, rfl, rfl⟩
        rw [quad?_eq_some_iff.2 ⟨q, rfl, rfl⟩]
        rfl

theorem groupsReader_cons_cons {piece next : List Char} {more : List (List Char)} :
    groupsReader quads (piece :: next :: more) =
      (group? piece).bind fun g ↦ (groupsReader quads (next :: more)).map (g :: ·) := by
  cases quads with
  | false =>
    rw [groupsReader, List.mapM_cons]
    cases group? piece with
    | none => rfl
    | some g => cases List.mapM group? (next :: more) <;> rfl
  | true =>
    rw [groupsReader, groups?]
    · cases group? piece with
      | none => rfl
      | some g => cases groups? (next :: more) <;> rfl
    · exact List.cons_ne_nil _ _

theorem groupsReader_pieces :
    groupsReader quads (Text.pieces ':' cs) = some gs ↔ Groups quads cs gs := by
  constructor
  · intro h
    generalize hp : Text.pieces ':' cs = ps at h
    induction ps generalizing cs gs with
    | nil => exact absurd hp (Text.pieces_ne_nil cs)
    | cons piece more ih =>
      cases more with
      | nil =>
        obtain ⟨-, rfl⟩ := Text.pieces_eq_singleton_iff.1 hp
        rcases groupsReader_singleton.1 h with ⟨g, hg, rfl⟩ | ⟨rfl, q, rfl, rfl⟩
        · exact .group hg
        · exact .quad q
      | cons next more =>
        obtain ⟨-, rest, rfl, hrest⟩ := Text.pieces_eq_cons_cons_iff.1 hp
        rw [groupsReader_cons_cons] at h
        obtain ⟨g, hg, h⟩ := Option.bind_eq_some_iff.1 h
        obtain ⟨gs', hmore, rfl⟩ := Option.map_eq_some_iff.1 h
        exact .cons (group?_eq_some_iff.1 hg) (ih hrest hmore)
  · intro h
    induction h with
    | group hg =>
      rw [Text.pieces_of_not_mem (hg.not_mem (by decide))]
      exact groupsReader_singleton.2 (.inl ⟨_, hg, rfl⟩)
    | quad q =>
      rw [Text.pieces_of_not_mem q.colon_not_mem]
      exact groupsReader_singleton.2 (.inr ⟨rfl, q, rfl, rfl⟩)
    | @cons quads cs rest g gs hg hrest ih =>
      rw [Text.pieces_append (hg.not_mem (by decide))]
      have hne : Text.pieces ':' rest ≠ [] := Text.pieces_ne_nil rest
      obtain ⟨next, more, hp⟩ := List.exists_cons_of_ne_nil hne
      rw [hp] at ih ⊢
      rw [groupsReader_cons_cons, group?_eq_some_iff.2 hg, Option.bind_some, ih]
      rfl

theorem groupsReader_side : groupsReader quads (side cs) = some gs ↔ Side quads cs gs := by
  cases cs with
  | nil =>
    have hnil : groupsReader quads (side []) = some [] := by cases quads <;> rfl
    rw [hnil]
    constructor
    · rintro ⟨⟩
      exact .nothing
    · intro h
      generalize hcs : ([] : List Char) = cs at h
      cases h with
      | nothing => rfl
      | groups h => exact absurd hcs.symm h.ne_nil
  | cons c cs =>
    rw [side, List.isEmpty_cons, if_neg Bool.false_ne_true, groupsReader_pieces]
    constructor
    · exact .groups
    · rintro (_ | h)
      exact h

theorem Groups.exists_cons (h : Groups quads cs gs) : ∃ c rest, cs = c :: rest ∧ c ≠ ':' := by
  have hfirst {cs : List Char} (hne : cs ≠ []) (hc : ':' ∉ cs) :
      ∃ c rest, cs = c :: rest ∧ c ≠ ':' := by
    obtain ⟨c, rest, rfl⟩ := List.exists_cons_of_ne_nil hne
    exact ⟨c, rest, rfl, fun he ↦ hc (he ▸ List.mem_cons_self)⟩
  cases h with
  | group hg => exact hfirst hg.ne_nil (hg.not_mem rfl)
  | quad q => exact hfirst q.chars_ne_nil q.colon_not_mem
  | cons hg hrest =>
    obtain ⟨c, rest, rfl, hc⟩ := hfirst hg.ne_nil (hg.not_mem rfl)
    exact ⟨c, _, rfl, hc⟩

/-- No two colons stand side by side in groups, nor does a colon end them. -/
theorem Groups.skips (h : Groups quads cs gs) : Text.Skips [':', ':'] cs := by
  induction h with
  | group hg => exact Text.skips_of_not_mem (hg.not_mem rfl)
  | quad q => exact Text.skips_of_not_mem q.colon_not_mem
  | cons hg hrest ih =>
    obtain ⟨c, rest, rfl, hc⟩ := hrest.exists_cons
    exact (Text.skips_of_not_mem (hg.not_mem rfl)).append (ih.cons hc)

theorem Side.skips (h : Side quads cs gs) : Text.Skips [':', ':'] cs := by
  cases h with
  | nothing => exact Text.skips_nil
  | groups h => exact h.skips

theorem octet?_eq_some_iff : octet? cs = some gs ↔ IsLong cs gs := by
  constructor
  · intro h
    rw [octet?] at h
    split at h
    · next front back hcut =>
      obtain rfl := Text.eq_append_of_cut? hcut
      obtain ⟨fs, hf, h⟩ := Option.bind_eq_some_iff.1 h
      obtain ⟨bs, hb, h⟩ := Option.bind_eq_some_iff.1 h
      obtain ⟨hl, h⟩ := Option.ite_none_right_eq_some.1 h
      cases h
      exact .gap ((@groupsReader_side _ _ false).1 hf) ((@groupsReader_side _ _ true).1 hb) hl
    · obtain ⟨groups, hg, h⟩ := Option.bind_eq_some_iff.1 h
      obtain ⟨hl, h⟩ := Option.ite_none_right_eq_some.1 h
      cases h
      exact .full ((@groupsReader_pieces _ _ true).1 hg) hl
  · intro h
    cases h with
    | full hg hl =>
      have hread : groups? (Text.pieces ':' cs) = some gs := (@groupsReader_pieces _ _ true).2 hg
      rw [octet?, hg.skips.cut?_eq_none]
      simp [hread, hl]
    | @gap front back fs bs hf hb hl =>
      have hfront : (side front).mapM group? = some fs := (@groupsReader_side _ _ false).2 hf
      have hback : groups? (side back) = some bs := (@groupsReader_side _ _ true).2 hb
      rw [octet?, hf.skips.cut?_append (List.cons_ne_nil _ _)]
      simp [hfront, hback, hl]

theorem Groups.lt (h : Groups quads cs gs) : ∀ g ∈ gs, g < 65536 := by
  induction h with
  | group hg => simpa using hg.lt
  | quad q =>
    have := q.a.isLt; have := q.b.isLt; have := q.c.isLt; have := q.d.isLt
    simp only [Quad.groups, List.forall_mem_cons]
    exact ⟨by omega, by omega, nofun⟩
  | cons hg hrest ih => exact List.forall_mem_cons.2 ⟨hg.lt, ih⟩

theorem Side.lt (h : Side quads cs gs) : ∀ g ∈ gs, g < 65536 := by
  cases h with
  | nothing => exact nofun
  | groups h => exact h.lt

theorem IsLong.length_eq (h : IsLong cs gs) : gs.length = 8 := by
  cases h with
  | full hg hl => exact hl
  | gap hf hb hl =>
    simp only [List.length_append, List.length_replicate]
    omega

theorem IsLong.lt (h : IsLong cs gs) : ∀ g ∈ gs, g < 65536 := by
  cases h with
  | full hg hl => exact hg.lt
  | gap hf hb hl =>
    refine List.forall_mem_append.2 ⟨List.forall_mem_append.2 ⟨hf.lt, ?_⟩, hb.lt⟩
    intro g hg
    rw [List.eq_of_mem_replicate hg]
    decide

theorem IsLong.value_eq_iff (h : IsLong cs gs) {others : List Nat} (hl : others.length = 8)
    (ho : ∀ g ∈ others, g < 65536) : ofDigits 65536 gs = ofDigits 65536 others ↔ gs = others :=
  ofDigits_inj (by decide) (h.length_eq.trans hl.symm) h.lt ho

/-- A quad and the text of a long address are told apart by their colons. -/
theorem IsLong.colon_mem (h : IsLong cs gs) : ':' ∈ cs := by
  cases h with
  | full hg hl =>
    cases hg with
    | group | quad => simp [Quad.groups] at hl
    | cons => simp
  | gap => simp

theorem read?_eq_some_iff {a : Address} : read? cs = some a ↔
    (∃ q : Quad, cs = q.chars ∧ a = short (BitVec.ofNat 32 (ofDigits 256 q.parts))) ∨
      ∃ gs, IsLong cs gs ∧ a = long (BitVec.ofNat 128 (ofDigits 65536 gs)) := by
  constructor
  · intro h
    rw [read?] at h
    split at h
    · next parts hparts =>
      obtain ⟨q, rfl, rfl⟩ := quad?_eq_some_iff.1 hparts
      exact .inl ⟨q, rfl, (Option.some.inj h).symm⟩
    · obtain ⟨gs, hgs, rfl⟩ := Option.map_eq_some_iff.1 h
      exact .inr ⟨gs, octet?_eq_some_iff.1 hgs, rfl⟩
  · rintro (⟨q, rfl, rfl⟩ | ⟨gs, hlong, rfl⟩)
    · rw [read?, quad?_eq_some_iff.2 ⟨q, rfl, rfl⟩]
    · have hnone : quad? cs = none := by
        refine Option.eq_none_iff_forall_ne_some.2 fun parts hparts ↦ ?_
        obtain ⟨q, rfl, -⟩ := quad?_eq_some_iff.1 hparts
        exact q.colon_not_mem hlong.colon_mem
      rw [read?, hnone, octet?_eq_some_iff.2 hlong]
      rfl

def IsMark (c : Char) : Prop :=
  (Text.hexValue? c).isSome ∨ c = ':' ∨ c = '.'

theorem IsGroup.isMark (h : IsGroup cs g) : ∀ c ∈ cs, IsMark c :=
  fun c hc ↦ .inl (h.isSome_hexValue? c hc)

theorem Quad.isMark (q : Quad) : ∀ c ∈ q.chars, IsMark c := by
  intro c hc
  rcases q.isDigit_of_mem hc with rfl | hd
  · exact .inr (.inr rfl)
  · have hall : ∀ d < 10, (Text.hexValue? (Nat.digitChar d)).isSome := by decide
    obtain ⟨d, hlt, rfl⟩ := Number.exists_digitChar hd
    exact .inl (hall d hlt)

theorem Groups.isMark (h : Groups quads cs gs) : ∀ c ∈ cs, IsMark c := by
  induction h with
  | group hg => exact hg.isMark
  | quad q => exact q.isMark
  | cons hg hrest ih =>
    exact List.forall_mem_append.2 ⟨hg.isMark, List.forall_mem_cons.2 ⟨.inr (.inl rfl), ih⟩⟩

theorem Side.isMark (h : Side quads cs gs) : ∀ c ∈ cs, IsMark c := by
  cases h with
  | nothing => exact nofun
  | groups h => exact h.isMark

theorem IsLong.isMark (h : IsLong cs gs) : ∀ c ∈ cs, IsMark c := by
  cases h with
  | full hg hl => exact hg.isMark
  | gap hf hb hl =>
    have hcolons : ∀ c ∈ [':', ':'], IsMark c := by
      intro c hc
      exact .inr (.inl (by simpa using hc))
    exact List.forall_mem_append.2 ⟨List.forall_mem_append.2 ⟨hf.isMark, hcolons⟩, hb.isMark⟩

def DotsLast (cs : List Char) : Prop :=
  cs.Pairwise fun c d ↦ c = '.' → d ≠ ':'

theorem dotsLast_of_colon_not_mem (h : ':' ∉ cs) : DotsLast cs :=
  List.pairwise_of_forall_mem_list fun _ _ _ hd _ he ↦ h (he ▸ hd)

theorem DotsLast.append (hf : '.' ∉ front) (hb : DotsLast back) : DotsLast (front ++ back) := by
  refine List.pairwise_append.2 ⟨?_, hb, ?_⟩
  · exact List.pairwise_of_forall_mem_list fun c hc _ _ he ↦ absurd (he ▸ hc) hf
  · exact fun c hc _ _ he ↦ absurd (he ▸ hc) hf

theorem Groups.dot_not_mem (h : Groups false cs gs) : '.' ∉ cs := by
  generalize hq : false = quads at h
  induction h with
  | group hg => exact hg.not_mem rfl
  | quad => cases hq
  | cons hg hrest ih =>
    have hrest := ih hq
    have hgroup := hg.not_mem (c := '.') rfl
    simp [hgroup, hrest]

theorem Groups.dotsLast (h : Groups quads cs gs) : DotsLast cs := by
  induction h with
  | group hg => exact dotsLast_of_colon_not_mem (hg.not_mem rfl)
  | quad q => exact dotsLast_of_colon_not_mem q.colon_not_mem
  | cons hg hrest ih => exact .append (hg.not_mem rfl) (.append (show '.' ∉ [':'] by decide) ih)

theorem IsLong.dotsLast (h : IsLong cs gs) : DotsLast cs := by
  cases h with
  | full hg hl => exact hg.dotsLast
  | @gap front back fs bs hf hb hl =>
    have hfront : '.' ∉ front := by
      cases hf with
      | nothing => exact List.not_mem_nil
      | groups h => exact h.dot_not_mem
    have hback : DotsLast back := by
      cases hb with
      | nothing => exact .nil
      | groups h => exact h.dotsLast
    rw [List.append_assoc]
    exact .append hfront (.append (by decide) hback)

end Storefront.Webhook.Address
