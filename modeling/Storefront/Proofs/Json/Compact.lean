import Mathlib.Data.List.Forall2
import Storefront.Proofs.Json.Decoded
import Storefront.Proofs.Json.Weight

namespace Storefront.Json

variable {ts us : List (List Char)} {v : Json}

def weighAll : List (List Char) → Nat
  | [] => 0
  | t :: ts => weigh t + weighAll ts

@[simp] theorem weighAll_nil : weighAll [] = 0 :=
  rfl

@[simp] theorem weighAll_cons (t : List Char) (ts : List (List Char)) :
    weighAll (t :: ts) = weigh t + weighAll ts :=
  rfl

@[simp] theorem weighAll_append (ts us : List (List Char)) :
    weighAll (ts ++ us) = weighAll ts + weighAll us := by
  induction ts with
  | nil => simp
  | cons t ts ih => rw [List.cons_append, weighAll_cons, weighAll_cons, ih, Nat.add_assoc]

theorem weigh_flatten (ts : List (List Char)) : weigh ts.flatten = weighAll ts := by
  induction ts with
  | nil => rfl
  | cons t ts ih => rw [List.flatten_cons, weigh_append, ih, weighAll_cons]

theorem lightens_tokens (h : List.Forall₂ Spells ts us) : weighAll us ≤ weighAll ts ∧
    (weighAll us = weighAll ts → ts.flatten.length ≤ us.flatten.length ∧
      (ts.flatten.length = us.flatten.length → ts = us)) := by
  induction h with
  | nil => exact ⟨Nat.le_refl _, fun _ ↦ ⟨Nat.le_refl _, fun _ ↦ rfl⟩⟩
  | cons ht _ ih =>
    obtain ⟨hle, heq⟩ := ih
    obtain ⟨hle', hlen', heq'⟩ := ht.lightens
    simp only [weighAll_cons, List.flatten_cons, List.length_append]
    refine ⟨by omega, fun hw ↦ ?_⟩
    have hl' := hlen' (by omega)
    obtain ⟨hl, ht⟩ := heq (by omega)
    refine ⟨by omega, fun hlen ↦ ?_⟩
    rw [heq' (by omega) (by omega), ht (by omega)]

def memberWeight (key : String) (v : Json) : Nat :=
  weigh (stringToken key) + weighAll v.tokens + 2

def itemsWeight : List Json → Nat
  | [] => 0
  | v :: vs => weighAll v.tokens + 1 + itemsWeight vs

def membersWeight : List (String × Json) → Nat
  | [] => 0
  | (k, v) :: es => memberWeight k v + membersWeight es

theorem weighAll_itemTokens (items : List Json) :
    weighAll (itemTokens items) = itemsWeight items := by
  have hcomma : weigh [','] = 1 := rfl
  induction items with
  | nil => rfl
  | cons v vs ih =>
    rw [itemTokens, weighAll_cons, weighAll_append, ih, hcomma, itemsWeight]
    omega

theorem weighAll_memberTokens (members : List (String × Json)) :
    weighAll (memberTokens members) = membersWeight members := by
  have hcomma : weigh [','] = 1 := rfl
  have hcolon : weigh [':'] = 1 := rfl
  induction members with
  | nil => rfl
  | cons e es ih =>
    obtain ⟨k, v⟩ := e
    rw [memberTokens, weighAll_cons, weighAll_cons, weighAll_cons, weighAll_append, ih, hcomma,
      hcolon, membersWeight, memberWeight]
    omega

/-- The first item has no comma, but there are two brackets. -/
theorem weighAll_array {items : List Json} (h : items ≠ []) :
    weighAll (array items).tokens = 1 + itemsWeight items := by
  have hopen : weigh ['['] = 1 := rfl
  have hclose : weigh [']'] = 1 := rfl
  cases items with
  | nil => contradiction
  | cons v vs =>
    rw [tokens, weighAll_cons, weighAll_append, weighAll_append, weighAll_cons, weighAll_nil,
      weighAll_itemTokens, hopen, hclose, itemsWeight]
    omega

theorem weighAll_object {members : List (String × Json)} (h : members ≠ []) :
    weighAll (object members).tokens = 1 + membersWeight members := by
  have hopen : weigh ['\x7b'] = 1 := rfl
  have hclose : weigh ['\x7d'] = 1 := rfl
  have hcolon : weigh [':'] = 1 := rfl
  cases members with
  | nil => contradiction
  | cons e es =>
    obtain ⟨k, v⟩ := e
    rw [tokens, weighAll_cons, weighAll_cons, weighAll_cons, weighAll_append, weighAll_append,
      weighAll_cons, weighAll_nil, weighAll_memberTokens, hopen, hclose, hcolon, membersWeight,
      memberWeight]
    omega

/-- A member that takes the place of another leaves the object lighter than both would. -/
theorem membersWeight_put (key : String) (v : Json) (es : List (String × Json)) :
    membersWeight (Entries.put key v es) ≤ membersWeight es + memberWeight key v ∧
      (membersWeight (Entries.put key v es) = membersWeight es + memberWeight key v →
        key ∉ Entries.keys es) := by
  induction es with
  | nil => simp [Entries.put, membersWeight, Entries.keys]
  | cons e es ih =>
    obtain ⟨k, w⟩ := e
    obtain ⟨hle, heq⟩ := ih
    rw [Entries.put]
    split
    · next hk =>
      subst hk
      simp only [membersWeight, memberWeight]
      omega
    · next hk =>
      simp only [membersWeight]
      refine ⟨by omega, fun hw ↦ ?_⟩
      have hmem : key ∉ Entries.keys es := heq (by omega)
      simpa [Entries.keys, Ne.symm hk] using hmem

theorem membersWeight_foldl (done es : List (String × Json)) :
    membersWeight (es.foldl (fun acc e ↦ Entries.put e.1 e.2 acc) done) ≤
        membersWeight done + membersWeight es ∧
      (membersWeight (es.foldl (fun acc e ↦ Entries.put e.1 e.2 acc) done) =
        membersWeight done + membersWeight es →
        (Entries.keys done).Nodup → (Entries.keys (done ++ es)).Nodup) := by
  induction es generalizing done with
  | nil => simp [membersWeight]
  | cons e es ih =>
    obtain ⟨k, v⟩ := e
    obtain ⟨hle, heq⟩ := ih (Entries.put k v done)
    obtain ⟨hle', heq'⟩ := membersWeight_put k v done
    simp only [List.foldl_cons, membersWeight]
    refine ⟨by omega, fun hw hn ↦ ?_⟩
    have hput := Entries.put_of_not_mem (heq' (by omega)) v
    have hn' := heq (by omega) (Entries.nodup_keys_put k v hn)
    rwa [hput, List.append_assoc] at hn'

theorem membersWeight_ofList (es : List (String × Json)) :
    membersWeight (Entries.ofList es) ≤ membersWeight es ∧
      (membersWeight (Entries.ofList es) = membersWeight es → (Entries.keys es).Nodup) := by
  obtain ⟨hle, heq⟩ := membersWeight_foldl [] es
  simp only [membersWeight, Nat.zero_add, List.nil_append] at hle heq
  exact ⟨hle, fun hw ↦ heq hw .nil⟩

def IsOrdinary (v : Json) : Prop :=
  v.NoRepeats ∧ v.NoMarks

theorem isOrdinary_array {items : List Json} :
    IsOrdinary (.array items) ↔ ∀ v ∈ items, IsOrdinary v := by
  simp only [IsOrdinary, noRepeats_array, noMarks_array, forall₂_and]

theorem isOrdinary_object {members : List (String × Json)} : IsOrdinary (.object members) ↔
    (Entries.keys members).Nodup ∧ isMarked members = false ∧ ∀ e ∈ members, IsOrdinary e.2 := by
  simp only [IsOrdinary, noRepeats_object, noMarks_object, forall₂_and]
  tauto

/-- A document is read as a lighter one, unless it is ordinary. -/
def Sheds (v : Json) : Prop :=
  weighAll v.decoded.tokens ≤ weighAll v.tokens ∧
    (weighAll v.decoded.tokens = weighAll v.tokens → v.IsOrdinary)

theorem itemsWeight_decoded {items : List Json} (ih : ∀ v ∈ items, Sheds v) :
    itemsWeight (decodedItems items) ≤ itemsWeight items ∧
      (itemsWeight (decodedItems items) = itemsWeight items → ∀ v ∈ items, v.IsOrdinary) := by
  induction items with
  | nil => exact ⟨Nat.le_refl _, fun _ ↦ nofun⟩
  | cons v vs ihs =>
    obtain ⟨⟨hle, heq⟩, hvs⟩ := List.forall_mem_cons.1 ih
    obtain ⟨hle', heq'⟩ := ihs hvs
    simp only [decodedItems, itemsWeight]
    refine ⟨by omega, fun hw ↦ ?_⟩
    exact List.forall_mem_cons.2 ⟨heq (by omega), heq' (by omega)⟩

theorem membersWeight_decoded {members : List (String × Json)} (ih : ∀ e ∈ members, Sheds e.2) :
    membersWeight (decodedMembers members) ≤ membersWeight members ∧
      (membersWeight (decodedMembers members) = membersWeight members →
        ∀ e ∈ members, e.2.IsOrdinary) := by
  induction members with
  | nil => exact ⟨Nat.le_refl _, fun _ ↦ nofun⟩
  | cons e es ihs =>
    obtain ⟨k, v⟩ := e
    obtain ⟨⟨hle, heq⟩, hes⟩ := List.forall_mem_cons.1 ih
    obtain ⟨hle', heq'⟩ := ihs hes
    simp only [decodedMembers, membersWeight, memberWeight] at hle heq ⊢
    refine ⟨by omega, fun hw ↦ ?_⟩
    exact List.forall_mem_cons.2 ⟨heq (by omega), heq' (by omega)⟩

theorem weighAll_readNumeral {text : String} (h : readNumeral text = .ok v) :
    weighAll v.tokens ≤ weigh text.toList := by
  obtain ⟨part, seen, rfl, -, hn⟩ := numeral_of_readNumeral h
  rw [numberOf, tokens, String.toList_ofList, ← hn.reprinted, weighAll_cons, weighAll_nil]
  exact (lightens_reprint text.toList).le

theorem weigh_le_stringToken (text : String) : weigh text.toList ≤ weigh (stringToken text) := by
  have h := weigh_le_flatMap_escaped text.toList
  rw [stringToken, weigh, weigh_append]
  omega

theorem weighAll_marked {members : List (String × Json)} (h : isMarked members) :
    weighAll ((markedNumber? members).getD .null).tokens < weighAll (object members).tokens := by
  cases members with
  | nil => cases h
  | cons e es =>
    obtain ⟨key, w⟩ := e
    obtain rfl : key = numberMark := of_decide_eq_true h
    have hmark : 4 < weigh (stringToken numberMark) := by decide
    have hnull : weighAll null.tokens = 4 := rfl
    rw [weighAll_object (List.cons_ne_nil _ es), membersWeight, memberWeight]
    cases hv : markedNumber? ((numberMark, w) :: es) with
    | none =>
      rw [Option.getD_none, hnull]
      omega
    | some v =>
      obtain ⟨key, text, he, hr⟩ := exists_of_markedNumber? hv
      cases he
      have hread := weighAll_readNumeral hr
      have htoken := weigh_le_stringToken text
      have hstring : weighAll (string text).tokens = weigh (stringToken text) := rfl
      rw [Option.getD_some, hstring]
      omega

theorem sheds (v : Json) : Sheds v := by
  induction v using Json.induct with
  | null | boolean | number | string => exact ⟨Nat.le_refl _, fun _ ↦ by simp [IsOrdinary]⟩
  | array items ih =>
    cases items with
    | nil => exact ⟨Nat.le_refl _, fun _ ↦ by simp [IsOrdinary]⟩
    | cons v vs =>
      obtain ⟨hle, heq⟩ := itemsWeight_decoded ih
      have hne : decodedItems (v :: vs) ≠ [] := List.cons_ne_nil _ _
      rw [Sheds, decoded, weighAll_array hne, weighAll_array (List.cons_ne_nil v vs),
        isOrdinary_array]
      exact ⟨by omega, fun hw ↦ heq (by omega)⟩
  | object members ih =>
    cases hm : isMarked members with
    | true =>
      have hlt := weighAll_marked hm
      rw [Sheds, decoded, if_pos hm]
      exact ⟨by omega, fun hw ↦ by omega⟩
    | false =>
    rw [Sheds, decoded_object hm]
    cases members with
    | nil => exact ⟨Nat.le_refl _, fun _ ↦ by simp [IsOrdinary, isMarked, Entries.keys]⟩
    | cons e es =>
      obtain ⟨hle, heq⟩ := membersWeight_decoded ih
      obtain ⟨hle', hkeys⟩ := membersWeight_ofList (decodedMembers (e :: es))
      have hne : Entries.ofList (decodedMembers (e :: es)) ≠ [] :=
        Entries.ofList_ne_nil (List.cons_ne_nil _ _)
      rw [decodedMembers_eq, Entries.keys_map, ← decodedMembers_eq] at hkeys
      rw [weighAll_object hne, weighAll_object (List.cons_ne_nil e es), isOrdinary_object]
      exact ⟨by omega, fun hw ↦ ⟨hkeys (by omega), hm, heq (by omega)⟩⟩

/-- What is printed for a document is what was written of it only where nothing is printed in
another way and the document is ordinary. -/
theorem flatten_decoded_eq_iff (h : List.Forall₂ Spells ts v.tokens) :
    v.decoded.tokens.flatten = ts.flatten ↔ v.IsOrdinary ∧ ts = v.tokens := by
  constructor
  · -- one text cannot be lighter than itself, so nothing was dropped and nothing spelled anew
    intro he
    obtain ⟨hle, heq⟩ := lightens_tokens h
    obtain ⟨hle', hn⟩ := sheds v
    have hw : weighAll v.decoded.tokens = weighAll ts := by
      rw [← weigh_flatten, he, weigh_flatten]
    have ho : v.IsOrdinary := hn (by omega)
    rw [decoded_eq_self ho.1 ho.2] at he hw
    exact ⟨ho, (heq hw).2 (congrArg List.length he.symm)⟩
  · intro h
    obtain ⟨ho, rfl⟩ := h
    rw [decoded_eq_self ho.1 ho.2]

end Storefront.Json
