import Storefront.Json.Printer
import Storefront.Json.Reader
import Storefront.Proofs.Entries
import Storefront.Proofs.Json.Within

namespace Storefront.Json

def markedNumber? : List (String × Json) → Option Json
  | [(_, .string s)] => (readNumeral s).toOption
  | _ => none

theorem exists_of_markedNumber? {members : List (String × Json)} {v : Json}
    (h : markedNumber? members = some v) :
    ∃ key text, members = [(key, .string text)] ∧ readNumeral text = .ok v := by
  rw [markedNumber?.eq_def] at h
  split at h
  · next key text =>
    cases hr : readNumeral text with
    | error fault =>
      rw [hr] at h
      cases h
    | ok w =>
      rw [hr] at h
      cases h
      exact ⟨key, text, rfl, hr⟩
  · cases h

mutual

/-- What a document is read as: of the members with one key, at any depth, the first keeps its
place and the last its value, and a marked object is the number that it spells. -/
def decoded : Json → Json
  | .array items => .array (decodedItems items)
  | .object members =>
    if isMarked members then (markedNumber? members).getD .null
    else .object (Entries.ofList (decodedMembers members))
  | v => v

def decodedItems : List Json → List Json
  | [] => []
  | v :: vs => decoded v :: decodedItems vs

def decodedMembers : List (String × Json) → List (String × Json)
  | [] => []
  | (k, v) :: ms => (k, decoded v) :: decodedMembers ms

end

theorem decodedItems_eq (items : List Json) : decodedItems items = items.map decoded := by
  induction items with
  | nil => rfl
  | cons v vs ih => exact congrArg (List.cons _) ih

theorem decodedMembers_eq (members : List (String × Json)) :
    decodedMembers members = members.map fun e ↦ (e.1, decoded e.2) := by
  induction members with
  | nil => rfl
  | cons e es ih => exact congrArg (List.cons _) ih

theorem decoded_array (items : List Json) : decoded (.array items) = .array (items.map decoded) :=
  congrArg array (decodedItems_eq items)

theorem decoded_object {members : List (String × Json)} (h : isMarked members = false) :
    decoded (.object members) = .object (Entries.ofList (decodedMembers members)) := by
  rw [decoded, h, if_neg (by decide)]

theorem decoded_marked {s : String} {v : Json} (h : readNumeral s = .ok v) :
    decoded (.object [(numberMark, .string s)]) = v := by
  rw [decoded, isMarked, if_pos (decide_eq_true rfl), markedNumber?, h]
  rfl

theorem decodedItems_append (items : List Json) (v : Json) :
    decodedItems (items ++ [v]) = decodedItems items ++ [decoded v] := by
  simp only [decodedItems_eq, List.map_append, List.map_singleton]

theorem ofList_decodedMembers_append (members : List (String × Json)) (key : String) (v : Json) :
    Entries.ofList (decodedMembers (members ++ [(key, v)])) =
      Entries.put key (decoded v) (Entries.ofList (decodedMembers members)) := by
  simp only [decodedMembers_eq, List.map_append, List.map_singleton, Entries.ofList_append]

theorem decoded_eq_self {v : Json} (h : v.NoRepeats) (hm : v.NoMarks) : v.decoded = v := by
  induction v using Json.induct with
  | null | boolean b | number lexeme | string s => rfl
  | array items ih =>
    have hi : ∀ v ∈ items, v.decoded = v :=
      fun v hv ↦ ih v hv (noRepeats_array.1 h v hv) (noMarks_array.1 hm v hv)
    rw [decoded_array, Entries.map_eq_self_iff.2 hi]
  | object members ih =>
    obtain ⟨hn, h⟩ := noRepeats_object.1 h
    obtain ⟨hfirst, hm⟩ := noMarks_object.1 hm
    have hi : ∀ e ∈ members, (e.1, e.2.decoded) = e :=
      fun e he ↦ by rw [ih e he (h e he) (hm e he)]
    rw [decoded_object hfirst, decodedMembers_eq, Entries.map_eq_self_iff.2 hi,
      Entries.ofList_of_nodup hn]

section Tokens

def itemsBefore (items : List Json) : List (List Char) :=
  items.flatMap fun v ↦ v.tokens ++ [[',']]

def membersBefore (members : List (String × Json)) : List (List Char) :=
  members.flatMap fun e ↦ stringToken e.1 :: [':'] :: (e.2.tokens ++ [[',']])

theorem tokens_itemTokens (v w : Json) (items : List Json) :
    v.tokens ++ itemTokens (items ++ [w]) = itemsBefore (v :: items) ++ w.tokens := by
  induction items generalizing v with
  | nil => simp [itemsBefore, itemTokens]
  | cons u us ih =>
    have h : v.tokens ++ itemTokens (u :: us ++ [w]) =
        v.tokens ++ [','] :: (u.tokens ++ itemTokens (us ++ [w])) := rfl
    rw [h, ih u]
    simp [itemsBefore]

theorem tokens_array_append (items : List Json) (w : Json) :
    (array (items ++ [w])).tokens = ['['] :: (itemsBefore items ++ (w.tokens ++ [[']']])) := by
  cases items with
  | nil => simp [tokens, itemTokens, itemsBefore]
  | cons v vs =>
    have h : (array (v :: vs ++ [w])).tokens =
        ['['] :: (v.tokens ++ (itemTokens (vs ++ [w]) ++ [[']']])) := rfl
    rw [h, ← List.append_assoc, tokens_itemTokens, List.append_assoc]

theorem tokens_memberTokens (key : String) (v : Json) (e : String × Json)
    (members : List (String × Json)) :
    stringToken key :: [':'] :: (v.tokens ++ memberTokens (members ++ [e])) =
      membersBefore ((key, v) :: members) ++ (stringToken e.1 :: [':'] :: e.2.tokens) := by
  induction members generalizing key v with
  | nil => simp [membersBefore, memberTokens]
  | cons m ms ih =>
    obtain ⟨k, u⟩ := m
    have h : memberTokens ((k, u) :: ms ++ [e]) =
        [','] :: stringToken k :: [':'] :: (u.tokens ++ memberTokens (ms ++ [e])) := rfl
    rw [h, ih k u]
    simp [membersBefore]

theorem tokens_object_append (members : List (String × Json)) (key : String) (w : Json) :
    (object (members ++ [(key, w)])).tokens = ['\x7b'] :: (membersBefore members ++
      (stringToken key :: [':'] :: (w.tokens ++ [['\x7d']]))) := by
  cases members with
  | nil => simp [tokens, memberTokens, membersBefore]
  | cons m ms =>
    obtain ⟨k, v⟩ := m
    have h : (object ((k, v) :: ms ++ [(key, w)])).tokens = ['\x7b'] :: (stringToken k :: [':'] ::
        (v.tokens ++ memberTokens (ms ++ [(key, w)])) ++ [['\x7d']]) := by
      simp [tokens]
    rw [h, tokens_memberTokens]
    simp

end Tokens

end Storefront.Json
