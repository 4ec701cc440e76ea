import Storefront.Codec
import Storefront.Proofs.Instant.Text
import Storefront.Proofs.Model.Conversion

namespace Storefront.Model

mutual

/-- The value after a visit to the wire: dates lose what is less than a millisecond, and a date
whose year has no four digits stays the text that it is written as. -/
def settle : Model → Model
  | .date i => if i.ShortYear then .date i.truncate else .string i.text
  | .array items => .array (settleItems items)
  | .object members => .object (settleMembers members)
  | m => m

def settleItems : List Model → List Model
  | [] => []
  | m :: ms => settle m :: settleItems ms

def settleMembers : List (String × Model) → List (String × Model)
  | [] => []
  | (k, m) :: ms => (k, settle m) :: settleMembers ms

end

theorem settleItems_eq (items : List Model) : settleItems items = items.map settle := by
  induction items with
  | nil => rfl
  | cons m ms ih => exact congrArg (List.cons _) ih

theorem settleMembers_eq (members : List (String × Model)) :
    settleMembers members = members.map fun e ↦ (e.1, settle e.2) := by
  induction members with
  | nil => rfl
  | cons e es ih => exact congrArg (List.cons _) ih

theorem settle_array (items : List Model) : settle (.array items) = .array (items.map settle) :=
  congrArg array (settleItems_eq items)

theorem settle_object (members : List (String × Model)) :
    settle (.object members) = .object (members.map fun e ↦ (e.1, settle e.2)) :=
  congrArg object (settleMembers_eq members)

theorem settle_date (i : Instant) :
    settle (.date i) = if i.ShortYear then .date i.truncate else .string i.text :=
  rfl

theorem settle_date_eq_self_iff {i : Instant} : settle (.date i) = .date i ↔ i.Settled := by
  rw [settle_date, Instant.Settled, ← Instant.truncate_eq_self_iff]
  split
  · next h => simp [h]
  · next h => simp [h]

theorem settle_eq_self_iff {m : Model} : m.settle = m ↔ m.EveryDate Instant.Settled := by
  induction m using Model.induct with
  | null => exact iff_of_true rfl everyDate_null
  | boolean b => exact iff_of_true rfl (everyDate_boolean b)
  | number lexeme => exact iff_of_true rfl (everyDate_number lexeme)
  | string s => exact iff_of_true rfl (everyDate_string s)
  | date i => rw [settle_date_eq_self_iff, everyDate_date]
  | array items ih =>
    rw [settle_array, everyDate_array, array.injEq, Entries.map_eq_self_iff]
    exact forall₂_congr ih
  | object members ih =>
    rw [settle_object, everyDate_object, object.injEq, Entries.map_eq_self_iff]
    apply forall₂_congr
    intro e he
    rw [← ih e he, Prod.ext_iff]
    exact and_iff_right rfl

theorem settle_ofJson (v : Json) : (ofJson v).settle = ofJson v :=
  settle_eq_self_iff.2 fun i hi ↦ (noDates_ofJson v i hi).elim

theorem ofDateText_of_some {s : String} {i : Instant} (h : Instant.parse? s = some i) :
    ofDateText s = .date i := by
  rw [ofDateText, h]

theorem ofDateText_of_none {s : String} (h : Instant.parse? s = none) :
    ofDateText s = .string s := by
  rw [ofDateText, h]

theorem wireDateText_of_some {s : String} {i : Instant} (h : Instant.parse? s = some i) :
    wireDateText s = i.text := by
  rw [wireDateText, h]

theorem wireDateText_of_none {s : String} (h : Instant.parse? s = none) : wireDateText s = s := by
  rw [wireDateText, h]

theorem ofDateText_text {i : Instant} (hi : i.Regular) : ofDateText i.text = settle (.date i) := by
  by_cases h : i.ShortYear
  · rw [ofDateText_of_some (i.parse?_text_of_shortYear h), settle_date, if_pos h,
      Instant.shown_of_regular hi]
  · rw [ofDateText_of_none (i.parse?_text_of_not_shortYear h), settle_date, if_neg h]

theorem wireDateText_text (i : Instant) : wireDateText i.text = i.text := by
  by_cases h : i.ShortYear
  · rw [wireDateText_of_some (i.parse?_text_of_shortYear h), Instant.text_truncate, i.text_shown]
  · rw [wireDateText_of_none (i.parse?_text_of_not_shortYear h)]

/-- A wire text where a date is declared, read again after it was brought into the wire form. -/
theorem ofDateText_wireDateText (s : String) :
    ofDateText (wireDateText s) = (ofDateText s).settle := by
  cases h : Instant.parse? s with
  | none =>
    rw [wireDateText_of_none h, ofDateText_of_none h]
    rfl
  | some i =>
    rw [wireDateText_of_some h, ofDateText_text (Instant.regular_of_parse? h), ofDateText_of_some h]

theorem wireDateText_wireDateText (s : String) :
    wireDateText (wireDateText s) = wireDateText s := by
  cases h : Instant.parse? s with
  | none => rw [wireDateText_of_none h, wireDateText_of_none h]
  | some i => rw [wireDateText_of_some h, wireDateText_text]

end Storefront.Model
