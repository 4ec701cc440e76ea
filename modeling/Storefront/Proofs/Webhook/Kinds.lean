import Storefront.Proofs.Text.Basic
import Storefront.Proofs.Webhook.Reformatting

namespace Storefront.Webhook

def Mentions (word type : String) : Prop :=
  word.toList <:+: type.toList

theorem Mentions.trans {word part type : String} (h : Mentions word part) (h' : Mentions part type) :
    Mentions word type :=
  List.IsInfix.trans h h'

theorem speaksOf_iff {word type : String} : speaksOf word type ↔ Mentions word type :=
  Text.occursIn_iff

theorem namesDispute_iff {type : String} : namesDispute type ↔ Mentions "dispute" type :=
  speaksOf_iff

theorem namesRecurring_iff {type : String} :
    namesRecurring type ↔ Mentions "recurring-payment" type :=
  speaksOf_iff

theorem namesPayment_iff {type : String} :
    namesPayment type ↔ Mentions "payment" type ∧ ¬ Mentions "recurring" type := by
  rw [namesPayment, Bool.and_eq_true, Bool.not_eq_true', ← Bool.not_eq_true, speaksOf_iff,
    speaksOf_iff]

theorem mentions_recurring {type : String} (h : Mentions "recurring-payment" type) :
    Mentions "recurring" type :=
  have hword : Mentions "recurring" "recurring-payment" := speaksOf_iff.1 (by decide)
  hword.trans h

/-- A type of one payment is no type of recurring payments. -/
theorem not_namesPayment_and_namesRecurring (type : String) :
    ¬ (namesPayment type ∧ namesRecurring type) := by
  rw [namesPayment_iff, namesRecurring_iff]
  rintro ⟨⟨-, hn⟩, hr⟩
  exact hn (mentions_recurring hr)

/-- The kind that the words of a type call for, without a list of known types. -/
def kindOfWords (type : String) : SubjectKind :=
  if type = Event.validation.name then .empty
  else if namesPayment type || namesDispute type then .payment
  else if namesRecurring type then .recurringPayment
  else .untyped

theorem subjectKind_eq (e : Event) : e.subjectKind = kindOfWords e.name := by
  cases e <;> decide

/-- The known types are classified by their words as well. -/
theorem infer_eq_kindOfWords (type : String) : SubjectKind.infer type = kindOfWords type := by
  rw [SubjectKind.infer]
  cases h : Event.ofName? type with
  | some e =>
    rw [← Event.ofName?_eq_some_iff.1 h]
    exact subjectKind_eq e
  | none =>
    have hv : type ≠ Event.validation.name := by
      rintro rfl
      rw [Event.ofName?_eq_some_iff.2 rfl] at h
      cases h
    rw [kindOfWords, if_neg hv]

section Kinds

variable {type : String}

theorem kindOfWords_eq_empty_iff : kindOfWords type = .empty ↔ type = Event.validation.name := by
  rw [kindOfWords]
  split
  · next h => exact iff_of_true rfl h
  · next h =>
    refine iff_of_false ?_ h
    split
    · exact nofun
    · split <;> exact nofun

theorem not_names_validation : (namesPayment Event.validation.name ||
    namesDispute Event.validation.name || namesRecurring Event.validation.name) = false := by
  decide

theorem kindOfWords_eq_payment_iff :
    kindOfWords type = .payment ↔ namesPayment type ∨ namesDispute type := by
  rw [kindOfWords, ← Bool.or_eq_true]
  split
  · next h =>
    obtain ⟨hp, -⟩ := Bool.or_eq_false_iff.1 not_names_validation
    rw [h, hp]
    exact iff_of_false nofun nofun
  · split
    · next h => exact iff_of_true rfl h
    · next h =>
      refine iff_of_false ?_ h
      split <;> exact nofun

/-- The words for a payment go before, and of them only a dispute can stand beside the word for
recurring payments. -/
theorem kindOfWords_eq_recurringPayment_iff :
    kindOfWords type = .recurringPayment ↔ namesRecurring type ∧ ¬ namesDispute type := by
  rw [kindOfWords]
  split
  · next h =>
    obtain ⟨-, hr⟩ := Bool.or_eq_false_iff.1 not_names_validation
    rw [h, hr]
    exact iff_of_false nofun nofun
  · split
    · next h =>
      refine iff_of_false nofun ?_
      rintro ⟨hr, hd⟩
      rcases Bool.or_eq_true_iff.1 h with hp | hd'
      · exact not_namesPayment_and_namesRecurring type ⟨hp, hr⟩
      · exact hd hd'
    · next h =>
      have hd : ¬ namesDispute type := fun hd ↦ h (Bool.or_eq_true_iff.2 (.inr hd))
      split
      · next hr => exact iff_of_true rfl ⟨hr, hd⟩
      · next hr => exact iff_of_false nofun fun h ↦ hr h.1

end Kinds

section Infer

variable {type : String}

theorem infer_eq_empty_iff : SubjectKind.infer type = .empty ↔ type = Event.validation.name := by
  rw [infer_eq_kindOfWords, kindOfWords_eq_empty_iff]

theorem infer_eq_payment_iff : SubjectKind.infer type = .payment ↔
    Mentions "dispute" type ∨ Mentions "payment" type ∧ ¬ Mentions "recurring" type := by
  rw [infer_eq_kindOfWords, kindOfWords_eq_payment_iff, namesDispute_iff, namesPayment_iff, or_comm]

theorem infer_eq_recurringPayment_iff : SubjectKind.infer type = .recurringPayment ↔
    Mentions "recurring-payment" type ∧ ¬ Mentions "dispute" type := by
  rw [infer_eq_kindOfWords, kindOfWords_eq_recurringPayment_iff, namesRecurring_iff,
    namesDispute_iff]

theorem infer_eq_untyped_iff : SubjectKind.infer type = .untyped ↔ type ≠ Event.validation.name ∧
    ¬ (Mentions "dispute" type ∨ Mentions "payment" type ∧ ¬ Mentions "recurring" type) ∧
    ¬ (Mentions "recurring-payment" type ∧ ¬ Mentions "dispute" type) := by
  rw [ne_eq, ← infer_eq_empty_iff, ← infer_eq_payment_iff, ← infer_eq_recurringPayment_iff]
  cases SubjectKind.infer type <;> simp

end Infer

variable {raw : String} {body : Json} {w : Webhook}

theorem kind_of_ofJson (h : ofJson raw body = .ok w) : w.subject.kind = .infer w.type := by
  obtain ⟨v, -, hs⟩ := subject_of_ofJson h
  rw [hs, Subject.kind_ofKind]

theorem payment?_eq_none_iff : w.payment? = .ok none ↔ w.subject.kind ≠ .payment := by
  rw [payment?]
  cases w.subject with
  | payment v => exact iff_of_false some_map_ne_none fun h ↦ h rfl
  | recurringPayment | untyped | empty => exact iff_of_true rfl nofun

theorem recurringPayment?_eq_none_iff :
    w.recurringPayment? = .ok none ↔ w.subject.kind ≠ .recurringPayment := by
  rw [recurringPayment?]
  cases w.subject with
  | recurringPayment v => exact iff_of_false some_map_ne_none fun h ↦ h rfl
  | payment | untyped | empty => exact iff_of_true rfl nofun

/-- The list of known types, the words of a type and what a webhook says of its type and its
subject agree, on known and on unknown types. -/
theorem kinds_agree :
    (∀ type,
      (SubjectKind.infer type = .empty ↔ type = Event.validation.name) ∧
      (SubjectKind.infer type = .payment ↔
        Mentions "dispute" type ∨ Mentions "payment" type ∧ ¬ Mentions "recurring" type) ∧
      (SubjectKind.infer type = .recurringPayment ↔
        Mentions "recurring-payment" type ∧ ¬ Mentions "dispute" type) ∧
      (SubjectKind.infer type = .untyped ↔ type ≠ Event.validation.name ∧
        ¬ (Mentions "dispute" type ∨ Mentions "payment" type ∧ ¬ Mentions "recurring" type) ∧
        ¬ (Mentions "recurring-payment" type ∧ ¬ Mentions "dispute" type))) ∧
    ∀ raw w, parse raw = .ok w →
      w.subject.kind = .infer w.type ∧
      (w.subject.kind = .payment ↔ w.isPayment ∨ w.isDispute) ∧
      ¬ (w.isPayment ∧ w.isRecurring) ∧
      (w.payment? = .ok none ↔ w.subject.kind ≠ .payment) ∧
      (w.recurringPayment? = .ok none ↔ w.subject.kind ≠ .recurringPayment) := by
  refine ⟨?_, ?_⟩
  · intro type
    exact ⟨infer_eq_empty_iff, infer_eq_payment_iff, infer_eq_recurringPayment_iff,
      infer_eq_untyped_iff⟩
  · intro raw w h
    obtain ⟨body, -, hw⟩ := parse_eq_ok_iff.1 h
    have hk := kind_of_ofJson hw
    refine ⟨hk, ?_, not_namesPayment_and_namesRecurring w.type, payment?_eq_none_iff,
      recurringPayment?_eq_none_iff⟩
    rw [hk, infer_eq_kindOfWords]
    exact kindOfWords_eq_payment_iff

def mixedBody : String :=
  "\x7b\"type\":\"recurring-payment.dispute.opened\",\"subject\":[1]\x7d"

def mixed : Webhook where
  raw := mixedBody
  canonical := mixedBody
  idValue := none
  typeValue := some (.string "recurring-payment.dispute.opened")
  dateValue := none
  subject := .payment (.array [.number "1"])

theorem parse_mixedBody : parse mixedBody = .ok mixed := by
  decide +kernel

theorem kinds_agree_mixed :
    parse mixedBody = .ok mixed ∧ mixed.event? = none ∧ mixed.isRecurring ∧
    mixed.subject.kind = .infer mixed.type ∧
    (mixed.subject.kind = .payment ↔ mixed.isPayment ∨ mixed.isDispute) ∧
    ¬ (mixed.isPayment ∧ mixed.isRecurring) ∧
    (mixed.payment? = .ok none ↔ mixed.subject.kind ≠ .payment) ∧
    (mixed.recurringPayment? = .ok none ↔ mixed.subject.kind ≠ .recurringPayment) :=
  have h := kinds_agree.2 mixedBody mixed parse_mixedBody
  ⟨parse_mixedBody, by decide, by decide, h⟩

end Storefront.Webhook
