import Storefront.Text.Basic

namespace Storefront.Webhook

inductive Status where
  | complete
  | refund
  | chargeback
  | declined
  | pendingCheckout
  | refundPending
  deriving Repr, DecidableEq

namespace Status

def all : List Status :=
  [complete, refund, chargeback, declined, pendingCheckout, refundPending]

def id : Status → Int64
  | complete => 1
  | refund => 2
  | chargeback => 3
  | declined => 18
  | pendingCheckout => 19
  | refundPending => 21

def ofId? (n : Int64) : Option Status :=
  all.find? fun s ↦ s.id = n

end Status

inductive SubjectKind where
  | payment
  | recurringPayment
  | untyped
  | empty
  deriving Repr, DecidableEq

/-- What a delivery reports. A validation is sent when an endpoint is registered. -/
inductive Event where
  | paymentCompleted
  | paymentDeclined
  | paymentRefunded
  | disputeOpened
  | disputeWon
  | disputeLost
  | disputeClosed
  | recurringStarted
  | recurringRenewed
  | recurringStatusChanged
  | recurringEnded
  | cancellationRequested
  | cancellationAborted
  | basketAbandoned
  | validation
  deriving Repr, DecidableEq

namespace Event

def all : List Event := [
  paymentCompleted, paymentDeclined, paymentRefunded,
  disputeOpened, disputeWon, disputeLost, disputeClosed,
  recurringStarted, recurringRenewed, recurringStatusChanged, recurringEnded,
  cancellationRequested, cancellationAborted, basketAbandoned, validation]

def name : Event → String
  | paymentCompleted => "payment.completed"
  | paymentDeclined => "payment.declined"
  | paymentRefunded => "payment.refunded"
  | disputeOpened => "payment.dispute.opened"
  | disputeWon => "payment.dispute.won"
  | disputeLost => "payment.dispute.lost"
  | disputeClosed => "payment.dispute.closed"
  | recurringStarted => "recurring-payment.started"
  | recurringRenewed => "recurring-payment.renewed"
  | recurringStatusChanged => "recurring-payment.status-changed"
  | recurringEnded => "recurring-payment.ended"
  | cancellationRequested => "recurring-payment.cancellation.requested"
  | cancellationAborted => "recurring-payment.cancellation.aborted"
  | basketAbandoned => "basket.abandoned"
  | validation => "validation.webhook"

def ofName? (s : String) : Option Event :=
  all.find? fun e ↦ e.name = s

def isDispute : Event → Bool
  | disputeOpened | disputeWon | disputeLost | disputeClosed => true
  | _ => false

def isPayment : Event → Bool
  | paymentCompleted | paymentDeclined | paymentRefunded => true
  | e => e.isDispute

def isRecurring : Event → Bool
  | recurringStarted | recurringRenewed | recurringStatusChanged | recurringEnded => true
  | cancellationRequested | cancellationAborted => true
  | _ => false

def subjectKind : Event → SubjectKind
  | validation => .empty
  | e => if e.isPayment then .payment else if e.isRecurring then .recurringPayment else .untyped

theorem mem_all (e : Event) : e ∈ all := by
  cases e <;> decide

theorem ofName?_eq_some_iff {s : String} {e : Event} : ofName? s = some e ↔ e.name = s := by
  constructor
  · intro h
    simpa using List.find?_some h
  · rintro rfl
    cases e <;> decide

end Event

def speaksOf (word type : String) : Bool :=
  Text.occursIn word.toList type.toList

def namesPayment (type : String) : Bool :=
  speaksOf "payment" type && !speaksOf "recurring" type

def namesDispute (type : String) : Bool :=
  speaksOf "dispute" type

def namesRecurring (type : String) : Bool :=
  speaksOf "recurring-payment" type

/-- The shape of the subject that goes with a type text. An unknown type is judged by its words,
and the words for a payment come first. -/
def SubjectKind.infer (type : String) : SubjectKind :=
  match Event.ofName? type with
  | some e => e.subjectKind
  | none =>
    if namesPayment type || namesDispute type then .payment
    else if namesRecurring type then .recurringPayment
    else .untyped

end Storefront.Webhook
