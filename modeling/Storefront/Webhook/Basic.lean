import Storefront.Catalog.Checkout
import Storefront.Json.Printer
import Storefront.Json.Reader
import Storefront.Number.Double
import Storefront.Schema.Codec
import Storefront.Webhook.Address
import Storefront.Webhook.Event
import Storefront.Webhook.Signature

namespace Storefront

namespace Webhook

inductive Rejection where
  | malformedPayload (text : String)
  | malformedSubject (text : String)
  | missingType
  | missingSubject
  | nullSubject
  | unrecognizedType (text : String)
  | missingSignature
  | invalidOrigin (address : String)
  | invalidSignature
  deriving Repr, DecidableEq

def Rejection.message : Rejection → String
  | malformedPayload text => "Invalid or malformed webhook JSON: " ++ text
  | malformedSubject text => "Invalid or malformed webhook subject: " ++ text
  | missingType => "Webhook is missing type from the payload"
  | missingSubject => "Webhook is missing subject from the payload"
  | nullSubject => "Webhook subject is null in payload"
  | unrecognizedType text => "Unrecognized webhook type: " ++ text
  | missingSignature => "Signature header is missing from the request"
  | invalidOrigin address =>
    "Invalid webhook origin IP " ++ address ++
      ". Ensure client IPs are forwarded appropriately if using a proxy"
  | invalidSignature => "Invalid webhook signature"

end Webhook

/-- The values that stand for nothing. A number too large for a double does not. -/
def Json.isFalsy : Json → Bool
  | .null => true
  | .boolean b => !b
  | .number lexeme => (Number.Double.ofLexeme? lexeme).any Number.Double.isZero
  | .string s => s = ""
  | .array _ => false
  | .object _ => false

namespace Webhook

inductive Subject where
  | payment (v : Json)
  | recurringPayment (v : Json)
  | untyped (v : Json)
  | empty
  deriving Repr, DecidableEq

namespace Subject

def ofKind (v : Json) : SubjectKind → Subject
  | .payment => payment v
  | .recurringPayment => recurringPayment v
  | .untyped => untyped v
  | .empty => empty

def kind : Subject → SubjectKind
  | payment _ => .payment
  | recurringPayment _ => .recurringPayment
  | untyped _ => .untyped
  | empty => .empty

def value? : Subject → Option Json
  | payment v | recurringPayment v | untyped v => some v
  | empty => none

def toJson (s : Subject) : Json :=
  s.value?.getD (.object [])

theorem kind_ofKind (v : Json) (k : SubjectKind) : (ofKind v k).kind = k := by
  cases k <;> rfl

end Subject

end Webhook

/-- A delivery whose body has been read. The canonical text is the body without formatting, and it
is what gets signed. -/
structure Webhook where
  raw : String
  canonical : String
  idValue : Option Json
  typeValue : Option Json
  dateValue : Option Json
  subject : Webhook.Subject
  deriving Repr, DecidableEq

namespace Webhook

def typeText (value : Option Json) : String :=
  (value.bind Json.asString?).getD ""

/-- The webhook in a decoded body. Senders may write an empty object as an empty list. -/
def ofJson (raw : String) (body : Json) : Except Rejection Webhook :=
  if body.isFalsy then .error (.malformedPayload raw)
  else match body.get? "subject" with
  | none => .error (.malformedSubject "undefined")
  | some v =>
    if v.isFalsy then .error (.malformedSubject v.text)
    else
      let v := if v = .array [] then .object [] else v
      let type := body.get? "type"
      .ok {
        raw
        canonical := body.text
        idValue := body.get? "id"
        typeValue := type
        dateValue := body.get? "date"
        subject := .ofKind v (.infer (typeText type)) }

def decode (raw : String) : Except Rejection Json :=
  (Json.parse raw).mapError fun fault ↦ .malformedPayload fault.message

def parse (raw : String) : Except Rejection Webhook :=
  decode raw >>= ofJson raw

variable (w : Webhook)

def id? : Option String :=
  w.idValue.bind Json.asString?

def date? : Option String :=
  w.dateValue.bind Json.asString?

def type : String :=
  typeText w.typeValue

def event? : Option Event :=
  Event.ofName? w.type

def isPayment : Bool :=
  namesPayment w.type

def isDispute : Bool :=
  namesDispute w.type

def isRecurring : Bool :=
  namesRecurring w.type

def isOf (e : Event) : Bool :=
  w.type = e.name

/-- The number of 64 bits that a lexeme stands for, by way of a double when it is not written as
a whole number. -/
def idOfLexeme? (lexeme : String) : Option Int64 :=
  match Number.int64? lexeme with
  | some n => some n
  | none => do
    let n ← (← Number.Double.ofLexeme? lexeme).toInt?
    if n.natAbs < Nat.pow 2 63 then some (Int64.ofInt n) else none

def statusId? : Option Int64 :=
  match (w.subject.value?.bind (·.get? "status")).bind (·.get? "id") with
  | some (.number lexeme) => idOfLexeme? lexeme
  | _ => none

def status? : Option Status :=
  w.statusId?.bind Status.ofId?

def isComplete : Bool :=
  w.statusId? = some Status.complete.id

def hasSignature (secret expected : String) : Bool :=
  verify secret w.canonical expected

def payment? : Except ModelError (Option Checkout.payment.Record) :=
  match w.subject with
  | .payment v => some <$> Checkout.catalog.registry.decode Checkout.payment v
  | _ => .ok none

def recurringPayment? : Except ModelError (Option Checkout.recurringPayment.Record) :=
  match w.subject with
  | .recurringPayment v => some <$> Checkout.catalog.registry.decode Checkout.recurringPayment v
  | _ => .ok none

end Webhook

end Storefront
