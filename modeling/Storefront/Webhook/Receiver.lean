import Storefront.Webhook.Basic
import Storefront.Webhook.Headers

namespace Storefront.Webhook

def checkBody (raw : String) (body : Json) : Except Rejection Unit :=
  if body.isFalsy then .error (.malformedPayload raw) else .ok ()

def checkType (body : Json) : Except Rejection Unit :=
  match body.get? "type" with
  | none => .error .missingType
  | some v =>
    if v.isFalsy then .error .missingType
    else match v with
    | .string s => if (Event.ofName? s).isSome then .ok () else .error (.unrecognizedType s)
    | v => .error (.unrecognizedType v.text)

def checkSubject (body : Json) : Except Rejection Unit :=
  match body.get? "subject" with
  | none => .error .missingSubject
  | some .null => .error .nullSubject
  | some _ => .ok ()

def checkOrigin : Option String → Except Rejection Unit
  | none => .error (.invalidOrigin "")
  | some address => if Origin.isAllowed address then .ok () else .error (.invalidOrigin address)

namespace Settings

variable (s : Settings)

def signature? (headers : Headers) : Option String :=
  headers.find? s.signatureHeader

def origin? (headers : Headers) : Option String :=
  headers.find? s.forwardedHeader <|> headers.find? s.remoteHeader

def hasSignature (w : Webhook) (signature : String) : Bool :=
  w.hasSignature s.secret signature

def checkSignature (w : Webhook) (signature : String) : Except Rejection Unit :=
  if w.hasSignature s.secret signature then .ok () else .error .invalidSignature

/-- Read a delivery and make sure that it is genuine. The checks are made in this order, and the
first that fails is reported. -/
def receive (headers : Headers) (raw : String) : Except Rejection Webhook :=
  match s.signature? headers with
  | none => .error .missingSignature
  | some signature => do
    let body ← decode raw
    checkBody raw body
    checkType body
    checkSubject body
    let w ← ofJson raw body
    checkOrigin (s.origin? headers)
    s.checkSignature w signature
    return w

end Settings

end Storefront.Webhook
