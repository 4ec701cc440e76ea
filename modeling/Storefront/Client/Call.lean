import Storefront.Json.Reader
import Storefront.Schema.Codec
import Storefront.Text.Basic

namespace Storefront.Client

inductive Method where
  | get
  | post
  | put
  | patch
  | delete
  deriving Repr, DecidableEq

def Method.name : Method → String
  | .get => "GET"
  | .post => "POST"
  | .put => "PUT"
  | .patch => "PATCH"
  | .delete => "DELETE"

structure Request where
  method : Method
  path : String
  headers : List (String × String) := []
  query : List (String × String) := []
  body : Option Json := none
  deriving DecidableEq

structure Response where
  status : Nat
  body : String
  deriving Repr, DecidableEq

/-- Why a call fails. `H` and `U` are what the transport says of an exchange that fails and of an
address that is none. -/
inductive Failure (H U : Type) where
  | http (e : H)
  | invalidUrl (e : U)
  | status (code : Nat) (body : String)
  | invalidBody (text : String)
  | model (e : ModelError)
  deriving Repr, DecidableEq

variable {H U : Type}

def Failure.message [ToString H] [ToString U] : Failure H U → String
  | .http e => "HTTP request failed: " ++ toString e
  | .invalidUrl e => "Invalid URL: " ++ toString e
  | .status code body => "API returned status " ++ toString code ++ ": " ++ body
  | .invalidBody text => "Invalid response body: " ++ text
  | .model e => e.message

namespace Response

def isSuccess (r : Response) : Bool :=
  200 ≤ r.status && r.status < 300

/-- The body as JSON; a blank body is undefined. -/
def json (r : Response) : Except (Failure H U) (Option Json) :=
  if (Text.trim r.body.toList).isEmpty then .ok none
  else match Json.parse r.body with
  | .ok v => .ok (some v)
  | .error fault => .error (.invalidBody fault.message)

def checked (r : Response) : Except (Failure H U) Response :=
  if r.isSuccess then .ok r else .error (.status r.status r.body)

end Response

/-- The answers still to come and the requests sent so far. -/
structure Tape (H U : Type) where
  answers : List (Except (Failure H U) Response)
  sent : List Request

/-- A run of requests against a tape of answers. -/
abbrev Session (H U : Type) := ExceptT (Failure H U) (StateM (Tape H U))

def send (request : Request) : Session H U Response := fun tape ↦
  match tape.answers with
  | [] => (.error (.invalidBody "no response"), ⟨[], tape.sent ++ [request]⟩)
  | answer :: answers => (answer, ⟨answers, tape.sent ++ [request]⟩)

def exchange (request : Request) : Session H U Response := do
  let response ← send request
  (response.checked : Except (Failure H U) Response)

variable (r : Registry)

def call (request : Request) (type : Descriptor) : Session H U (Option Model) := do
  let response ← exchange request
  let wire ← (response.json : Except (Failure H U) (Option Json))
  return wire.map fun v ↦ r.toModel v type

def callWithBody (request : Request) (body : Model) (bodyType type : Descriptor) :
    Session H U (Option Model) :=
  call r { request with body := some (r.toWire body bodyType) } type

/-- The record in a response; a blank body counts as null. -/
def decodeBody (s : Schema) (response : Response) : Except (Failure H U) s.Record := do
  let wire ← response.json
  (r.decode s (wire.getD .null)).mapError .model

def get (path : String) (s : Schema) : Session H U s.Record := do
  let response ← exchange { method := .get, path }
  (decodeBody r s response : Except (Failure H U) s.Record)

/-- A record that cannot be encoded sends nothing. -/
def post (path : String) (bodySchema : Schema) (body : bodySchema.Record) (s : Schema) :
    Session H U s.Record := do
  let wire ← ((r.encode bodySchema body).mapError .model : Except (Failure H U) Json)
  let response ← exchange { method := .post, path, body := some wire }
  (decodeBody r s response : Except (Failure H U) s.Record)

/-- Whatever body a deletion is answered with is ignored. -/
def delete (path : String) : Session H U Unit := do
  let _ ← exchange { method := .delete, path }

inductive Call where
  | call (request : Request) (type : Descriptor)
  | callWithBody (request : Request) (body : Model) (bodyType type : Descriptor)
  | get (path : String) (s : Schema)
  | post (path : String) (bodySchema : Schema) (body : bodySchema.Record) (s : Schema)
  | delete (path : String)

inductive Reply where
  | value (m : Option Model)
  | record (s : Schema) (x : s.Record)
  | deleted

def Call.run : Call → Session H U Reply
  | .call request type => .value <$> Client.call r request type
  | .callWithBody request body bodyType type =>
    .value <$> Client.callWithBody r request body bodyType type
  | .get path s => .record s <$> Client.get r path s
  | .post path bodySchema body s => .record s <$> Client.post r path bodySchema body s
  | .delete path => do
    Client.delete path
    return .deleted

def runAll : List Call → Tape H U → List (Except (Failure H U) Reply) × Tape H U
  | [], tape => ([], tape)
  | c :: calls, tape =>
    let (result, tape) := (c.run r).run tape
    let (results, tape) := runAll calls tape
    (result :: results, tape)

end Storefront.Client
