import Storefront.Entries
import Storefront.Text.Basic
import Storefront.Text.Quoted

namespace Storefront.Webhook

/-- The secret of an endpoint and the names of the headers that it reads. The forwarded address
goes before the remote one. -/
structure Settings where
  secret : String := ""
  signatureHeader : String := "X-Signature"
  forwardedHeader : String := "X-Forwarded-For"
  remoteHeader : String := "REMOTE_ADDR"
  deriving Repr, DecidableEq

namespace Settings

def hasSecret (s : Settings) : Bool :=
  s.secret ≠ ""

/-- What may be shown: the secret is hidden. -/
def shown (s : Settings) : List (String × String) :=
  [("secret", Text.quoted "[REDACTED]"), ("signature_header", Text.quoted s.signatureHeader),
    ("forwarded_for_header", Text.quoted s.forwardedHeader),
    ("remote_addr_header", Text.quoted s.remoteHeader)]

def inline (s : Settings) : String :=
  Text.inline "WebhookConfig" s.shown

def outline (s : Settings) : String :=
  Text.outline "WebhookConfig" s.shown

end Settings

/-- The headers of a request; no name occurs twice. -/
abbrev Headers := List (String × String)

namespace Headers

/-- What the spellings of a name have in common: capitals, low lines for dashes, and no `HTTP_`
in front. -/
def normalName (name : String) : String :=
  let capitals := (Text.trim name.toList).map fun c ↦ if c = '-' then '_' else c.toUpper
  String.ofList ((Text.dropFront? "HTTP_".toList capitals).getD capitals)

def dashedName (name : String) : String :=
  String.ofList (name.toList.map fun c ↦ if c = '_' then '-' else c.toLower)

def spellings (name : String) : List String :=
  let normal := normalName name
  [name, dashedName normal, normal, "HTTP_" ++ normal]

def filled? (value : String) : Option String :=
  let trimmed := Text.trimmed value
  if trimmed = "" then none else some trimmed

def least? : Headers → Option (String × String)
  | [] => none
  | e :: rest =>
    match least? rest with
    | none => some e
    | some f => if f.1 < e.1 then some f else some e

def matching (headers : Headers) (name : String) : Headers :=
  headers.filterMap fun e ↦
    if normalName e.1 = normalName name then (filled? e.2).map fun v ↦ (e.1, v) else none

def find? (headers : Headers) (name : String) : Option String :=
  match (spellings name).findSome? fun key ↦ (Entries.find? key headers).bind filled? with
  | some value => some value
  | none => (least? (matching headers name)).map Prod.snd

end Headers

end Storefront.Webhook
