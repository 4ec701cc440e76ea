import Storefront.Number.Decimal
import Storefront.Text.Quoted

namespace Storefront.Client

/-- Where and how requests are sent. The timeout is in milliseconds. -/
structure Settings where
  baseUrl : String := "https://checkout.tebex.io/api"
  projectId : String := ""
  privateKey : String := ""
  timeout : Nat := 30000
  userAgent : String := "tebex-rust/0.1.0"
  deriving Repr, DecidableEq

namespace Settings

def setBaseUrl (s : Settings) (url : String) : Settings :=
  { s with baseUrl := String.ofList (url.toList.reverse.dropWhile (· = '/')).reverse }

def setCredentials (s : Settings) (projectId privateKey : String) : Settings :=
  { s with projectId, privateKey }

def setTimeout (s : Settings) (millis : Nat) : Settings :=
  { s with timeout := millis }

def setTimeoutSeconds (s : Settings) (seconds : Nat) : Settings :=
  s.setTimeout (seconds * 1000)

def setUserAgent (s : Settings) (userAgent : String) : Settings :=
  { s with userAgent }

def hasCredentials (s : Settings) : Bool :=
  s.projectId ≠ "" && s.privateKey ≠ ""

def durationText (millis : Nat) : String :=
  let rest := millis % 1000
  if millis = 0 then "0ns"
  else if millis < 1000 then toString millis ++ "ms"
  else if rest = 0 then toString (millis / 1000) ++ "s"
  else
    toString (millis / 1000) ++ "." ++
      String.ofList (Number.dropTrailingZeros (Number.padded 3 rest)) ++ "s"

/-- What may be shown: the key is hidden. -/
def shown (s : Settings) : List (String × String) :=
  [("base_url", Text.quoted s.baseUrl), ("project_id", Text.quoted s.projectId),
    ("private_key", Text.quoted "[REDACTED]"), ("timeout", durationText s.timeout),
    ("user_agent", Text.quoted s.userAgent)]

def inline (s : Settings) : String :=
  Text.inline "ClientConfig" s.shown

def outline (s : Settings) : String :=
  Text.outline "ClientConfig" s.shown

end Settings

end Storefront.Client
