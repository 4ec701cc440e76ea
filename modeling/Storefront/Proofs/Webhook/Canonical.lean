import Storefront.Proofs.Json.Blanks
import Storefront.Proofs.Json.Compact
import Storefront.Proofs.Json.Grammar
import Storefront.Proofs.Webhook.Reformatting

namespace Storefront.Webhook

open Json (Spaced Spells withoutBlanks)

variable {raw : String} {w : Webhook}

theorem hasSignature_sign (w : Webhook) (secret : String) :
    w.hasSignature secret (sign secret w.canonical) :=
  verify_iff.2 rfl

/-- A body with blanks, some of them in a string, that is spelled as it is printed. -/
def plainBody : String :=
  "\x7b \"type\": \"basket.abandoned\",\n  \"subject\": [ \"a \\\"b\\\"\", 1.5e+2 ] \x7d"

def plain : Webhook where
  raw := plainBody
  canonical := "\x7b\"type\":\"basket.abandoned\",\"subject\":[\"a \\\"b\\\"\",1.5e+2]\x7d"
  idValue := none
  typeValue := some (.string "basket.abandoned")
  dateValue := none
  subject := .untyped (.array [.string "a \"b\"", .number "1.5e+2"])

theorem parse_plainBody : parse plainBody = .ok plain := by
  decide +kernel

def slashBody : String :=
  "\x7b\"type\":\"payment.completed\",\"subject\":\x7b\"url\":\"a\\/b\"\x7d\x7d"

def slash : Webhook where
  raw := slashBody
  canonical := "\x7b\"type\":\"payment.completed\",\"subject\":\x7b\"url\":\"a/b\"\x7d\x7d"
  idValue := none
  typeValue := some (.string "payment.completed")
  dateValue := none
  subject := .payment (.object [("url", .string "a/b")])

end Storefront.Webhook
