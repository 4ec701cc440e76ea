import Storefront.Catalog.Basic
import Storefront.Catalog.Checkout
import Storefront.Catalog.Headless
import Storefront.Client.Call
import Storefront.Client.Settings
import Storefront.Codec
import Storefront.Descriptor.Basic
import Storefront.Descriptor.Text
import Storefront.Entries
import Storefront.Hash
import Storefront.Instant.Basic
import Storefront.Instant.Reader
import Storefront.Json.Basic
import Storefront.Json.Fault
import Storefront.Json.Printer
import Storefront.Json.Reader
import Storefront.Model
import Storefront.Number.Decimal
import Storefront.Number.Double
import Storefront.Proofs.Client.Runs
import Storefront.Proofs.Codec.Agree
import Storefront.Proofs.Codec.Basic
import Storefront.Proofs.Codec.Choice
import Storefront.Proofs.Codec.Conforms
import Storefront.Proofs.Codec.LastRegistration
import Storefront.Proofs.Codec.Normal
import Storefront.Proofs.Codec.Omitted
import Storefront.Proofs.Codec.Registration
import Storefront.Proofs.Codec.Reread
import Storefront.Proofs.Codec.Unwrapped
import Storefront.Proofs.Codec.WellFormed
import Storefront.Proofs.Codec.WireForm
import Storefront.Proofs.Descriptor.Reading
import Storefront.Proofs.Descriptor.RoundTrip
import Storefront.Proofs.Descriptor.Spelling
import Storefront.Proofs.Entries
import Storefront.Proofs.Instant.Calendar
import Storefront.Proofs.Instant.Forms
import Storefront.Proofs.Instant.Loose
import Storefront.Proofs.Instant.Scan
import Storefront.Proofs.Instant.Text
import Storefront.Proofs.Json.Blanks
import Storefront.Proofs.Json.Compact
import Storefront.Proofs.Json.Grammar
import Storefront.Proofs.Json.Machine
import Storefront.Proofs.Json.Decoded
import Storefront.Proofs.Json.Numeral
import Storefront.Proofs.Json.Readable
import Storefront.Proofs.Json.Spaced
import Storefront.Proofs.Json.Weight
import Storefront.Proofs.Json.Within
import Storefront.Proofs.Model.Conversion
import Storefront.Proofs.Model.Settle
import Storefront.Proofs.Model.Within
import Storefront.Proofs.Number.Digits
import Storefront.Proofs.Number.Magnitude
import Storefront.Proofs.Number.Nearest
import Storefront.Proofs.Number.Numeral
import Storefront.Proofs.Number.Rounding
import Storefront.Proofs.Number.Text
import Storefront.Proofs.Outcome
import Storefront.Proofs.Schema.Fits
import Storefront.Proofs.Schema.Held
import Storefront.Proofs.Schema.Members
import Storefront.Proofs.Schema.Omitted
import Storefront.Proofs.Schema.Returned
import Storefront.Proofs.Schema.RoundTrip
import Storefront.Proofs.Text.Basic
import Storefront.Proofs.Text.Casing
import Storefront.Proofs.Text.Order
import Storefront.Proofs.Text.Trim
import Storefront.Proofs.Webhook.Acceptance
import Storefront.Proofs.Webhook.Address
import Storefront.Proofs.Webhook.Canonical
import Storefront.Proofs.Webhook.Headers
import Storefront.Proofs.Webhook.Kinds
import Storefront.Proofs.Webhook.Names
import Storefront.Proofs.Webhook.Origin
import Storefront.Proofs.Webhook.Reformatting
import Storefront.Proofs.Webhook.Signing
import Storefront.Proofs.Webhook.Stages
import Storefront.Proofs.Webhook.StatusNumber
import Storefront.Registry
import Storefront.Schema.Alike
import Storefront.Schema.Basic
import Storefront.Schema.Codec
import Storefront.Schema.Reader
import Storefront.Text.Basic
import Storefront.Text.Quoted
import Storefront.Webhook.Address
import Storefront.Webhook.Basic
import Storefront.Webhook.Event
import Storefront.Webhook.Headers
import Storefront.Webhook.Receiver
import Storefront.Webhook.Signature
