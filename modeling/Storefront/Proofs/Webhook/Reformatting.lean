import Storefront.Proofs.Json.Spaced
import Storefront.Proofs.Webhook.Acceptance

namespace Storefront.Webhook

def withRaw (w : Webhook) (raw : String) : Webhook :=
  { w with raw }

variable {raw r : String} {body : Json} {w : Webhook}

theorem decode_eq_ok_iff : decode raw = .ok body ↔ Json.parse raw = .ok body := by
  rw [decode]
  cases Json.parse raw <;> simp [Except.mapError]

theorem parse_eq_ok_iff :
    parse raw = .ok w ↔ ∃ body, Json.parse raw = .ok body ∧ ofJson raw body = .ok w := by
  simp only [parse, bind_eq_ok_iff, decode_eq_ok_iff]

theorem fields_of_ofJson (h : ofJson raw body = .ok w) :
    w.raw = raw ∧ w.canonical = body.text ∧ ∀ r, ofJson r body = .ok (w.withRaw r) := by
  obtain ⟨hb, ⟨v, hv, hf⟩, -⟩ := of_ofJson_eq_ok h
  have hall : ∀ r, ofJson r body = .ok (w.withRaw r) ∧ w.canonical = body.text := by
    intro r
    rw [ofJson, hb, hv] at h ⊢
    simp only [hf, Bool.false_eq_true, if_false] at h ⊢
    cases h
    exact ⟨rfl, rfl⟩
  have hraw := (hall raw).1
  rw [h] at hraw
  exact ⟨congrArg Webhook.raw (Except.ok.inj hraw), (hall raw).2, fun r ↦ (hall r).1⟩

/-- The type tells what the subject is for, and an empty list stands for an empty object. -/
theorem subject_of_ofJson (h : ofJson raw body = .ok w) : ∃ v, body.get? "subject" = some v ∧
    w.subject = .ofKind (if v = .array [] then .object [] else v) (.infer w.type) := by
  obtain ⟨hb, ⟨v, hv, hf⟩, -⟩ := of_ofJson_eq_ok h
  rw [ofJson, hb, hv] at h
  simp only [hf, Bool.false_eq_true, if_false] at h
  cases h
  exact ⟨v, hv, rfl⟩

/-- A text with the same tokens gives the same webhook but for the text itself. -/
theorem parse_of_spaced (hp : Json.parse raw = .ok body) (hw : ofJson raw body = .ok w)
    (hr : Json.Spaced body.tokens r.toList) : parse r = .ok (w.withRaw r) := by
  obtain ⟨-, -, h⟩ := fields_of_ofJson hw
  exact parse_eq_ok_iff.2 ⟨body, Json.parse_of_spaced hp hr, h r⟩

theorem checkSignature_withRaw {s : Settings} (signature : String) :
    s.checkSignature (w.withRaw r) signature = s.checkSignature w signature := by
  rw [Settings.checkSignature, Settings.checkSignature, hasSignature, hasSignature]
  rfl

theorem receive_of_spaced {s : Settings} {headers : Headers} (hp : Json.parse raw = .ok body)
    (hw : ofJson raw body = .ok w) (hr : Json.Spaced body.tokens r.toList) :
    s.receive headers r = (s.receive headers raw).map fun w ↦ w.withRaw r := by
  obtain ⟨-, -, h⟩ := fields_of_ofJson hw
  have hd : decode raw = .ok body := decode_eq_ok_iff.2 hp
  have hd' : decode r = .ok body := decode_eq_ok_iff.2 (Json.parse_of_spaced hp hr)
  rw [receive_of_ofJson hd hw, receive_of_ofJson hd' (h r)]
  cases headers.find? s.signatureHeader with
  | none => rfl
  | some signature =>
    dsimp only
    rw [checkSignature_withRaw]
    cases checkType body with
    | error e => rfl
    | ok _ =>
      rw [ok_bind, ok_bind]
      cases checkOrigin (s.origin? headers) with
      | error e => rfl
      | ok _ =>
        rw [ok_bind, ok_bind]
        cases s.checkSignature w signature with
        | error e => rfl
        | ok _ => rfl

theorem spaced_text (v : Json) : Json.Spaced v.tokens v.text.toList := by
  rw [Json.text, String.toList_ofList]
  exact .flatten v.tokens

/-- Blanks between the tokens of a body change nothing but the text that is kept of it. -/
theorem parse_reformatted (h : parse raw = .ok w) :
    ∃ v, Json.parse raw = .ok v ∧ w.canonical = v.text ∧
      (∀ r, Json.Spaced v.tokens r.toList →
        parse r = .ok (w.withRaw r) ∧
        (∀ secret signature,
          (w.withRaw r).hasSignature secret signature = w.hasSignature secret signature) ∧
        ∀ (s : Settings) (headers : Headers),
          s.receive headers r = (s.receive headers raw).map fun w ↦ w.withRaw r) ∧
      parse w.canonical = .ok (w.withRaw w.canonical) ∧
      ∀ raw' w', parse raw' = .ok w' → w'.canonical = w.canonical → w' = w.withRaw raw' := by
  obtain ⟨v, hp, hw⟩ := parse_eq_ok_iff.1 h
  obtain ⟨-, hc, -⟩ := fields_of_ofJson hw
  have hfix : parse w.canonical = .ok (w.withRaw w.canonical) := by
    apply parse_of_spaced hp hw
    rw [hc]
    exact spaced_text v
  refine ⟨v, hp, hc, ?_, hfix, ?_⟩
  · intro r hr
    exact ⟨parse_of_spaced hp hw hr, fun _ _ ↦ rfl, fun _ _ ↦ receive_of_spaced hp hw hr⟩
  · intro raw' w' h' hcanonical
    obtain ⟨v', hp', hw'⟩ := parse_eq_ok_iff.1 h'
    obtain ⟨hraw, hc', -⟩ := fields_of_ofJson hw'
    have hfix' : parse w'.canonical = .ok (w'.withRaw w'.canonical) := by
      apply parse_of_spaced hp' hw'
      rw [hc']
      exact spaced_text v'
    rw [hcanonical, hfix] at hfix'
    have hsame : w.withRaw w.canonical = w'.withRaw w.canonical := Except.ok.inj hfix'
    calc w'
      _ = w'.withRaw raw' := by rw [← hraw]; rfl
      _ = (w'.withRaw w.canonical).withRaw raw' := rfl
      _ = (w.withRaw w.canonical).withRaw raw' := by rw [hsame]
      _ = w.withRaw raw' := rfl

def sampleBody : String :=
  "\x7b \"type\": \"payment.completed\",\n  \"subject\": \x7b\"price\": 1E2, \"price\": 10\x7d \x7d"

def sample : Webhook where
  raw := sampleBody
  canonical := "\x7b\"type\":\"payment.completed\",\"subject\":\x7b\"price\":10\x7d\x7d"
  idValue := none
  typeValue := some (.string "payment.completed")
  dateValue := none
  subject := .payment (.object [("price", .number "10")])

theorem parse_sampleBody : parse sampleBody = .ok sample := by
  decide +kernel

theorem parse_reformatted_sample :
    parse sampleBody = .ok sample ∧
    ∃ v, Json.parse sampleBody = .ok v ∧ sample.canonical = v.text ∧
      (∀ r, Json.Spaced v.tokens r.toList →
        parse r = .ok (sample.withRaw r) ∧
        (∀ secret signature,
          (sample.withRaw r).hasSignature secret signature =
            sample.hasSignature secret signature) ∧
        ∀ (s : Settings) (headers : Headers),
          s.receive headers r = (s.receive headers sampleBody).map fun w ↦ w.withRaw r) ∧
      parse sample.canonical = .ok (sample.withRaw sample.canonical) ∧
      ∀ raw' w', parse raw' = .ok w' → w'.canonical = sample.canonical → w' = sample.withRaw raw' :=
  ⟨parse_sampleBody, parse_reformatted parse_sampleBody⟩

end Storefront.Webhook
