import Storefront.Proofs.Outcome
import Storefront.Webhook.Receiver

namespace Storefront.Webhook

theorem ok_bind {ε α β : Type} (a : α) (f : α → Except ε β) : (.ok a : Except ε α) >>= f = f a :=
  rfl

variable {s : Settings} {headers : Headers} {raw : String} {body : Json} {w : Webhook}

theorem verify_iff {secret payload expected : String} :
    verify secret payload expected ↔ expected = sign secret payload := by
  rw [verify, sameBytes_iff]
  constructor
  · exact fun h ↦ (Text.bytes_injective h).symm
  · intro h
    rw [h]

theorem checkBody_eq_ok_iff : checkBody raw body = .ok () ↔ body.isFalsy = false := by
  rw [checkBody]
  cases body.isFalsy <;> simp

theorem isSome_ofName?_iff {name : String} :
    (Event.ofName? name).isSome ↔ name ∈ Event.all.map Event.name := by
  simp only [Option.isSome_iff_exists, Event.ofName?_eq_some_iff, List.mem_map]
  constructor
  · intro h
    obtain ⟨e, he⟩ := h
    exact ⟨e, Event.mem_all e, he⟩
  · intro h
    obtain ⟨e, -, he⟩ := h
    exact ⟨e, he⟩

theorem empty_not_event : "" ∉ Event.all.map Event.name := by
  decide

theorem checkType_string {text : String} (h : body.get? "type" = some (.string text)) :
    checkType body = .ok () ↔ text ∈ Event.all.map Event.name := by
  rw [checkType, h, ← isSome_ofName?_iff]
  by_cases ht : text = ""
  · subst ht
    have hn : (Event.ofName? "").isSome = false := by decide
    simp [Json.isFalsy, hn]
  · cases hn : (Event.ofName? text).isSome <;> simp [Json.isFalsy, ht, hn]

theorem checkType_of_not_string (h : ∀ text, body.get? "type" ≠ some (.string text)) :
    checkType body ≠ .ok () := by
  intro hc
  rw [checkType] at hc
  split at hc
  · cases hc
  · next v hv =>
    split at hc
    · cases hc
    · split at hc
      · next text _ => exact h text hv
      · cases hc

theorem typeText_of_not_string {value : Option Json} (h : ∀ text, value ≠ some (.string text)) :
    typeText value = "" := by
  rcases value with _ | v
  · rfl
  · cases v with
    | string text => exact absurd rfl (h text)
    | null | boolean | number | array | object => rfl

/-- A type passes exactly when it is the text of an event; what is falsy or no text is not. -/
theorem checkType_eq_ok_iff :
    checkType body = .ok () ↔ typeText (body.get? "type") ∈ Event.all.map Event.name := by
  by_cases h : ∃ text, body.get? "type" = some (.string text)
  · obtain ⟨text, h⟩ := h
    rw [checkType_string h, h]
    rfl
  · have hn : ∀ text, body.get? "type" ≠ some (.string text) := fun text ht ↦ h ⟨text, ht⟩
    rw [typeText_of_not_string hn]
    exact iff_of_false (checkType_of_not_string hn) empty_not_event

theorem checkSubject_eq_ok_iff :
    checkSubject body = .ok () ↔ ∃ v, body.get? "subject" = some v ∧ v ≠ .null := by
  rw [checkSubject]
  cases body.get? "subject" with
  | none => simp
  | some v => cases v <;> simp

theorem checkOrigin_eq_ok_iff {address? : Option String} :
    checkOrigin address? = .ok () ↔ ∃ a, address? = some a ∧ Origin.isAllowed a := by
  cases address? with
  | none => simp [checkOrigin]
  | some a => cases h : Origin.isAllowed a <;> simp [checkOrigin, h]

theorem checkSignature_eq_ok_iff {signature : String} :
    s.checkSignature w signature = .ok () ↔ signature = sign s.secret w.canonical := by
  rw [Settings.checkSignature, ← verify_iff, Webhook.hasSignature]
  cases verify s.secret w.canonical signature <;> simp

/-- A body that has been read stands for something, and so does its subject. -/
theorem of_ofJson_eq_ok (h : ofJson raw body = .ok w) :
    body.isFalsy = false ∧ (∃ v, body.get? "subject" = some v ∧ v.isFalsy = false) ∧
      w.type = typeText (body.get? "type") := by
  rw [ofJson] at h
  split at h
  · cases h
  · next hb =>
    split at h
    · cases h
    · next v hv =>
      split at h
      · cases h
      · next hf =>
        cases h
        exact ⟨by simpa using hb, ⟨v, hv, by simpa using hf⟩, rfl⟩

/-- The checks before a body is read refuse nothing but unknown types that reading would not
refuse as well. -/
theorem checks_eq_ok_iff (h : ofJson raw body = .ok w) :
    checkBody raw body = .ok () ∧ checkType body = .ok () ∧ checkSubject body = .ok () ↔
      w.type ∈ Event.all.map Event.name := by
  obtain ⟨hb, ⟨v, hv, hf⟩, ht⟩ := of_ofJson_eq_ok h
  have hs : checkSubject body = .ok () := by
    refine checkSubject_eq_ok_iff.2 ⟨v, hv, ?_⟩
    intro h
    rw [h] at hf
    cases hf
  rw [ht, ← checkType_eq_ok_iff]
  exact ⟨fun h ↦ h.2.1, fun h ↦ ⟨checkBody_eq_ok_iff.2 hb, h, hs⟩⟩

/-- Once a body has been read, only its type, the origin and the signature are left to refuse. -/
theorem receive_of_ofJson (hd : decode raw = .ok body) (hw : ofJson raw body = .ok w) :
    s.receive headers raw =
      match headers.find? s.signatureHeader with
      | none => .error .missingSignature
      | some signature => do
        checkType body
        checkOrigin (s.origin? headers)
        s.checkSignature w signature
        return w := by
  obtain ⟨hb, ⟨v, hv, hf⟩, -⟩ := of_ofJson_eq_ok hw
  have hbody : checkBody raw body = .ok () := checkBody_eq_ok_iff.2 hb
  have hsubject : checkSubject body = .ok () := by
    refine checkSubject_eq_ok_iff.2 ⟨v, hv, ?_⟩
    intro h
    rw [h] at hf
    cases hf
  rw [Settings.receive, Settings.signature?]
  cases headers.find? s.signatureHeader with
  | none => rfl
  | some signature =>
    dsimp only
    rw [hd, ok_bind, hbody, ok_bind, hsubject, ok_bind, hw, ok_bind]

/-- A delivery is accepted exactly when it is signed, can be read, is of a known type and comes
from an allowed address; what is accepted is what was read. -/
theorem receive_eq_ok_iff :
    s.receive headers raw = .ok w ↔
      ∃ signature, headers.find? s.signatureHeader = some signature ∧
        parse raw = .ok w ∧
        w.type ∈ Event.all.map Event.name ∧
        (∃ address, (headers.find? s.forwardedHeader <|> headers.find? s.remoteHeader) =
          some address ∧ Origin.isAllowed address) ∧
        signature = String.ofList (Text.hex (Hash.hmacSha256 (Text.bytes s.secret)
          (Text.bytes (String.ofList (Text.hex (Hash.sha256 (Text.bytes w.canonical))))))) := by
  rw [Settings.receive, Settings.signature?]
  cases hsig : headers.find? s.signatureHeader with
  | none => simp
  | some signature =>
    constructor
    · intro h
      obtain ⟨body, hd, h⟩ := bind_eq_ok_iff.1 h
      obtain ⟨⟨⟩, hb, h⟩ := bind_eq_ok_iff.1 h
      obtain ⟨⟨⟩, ht, h⟩ := bind_eq_ok_iff.1 h
      obtain ⟨⟨⟩, hs, h⟩ := bind_eq_ok_iff.1 h
      obtain ⟨v, hw, h⟩ := bind_eq_ok_iff.1 h
      obtain ⟨⟨⟩, ho, h⟩ := bind_eq_ok_iff.1 h
      obtain ⟨⟨⟩, hc, h⟩ := bind_eq_ok_iff.1 h
      cases h
      exact ⟨signature, rfl, bind_eq_ok_iff.2 ⟨body, hd, hw⟩,
        (checks_eq_ok_iff hw).1 ⟨hb, ht, hs⟩, checkOrigin_eq_ok_iff.1 ho,
        checkSignature_eq_ok_iff.1 hc⟩
    · intro h
      obtain ⟨signature', hsig, hp, ht, ho, hc⟩ := h
      cases hsig
      obtain ⟨body, hd, hw⟩ := bind_eq_ok_iff.1 hp
      obtain ⟨hb, ht, hs⟩ := (checks_eq_ok_iff hw).2 ht
      have ho : checkOrigin (s.origin? headers) = .ok () := checkOrigin_eq_ok_iff.2 ho
      have hc : s.checkSignature w signature = .ok () := checkSignature_eq_ok_iff.2 hc
      refine bind_eq_ok_iff.2 ⟨body, hd, ?_⟩
      refine bind_eq_ok_iff.2 ⟨(), hb, bind_eq_ok_iff.2 ⟨(), ht, bind_eq_ok_iff.2 ⟨(), hs, ?_⟩⟩⟩
      refine bind_eq_ok_iff.2 ⟨w, hw, bind_eq_ok_iff.2 ⟨(), ho, bind_eq_ok_iff.2 ⟨(), hc, rfl⟩⟩⟩

end Storefront.Webhook
