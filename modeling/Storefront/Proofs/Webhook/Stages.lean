import Storefront.Proofs.Webhook.Acceptance

namespace Storefront.Webhook

structure Delivery where
  settings : Settings
  headers : Headers
  raw : String

/-- What is asked of a delivery, in this order: that it carries a signature, is JSON, stands for
something, has a type, one of the known ones, has a subject, one that is not null and stands for
something, comes from an allowed address, and carries the right signature. -/
inductive Stage where
  | signed
  | legible
  | filled
  | typed
  | known
  | present
  | given
  | usable
  | allowed
  | genuine
  deriving Repr, DecidableEq

namespace Delivery

variable (d : Delivery)

def receive : Except Rejection Webhook :=
  d.settings.receive d.headers d.raw

def body? : Option Json :=
  (Json.parse d.raw).toOption

def fault? : Option Json.Fault :=
  match Json.parse d.raw with
  | .error fault => some fault
  | .ok _ => none

def member? (key : String) : Option Json :=
  d.body?.bind (·.get? key)

end Delivery

namespace Stage

def all : List Stage :=
  [signed, legible, filled, typed, known, present, given, usable, allowed, genuine]

instance : LT Stage := ⟨fun j k ↦ j.ctorIdx < k.ctorIdx⟩

instance : LE Stage := ⟨fun j k ↦ j.ctorIdx ≤ k.ctorIdx⟩

instance (j k : Stage) : Decidable (j < k) :=
  inferInstanceAs (Decidable (j.ctorIdx < k.ctorIdx))

instance (j k : Stage) : Decidable (j ≤ k) :=
  inferInstanceAs (Decidable (j.ctorIdx ≤ k.ctorIdx))

def View : Stage → Type
  | signed => Bool
  | legible => Option Json.Fault
  | filled => Option String
  | typed | known | present | given | usable => Option Json
  | allowed => Option String
  | genuine => Option String × String × Option String

instance : (k : Stage) → DecidableEq k.View
  | signed => inferInstanceAs (DecidableEq Bool)
  | legible => inferInstanceAs (DecidableEq (Option Json.Fault))
  | filled | allowed => inferInstanceAs (DecidableEq (Option String))
  | typed | known | present | given | usable => inferInstanceAs (DecidableEq (Option Json))
  | genuine => inferInstanceAs (DecidableEq (Option String × String × Option String))

def view (d : Delivery) : (k : Stage) → k.View
  | signed => (d.headers.find? d.settings.signatureHeader).isSome
  | legible => d.fault?
  | filled => (d.body?.filter Json.isFalsy).map fun _ ↦ d.raw
  | typed | known => d.member? "type"
  | present | given | usable => d.member? "subject"
  | allowed => d.settings.origin? d.headers
  | genuine =>
    (d.headers.find? d.settings.signatureHeader, d.settings.secret, d.body?.map Json.text)

/-- The error with which a stage refuses what it sees. Nothing else enters into it. -/
def refusal? : (k : Stage) → k.View → Option Rejection
  | signed, true => none
  | signed, false => some .missingSignature
  | legible, fault? => Option.map (fun fault ↦ .malformedPayload fault.message) fault?
  | filled, raw? => Option.map .malformedPayload raw?
  | typed, type? => if Option.all Json.isFalsy type? then some .missingType else none
  | known, none => none
  | known, some (.string s) =>
    if s ∈ Event.all.map Event.name then none else some (.unrecognizedType s)
  | known, some v => some (.unrecognizedType v.text)
  | present, none => some .missingSubject
  | present, some _ => none
  | given, some .null => some .nullSubject
  | given, _ => none
  | usable, subject? =>
    (Option.filter Json.isFalsy subject?).map fun v ↦ .malformedSubject v.text
  | allowed, none => some (.invalidOrigin "")
  | allowed, some address =>
    if Origin.isAllowed address then none else some (.invalidOrigin address)
  | genuine, (signature?, secret, canonical?) =>
    if signature? = canonical?.map (sign secret) then none else some .invalidSignature

end Stage

def Delivery.FailsAt (d : Delivery) (k : Stage) (e : Rejection) : Prop :=
  k.refusal? (k.view d) = some e ∧ ∀ j < k, j.refusal? (j.view d) = none

def refuse : Option Rejection → Except Rejection Unit
  | none => .ok ()
  | some e => .error e

theorem error_bind {α β : Type} (e : Rejection) (f : α → Except Rejection β) :
    (Except.error e >>= f) = .error e :=
  rfl

theorem refuse_eq_ok_iff {e? : Option Rejection} : refuse e? = .ok () ↔ e? = none := by
  cases e? <;> simp [refuse]

theorem refuse_bind_eq_error_iff {α : Type} {e? : Option Rejection} {e : Rejection}
    {f : Unit → Except Rejection α} :
    refuse e? >>= f = .error e ↔ e? = some e ∨ e? = none ∧ f () = .error e := by
  cases e? with
  | none => simp [refuse, ok_bind]
  | some e' => simp [refuse, error_bind]

variable {d d' : Delivery} {body : Json} {raw : String} {e : Rejection} {k : Stage}

section Checks

theorem checkBody_eq : checkBody raw body =
    refuse (Stage.filled.refusal? (((some body).filter Json.isFalsy).map fun _ ↦ raw)) := by
  rw [checkBody]
  cases h : body.isFalsy <;> simp [Option.filter, h, Stage.refusal?, refuse]

theorem checkType_eq : checkType body =
    refuse (Stage.typed.refusal? (body.get? "type")) >>= fun _ ↦
      refuse (Stage.known.refusal? (body.get? "type")) := by
  rw [checkType]
  cases body.get? "type" with
  | none => rfl
  | some v =>
    cases h : v.isFalsy with
    | true => simp [Stage.refusal?, h, refuse, error_bind]
    | false =>
      cases v with
      | string s =>
        simp only [h, Bool.false_eq_true, if_false, Stage.refusal?, Option.all_some, refuse,
          ok_bind, ← isSome_ofName?_iff]
        cases (Event.ofName? s).isSome <;> rfl
      | null | boolean b | number lexeme | array items | object members =>
        simp [Stage.refusal?, h, refuse, ok_bind]

theorem checkSubject_eq : checkSubject body =
    refuse (Stage.present.refusal? (body.get? "subject")) >>= fun _ ↦
      refuse (Stage.given.refusal? (body.get? "subject")) := by
  rw [checkSubject]
  cases body.get? "subject" with
  | none => rfl
  | some v => cases v <;> rfl

theorem checkOrigin_eq {address? : Option String} :
    checkOrigin address? = refuse (Stage.allowed.refusal? address?) := by
  cases address? with
  | none => rfl
  | some address =>
    cases h : Origin.isAllowed address <;> simp [checkOrigin, Stage.refusal?, h, refuse]

/-- Reading a body with a subject fails at most for what the subject is. -/
theorem ofJson_eq {v : Json} (hb : body.isFalsy = false) (hv : body.get? "subject" = some v) :
    ∃ w, w.canonical = body.text ∧
      ofJson raw body = refuse (Stage.usable.refusal? (some v)) >>= fun _ ↦ .ok w := by
  refine ⟨⟨raw, body.text, body.get? "id", body.get? "type", body.get? "date",
    .ofKind (if v = .array [] then .object [] else v) (.infer (typeText (body.get? "type")))⟩,
    rfl, ?_⟩
  simp only [ofJson, hb, hv, Bool.false_eq_true, if_false, Stage.refusal?, Option.filter_some]
  cases v.isFalsy <;> rfl

theorem checkSignature_eq {s : Settings} {w : Webhook} {signature : String} :
    s.checkSignature w signature =
      refuse (Stage.genuine.refusal? (some signature, s.secret, some w.canonical)) := by
  have h := @checkSignature_eq_ok_iff s w signature
  rw [Settings.checkSignature] at h ⊢
  split at h <;> simp_all [Stage.refusal?, refuse]

end Checks

theorem findSome?_cons_eq_some_iff {α β : Type} {f : α → Option β} {a : α} {as : List α} {b : β} :
    (a :: as).findSome? f = some b ↔ f a = some b ∨ f a = none ∧ as.findSome? f = some b := by
  rw [List.findSome?_cons]
  cases f a <;> simp

/-- The checks made on a delivery are the stages, one after another. -/
theorem receive_eq_error_iff_findSome? :
    d.receive = .error e ↔ Stage.all.findSome? (fun k ↦ k.refusal? (k.view d)) = some e := by
  rw [Delivery.receive, Settings.receive, Settings.signature?]
  simp only [Stage.all, findSome?_cons_eq_some_iff, List.findSome?_nil, Stage.view]
  cases hs : d.headers.find? d.settings.signatureHeader with
  | none => simp [Stage.refusal?]
  | some signature =>
    dsimp only
    cases hp : Json.parse d.raw with
    | error fault =>
      have hd : decode d.raw = .error (.malformedPayload fault.message) := by
        rw [decode, hp]
        rfl
      have hf : d.fault? = some fault := by rw [Delivery.fault?, hp]
      rw [hd, hf, error_bind]
      simp [Stage.refusal?]
    | ok body =>
      have hd : decode d.raw = .ok body := by
        rw [decode, hp]
        rfl
      have hf : d.fault? = none := by rw [Delivery.fault?, hp]
      have hb : d.body? = some body := by rw [Delivery.body?, hp]; rfl
      have hm : ∀ key, d.member? key = body.get? key := by
        intro key
        rw [Delivery.member?, hb, Option.bind_some]
      rw [hd, ok_bind, hf, hb, hm, hm, checkBody_eq, checkType_eq, checkSubject_eq, checkOrigin_eq]
      simp only [bind_assoc, refuse_bind_eq_error_iff, Option.isSome_some, Option.map_some]
      have hsigned : Stage.signed.refusal? true = none := rfl
      have hlegible : Stage.legible.refusal? none = none := rfl
      rw [hsigned, hlegible]
      simp only [reduceCtorEq, false_or, true_and]
      -- the checks of the body are the stages from `filled` to `given`, word for word
      refine or_congr_right (and_congr_right fun hfilled ↦ or_congr_right (and_congr_right fun _ ↦
        or_congr_right (and_congr_right fun _ ↦ or_congr_right (and_congr_right fun hpresent ↦
          or_congr_right (and_congr_right fun _ ↦ ?_)))))
      have hbody : body.isFalsy = false := by
        rwa [← checkBody_eq_ok_iff, checkBody_eq, refuse_eq_ok_iff]
      obtain ⟨v, hv⟩ : ∃ v, body.get? "subject" = some v := by
        cases hv : body.get? "subject" with
        | none =>
          rw [hv] at hpresent
          cases hpresent
        | some v => exact ⟨v, rfl⟩
      obtain ⟨w, hw, ho⟩ := @ofJson_eq body d.raw v hbody hv
      have hreturn : (return w : Except Rejection Webhook) ≠ .error e := by
        intro h
        cases h
      rw [ho, hv]
      simp only [bind_assoc, ok_bind, refuse_bind_eq_error_iff, checkSignature_eq, hw, hreturn]

namespace Stage

theorem mem_all (k : Stage) : k ∈ all := by
  cases k <;> decide

theorem pairwise_all : all.Pairwise (· < ·) := by
  decide

theorem lt_asymm {j k : Stage} (h : j < k) : ¬ k < j :=
  Nat.lt_asymm h

/-- The stages before one are those on its left in the list. -/
theorem mem_left_iff {before after : List Stage} (h : all = before ++ k :: after) {j : Stage} :
    j ∈ before ↔ j < k := by
  have hp := pairwise_all
  rw [h, List.pairwise_append] at hp
  obtain ⟨-, hright, hleft⟩ := hp
  constructor
  · exact fun hj ↦ hleft j hj k List.mem_cons_self
  · intro hj
    have hmem := mem_all j
    rw [h, List.mem_append, List.mem_cons] at hmem
    rcases hmem with hmem | rfl | hmem
    · exact hmem
    · exact absurd hj (lt_asymm hj)
    · exact absurd ((List.pairwise_cons.1 hright).1 j hmem) (lt_asymm hj)

end Stage

theorem exists_failsAt_iff :
    (∃ k, d.FailsAt k e) ↔ Stage.all.findSome? (fun k ↦ k.refusal? (k.view d)) = some e := by
  rw [List.findSome?_eq_some_iff]
  constructor
  · intro h
    obtain ⟨k, hk, hbefore⟩ := h
    obtain ⟨before, after, hall⟩ := List.append_of_mem k.mem_all
    exact ⟨before, k, after, hall, hk, fun j hj ↦ hbefore j ((Stage.mem_left_iff hall).1 hj)⟩
  · intro h
    obtain ⟨before, k, after, hall, hk, hbefore⟩ := h
    exact ⟨k, hk, fun j hj ↦ hbefore j ((Stage.mem_left_iff hall).2 hj)⟩

theorem Delivery.FailsAt.of_view_eq (h : d.FailsAt k e) (hv : ∀ j ≤ k, j.view d' = j.view d) :
    d'.FailsAt k e := by
  obtain ⟨hk, hbefore⟩ := h
  constructor
  · rwa [hv k (Nat.le_refl _)]
  · intro j hj
    rw [hv j (Nat.le_of_lt hj)]
    exact hbefore j hj

def hopeless : Delivery where
  settings := {}
  headers := [("x-signature", "00")]
  raw := "\x7b \"type\": \"made.up\", \"subject\": null \x7d"

def hopeful : Delivery where
  settings := {}
  headers := [("HTTP_X_SIGNATURE", "11"), ("REMOTE_ADDR", "18.209.80.3")]
  raw := "\x7b\"subject\":\x7b\x7d,\"type\":\"made.up\"\x7d"

end Storefront.Webhook
