import Storefront.Client.Call
import Storefront.Proofs.Text.Trim

namespace Storefront.Client

variable {H U : Type}

/-- The answer that a request finds after so many others; no request is answered after the last. -/
def Tape.answerAt (tape : Tape H U) (earlier : Nat) : Except (Failure H U) Response :=
  tape.answers[earlier]?.getD (.error (.invalidBody "no response"))

variable (r : Registry)

namespace Call

def request : Call → Request
  | .call request _ => request
  | .callWithBody request body bodyType _ => { request with body := some (r.toWire body bodyType) }
  | .get path _ => { method := .get, path }
  | .post path s x _ =>
    { method := .post, path, body := some (r.toWire (.ofJson (s.toJson x)) (.named s.name)) }
  | .delete path => { method := .delete, path }

/-- The type for whose sake a call is not sent: that of a body that is not registered. -/
def refused? : Call → Option String
  | .post _ s _ _ => if r.contains s.name then none else some s.name
  | _ => none

def read : Call → Option Json → Except (Failure H U) Reply
  | .call _ type, v => .ok (.value (v.map (r.toModel · type)))
  | .callWithBody _ _ _ type, v => .ok (.value (v.map (r.toModel · type)))
  | .get _ s, v => ((r.decode s (v.getD .null)).mapError .model).map (.record s)
  | .post _ _ _ s, v => ((r.decode s (v.getD .null)).mapError .model).map (.record s)
  | .delete _, _ => .ok .deleted

def ignoresBody : Call → Bool
  | .delete _ => true
  | _ => false

/-- What a call gives for the answer to its request: the first of these rules that applies. -/
def outcome (c : Call) : Except (Failure H U) Response → Except (Failure H U) Reply
  | .error failure => .error failure
  | .ok ⟨status, body⟩ =>
    if status < 200 ∨ 299 < status then .error (.status status body)
    else if c.ignoresBody then .ok .deleted
    else if body.toList.all Text.isBlank then c.read r none
    else match Json.parse body with
    | .error fault => .error (.invalidBody fault.message)
    | .ok v => c.read r (some v)

def result (c : Call) (answer : Except (Failure H U) Response) : Except (Failure H U) Reply :=
  match c.refused? r with
  | some name => .error (.model (.unregistered name))
  | none => c.outcome r answer

end Call

section Session

variable {α β : Type}

theorem run_map (f : α → β) (x : Session H U α) (tape : Tape H U) :
    (f <$> x).run tape = ((x.run tape).1.map f, (x.run tape).2) := by
  rw [ExceptT.run_map]
  rfl

theorem run_liftM_bind {f : α → Session H U β} {g : α → Except (Failure H U) β}
    (h : ∀ a tape, (f a).run tape = (g a, tape)) (x : Except (Failure H U) α) (tape : Tape H U) :
    (liftM x >>= f : Session H U β).run tape = (x.bind g, tape) := by
  cases x with
  | error failure => rfl
  | ok a => exact h a tape

/-- A session that begins with one exchange and goes on with its answer alone. -/
theorem run_exchange_bind {f : Response → Session H U α} {g : Response → Except (Failure H U) α}
    (h : ∀ response tape, (f response).run tape = (g response, tape)) (request : Request)
    (tape : Tape H U) : (exchange request >>= f).run tape =
      ((tape.answerAt 0).bind fun response ↦ response.checked.bind g,
        ⟨tape.answers.tail, tape.sent ++ [request]⟩) := by
  obtain ⟨answers, sent⟩ := tape
  cases answers with
  | nil => rfl
  | cons answer answers =>
    cases answer with
    | error failure => rfl
    | ok response => exact run_liftM_bind h response.checked _

theorem map_bind {γ : Type} (g : β → γ) (x : Except (Failure H U) α) (f : α → Except (Failure H U) β) :
    (x.bind f).map g = x.bind fun a ↦ (f a).map g := by
  cases x <;> rfl

end Session

theorem isEmpty_trim (cs : List Char) : (Text.trim cs).isEmpty = cs.all Text.isBlank := by
  rw [Bool.eq_iff_iff, List.isEmpty_iff, List.all_eq_true, Text.trim_eq_nil_iff]

theorem checked_eq (response : Response) : (response.checked : Except (Failure H U) Response) =
    if response.status < 200 ∨ 299 < response.status then
      .error (.status response.status response.body)
    else .ok response := by
  rw [Response.checked, Response.isSuccess]
  by_cases h : response.status < 200 ∨ 299 < response.status
  · rw [if_pos h, if_neg (by simp; omega)]
  · rw [if_neg h, if_pos (by simp; omega)]

theorem json_eq (response : Response) :
    (response.json : Except (Failure H U) (Option Json)) =
    if response.body.toList.all Text.isBlank then .ok none
    else match Json.parse response.body with
    | .ok v => .ok (some v)
    | .error fault => .error (.invalidBody fault.message) := by
  rw [← isEmpty_trim]
  rfl

variable {r}

/-- The rules for a call that is sent, as the checks that a response goes through. -/
theorem Call.outcome_eq (c : Call) (answer : Except (Failure H U) Response) : c.outcome r answer =
    answer.bind fun response ↦ response.checked.bind fun response ↦
      if c.ignoresBody then .ok .deleted else response.json.bind (c.read r) := by
  cases answer with
  | error failure => rfl
  | ok response =>
    change _ = response.checked.bind _
    rw [checked_eq, outcome]
    by_cases hs : response.status < 200 ∨ 299 < response.status
    · rw [if_pos hs, if_pos hs]
      rfl
    · rw [if_neg hs, if_neg hs]
      change _ = if c.ignoresBody then _ else _
      rw [json_eq]
      split
      · rfl
      · split
        · rfl
        · cases Json.parse response.body <;> rfl

section Styles

theorem run_decodeBody (s : Schema) (response : Response) (tape : Tape H U) :
    (liftM (decodeBody r s response : Except (Failure H U) _) : Session H U _).run tape =
      (response.json.bind fun wire ↦ (r.decode s (wire.getD .null)).mapError .model, tape) :=
  rfl

theorem run_call (request : Request) (type : Descriptor) (tape : Tape H U) :
    (Client.call r request type).run tape =
      ((tape.answerAt 0).bind fun response ↦ response.checked.bind fun response ↦
        response.json.bind fun wire ↦ .ok (wire.map (r.toModel · type)),
        ⟨tape.answers.tail, tape.sent ++ [request]⟩) :=
  run_exchange_bind (fun _ ↦ run_liftM_bind (fun _ _ ↦ rfl) _) _ _

theorem run_get (path : String) (s : Schema) (tape : Tape H U) :
    (Client.get r path s).run tape =
      ((tape.answerAt 0).bind fun response ↦ response.checked.bind fun response ↦
        response.json.bind fun wire ↦ (r.decode s (wire.getD .null)).mapError .model,
        ⟨tape.answers.tail, tape.sent ++ [{ method := .get, path }]⟩) :=
  run_exchange_bind (run_decodeBody s) _ _

theorem run_delete (path : String) (tape : Tape H U) :
    (Client.delete path).run tape =
      ((tape.answerAt 0).bind fun response ↦ response.checked.bind fun _ ↦ .ok (),
        ⟨tape.answers.tail, tape.sent ++ [{ method := .delete, path }]⟩) :=
  run_exchange_bind (fun _ _ ↦ rfl) _ _

theorem run_post (path : String) {bodySchema : Schema} (x : bodySchema.Record) (s : Schema)
    (h : r.contains bodySchema.name) (tape : Tape H U) :
    (Client.post r path bodySchema x s).run tape =
      ((tape.answerAt 0).bind fun response ↦ response.checked.bind fun response ↦
        response.json.bind fun wire ↦ (r.decode s (wire.getD .null)).mapError .model,
        ⟨tape.answers.tail, tape.sent ++ [(Call.post path bodySchema x s).request r]⟩) := by
  have he : r.encode bodySchema x =
      .ok (r.toWire (.ofJson (bodySchema.toJson x)) (.named bodySchema.name)) := if_pos h
  rw [Client.post, he]
  exact run_exchange_bind (run_decodeBody s) _ _

theorem run_post_refused (path : String) {bodySchema : Schema} (x : bodySchema.Record) (s : Schema)
    (h : ¬ r.contains bodySchema.name) (tape : Tape H U) :
    (Client.post r path bodySchema x s).run tape =
      (.error (.model (.unregistered bodySchema.name)), tape) := by
  have he : r.encode bodySchema x = .error (.unregistered bodySchema.name) := if_neg h
  rw [Client.post, he]
  rfl

end Styles

theorem Call.result_of_sent {c : Call} (h : c.refused? r = none) (answer : Except (Failure H U) Response) :
    c.result r answer = answer.bind fun response ↦ response.checked.bind fun response ↦
      if c.ignoresBody then .ok .deleted else response.json.bind (c.read r) := by
  rw [result, h]
  exact c.outcome_eq answer

/-- One call sends its request and takes one answer, or is refused and changes nothing. -/
theorem Call.run_eq (c : Call) (tape : Tape H U) : (c.run r).run tape =
    (c.result r (tape.answerAt 0), if (c.refused? r).isSome then tape
      else ⟨tape.answers.tail, tape.sent ++ [c.request r]⟩) := by
  cases c with
  | call request type =>
    rw [Call.run, run_map, run_call, result_of_sent rfl]
    simp only [map_bind]
    rfl
  | callWithBody request body bodyType type =>
    rw [Call.run, run_map, Client.callWithBody, run_call, result_of_sent rfl]
    simp only [map_bind]
    rfl
  | get path s =>
    rw [Call.run, run_map, run_get, result_of_sent rfl]
    simp only [map_bind]
    rfl
  | post path bodySchema x s =>
    by_cases h : r.contains bodySchema.name
    · have hr : (Call.post path bodySchema x s).refused? r = none := if_pos h
      rw [Call.run, run_map, run_post path x s h, result_of_sent hr, hr]
      simp only [map_bind]
      rfl
    · have hr : (Call.post path bodySchema x s).refused? r = some bodySchema.name := if_neg h
      rw [Call.run, run_map, run_post_refused path x s h, result, hr]
      rfl
  | delete path =>
    have hd : (Call.delete path).run r =
        (fun _ ↦ Reply.deleted) <$> (Client.delete path : Session H U Unit) := bind_pure_comp _ _
    rw [hd, run_map, run_delete, result_of_sent rfl]
    simp only [map_bind]
    rfl

def sending (r : Registry) (calls : List Call) : List Call :=
  calls.filter fun c ↦ (c.refused? r).isNone

theorem sending_cons_of_refused {c : Call} {name : String} (h : c.refused? r = some name)
    (calls : List Call) : sending r (c :: calls) = sending r calls := by
  simp [sending, h]

theorem sending_cons_of_sent {c : Call} (h : c.refused? r = none) (calls : List Call) :
    sending r (c :: calls) = c :: sending r calls := by
  simp [sending, h]

theorem answerAt_tail (tape : Tape H U) (sent : List Request) (earlier : Nat) :
    (⟨tape.answers.tail, sent⟩ : Tape H U).answerAt earlier = tape.answerAt (earlier + 1) := by
  simp [Tape.answerAt]

/-- In a run of calls each one that is sent takes the next answer, and its result depends on nothing
else; one that is refused takes none. -/
theorem runAll_eq (calls : List Call) (tape : Tape H U) : runAll r calls tape =
    (calls.mapIdx fun i c ↦ c.result r (tape.answerAt (sending r (calls.take i)).length),
      ⟨tape.answers.drop (sending r calls).length,
        tape.sent ++ (sending r calls).map (·.request r)⟩) := by
  induction calls generalizing tape with
  | nil => simp [runAll, sending]
  | cons c calls ih =>
    rw [runAll, Call.run_eq]
    dsimp only
    rw [ih, List.mapIdx_cons]
    cases hc : c.refused? r with
    | some name =>
      simp [sending_cons_of_refused hc, show sending r [] = [] from rfl]
    | none =>
      simp [sending_cons_of_sent hc, show sending r [] = [] from rfl, answerAt_tail]

end Storefront.Client
