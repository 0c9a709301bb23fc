import LedgerBook.Http.Exchange
import LedgerBook.Proofs.Json.Path
/-!
What becomes of a query that is sent over HTTP. Apart from its events an exchange is known by what
the session makes of the request: an envelope, or a failure of the client, which carries the status
of the response if there was one. The exceptions are bodies that are no envelope although the status
or their own members promise one, and bodies that are nested too deeply.
-/
namespace LedgerBook

/-! ## Envelopes -/

/-- Whether a value is of a kind that can be gone through. -/
def Json.HasElements : Json → Prop
  | .arr _ => True
  | .obj _ => True
  | .str _ => True
  | _ => False

theorem Json.elements_cases (value : Json) :
    (value.HasElements ∧ ∃ items, value.elements = .ok items) ∨
      ¬ value.HasElements ∧ value.elements = .error .wrongKind := by
  cases value with
  | arr items => exact Or.inl ⟨trivial, _, rfl⟩
  | obj members => exact Or.inl ⟨trivial, _, rfl⟩
  | str text => exact Or.inl ⟨trivial, _, rfl⟩
  | _ => exact Or.inr ⟨id, rfl⟩

/-- Whether a value is an object or missing. -/
def Json.MayBeData : Json → Prop
  | .null => True
  | .obj _ => True
  | _ => False

theorem Json.hasElements_orElse_iff (value : Json) :
    (value.orElse (.arr [])).HasElements ↔ (value.isTruthy = true → value.HasElements) := by
  unfold Json.orElse
  cases value.isTruthy with
  | true => simp only [if_pos, forall_const]
  | false => simp [Json.HasElements]

namespace Envelope

/-- Whether the members of a body are those of an envelope: its data is an object or missing, and
its errors, if they count as given, can be gone through. -/
structure Shaped (members : Json.Members) : Prop where
  data : (Json.Members.get members "data").MayBeData
  errors : (Json.Members.get members "errors").isTruthy = true →
    (Json.Members.get members "errors").HasElements

/-- The data of an envelope, from the member that holds it. -/
def dataOf : Json → Except Failure (Option Json.Members)
  | .null => .ok none
  | .obj data => .ok (some data)
  | other => .error (.client (.dataKind other.kind) none none)

theorem dataOf_cases (value : Json) :
    (value.MayBeData ∧ ∃ data, dataOf value = .ok data) ∨
      ¬ value.MayBeData ∧ ∃ fault, dataOf value = .error (.client fault none none) := by
  cases value with
  | null => exact Or.inl ⟨trivial, _, rfl⟩
  | obj data => exact Or.inl ⟨trivial, _, rfl⟩
  | _ => exact Or.inr ⟨id, _, rfl⟩

theorem ofJson_obj (members : Json.Members) :
    ofJson (.obj members) = dataOf (Json.Members.get members "data") >>= fun data =>
      ((Json.Members.get members "errors").orElse (.arr [])).elements >>= fun errors =>
        .ok ⟨data, errors⟩ := by
  rw [ofJson]
  cases Json.Members.get members "data" <;> rfl

/-- A body is read if it is an object in the shape of an envelope. If it is not, the failure knows
of no status, and for errors that cannot be gone through it is none of the client's. -/
theorem ofJson_cases (payload : Json) :
    (∃ members envelope, payload = .obj members ∧ Shaped members ∧
        ofJson payload = .ok envelope) ∨
      (∀ members, payload = .obj members → ¬ Shaped members) ∧
        ((∃ fault, ofJson payload = .error (.client fault none none)) ∨
          ofJson payload = .error .wrongKind) := by
  cases payload with
  | obj members =>
      rw [ofJson_obj]
      rcases dataOf_cases (Json.Members.get members "data") with
        ⟨isData, data, found⟩ | ⟨noData, fault, refused⟩
      · rcases Json.elements_cases ((Json.Members.get members "errors").orElse (.arr [])) with
          ⟨some, errors, listed⟩ | ⟨none, refused⟩
        · refine Or.inl ⟨members, ⟨data, errors⟩, rfl, ?_, ?_⟩
          · exact ⟨isData, (Json.hasElements_orElse_iff _).mp some⟩
          · rw [found, listed]
            rfl
        · refine Or.inr ⟨?_, Or.inr ?_⟩
          · rintro _ ⟨⟩ shaped
            exact none ((Json.hasElements_orElse_iff _).mpr shaped.errors)
          · rw [found, refused]
            rfl
      · refine Or.inr ⟨?_, Or.inl ⟨fault, ?_⟩⟩
        · rintro _ ⟨⟩ shaped
          exact noData shaped.data
        · rw [refused]
          rfl
  | _ => exact Or.inr ⟨nofun, Or.inl ⟨_, rfl⟩⟩

end Envelope

namespace Http

/-! ## Exchanges without their events -/

namespace ExchangeM

variable {α β : Type}

/-- Whatever was told before it, an exchange comes to a result. -/
def ComesTo (program : ExchangeM α) (result : Except Failure α) : Prop :=
  ∀ events, ∃ later, program.run events =
    match result with
    | .ok value => .ok value later
    | .error failure => .error failure later

variable {program : ExchangeM α} {next : α → ExchangeM β} {value : α} {failure : Failure}
  {result : Except Failure β}

theorem comesTo_pure (value : α) : ComesTo (pure value) (.ok value) :=
  fun events => ⟨events, rfl⟩

theorem comesTo_throw (failure : Failure) :
    ComesTo (throw failure : ExchangeM α) (.error failure) :=
  fun events => ⟨events, rfl⟩

theorem comesTo_lift (result : Except Failure α) : ComesTo (Call.lift result) result := by
  cases result with
  | ok value => exact comesTo_pure value
  | error failure => exact comesTo_throw failure

theorem comesTo_tell (call : Call) (level : Level) (message : Text) (details : Json.Members) :
    ComesTo (call.tell level message details) (.ok ()) :=
  fun _ => ⟨_, rfl⟩

theorem ComesTo.bind (first : ComesTo program (.ok value)) (rest : ComesTo (next value) result) :
    ComesTo (program >>= next) result := by
  intro events
  obtain ⟨between, gives⟩ := first events
  obtain ⟨later, ends⟩ := rest between
  refine ⟨later, ?_⟩
  simp only [EStateM.run_bind, gives]
  exact ends

theorem ComesTo.bind_error (first : ComesTo program (.error failure)) (next : α → ExchangeM β) :
    ComesTo (program >>= next) (.error failure) := by
  intro events
  obtain ⟨later, fails⟩ := first events
  refine ⟨later, ?_⟩
  simp only [EStateM.run_bind, fails]

theorem ComesTo.unique {other : Except Failure α} {result : Except Failure α}
    (comes : ComesTo program result) (comesToo : ComesTo program other) : result = other := by
  obtain ⟨later, here⟩ := comes []
  obtain ⟨laterToo, there⟩ := comesToo []
  rw [here] at there
  cases result <;> cases other <;> cases there <;> rfl

/-- What is told changes nothing about what follows. -/
theorem ComesTo.tell {rest : ExchangeM β} (call : Call) (level : Level) (message : Text)
    (details : Json.Members) (ends : ComesTo rest result) :
    ComesTo (call.tell level message details >>= fun _ => rest) result :=
  (comesTo_tell call level message details).bind ends

end ExchangeM

open ExchangeM

/-! ## Responses -/

/-- The body of a response as a value. -/
def Response.payload (response : Response) : Except Failure Json :=
  match Json.read response.body with
  | .ok payload => .ok payload
  | .error .tooDeep => .error .tooDeep
  | .error fault =>
    .error (.client
      (if isSuccess response.status then .unreadable fault
        else .refusedText response.status response.body fault)
      (some response.status) none)

/-- What a response comes to. -/
def Response.envelope (response : Response) : Except Failure Envelope :=
  if isHtml response.contentType response.body then
    .error (.client .htmlPage (some response.status) none)
  else
    response.payload >>= fun payload =>
      if !isSuccess response.status && !isEnvelope payload then
        .error (.client (.refused response.status payload) (some response.status) none)
      else Envelope.ofJson payload

theorem comesTo_body (call : Call) (response : Response) :
    ComesTo (call.body response) response.payload := by
  unfold Call.body Response.payload
  cases Json.read response.body with
  | ok payload => exact comesTo_pure payload
  | error fault =>
      cases fault with
      | tooDeep => exact comesTo_throw _
      | _ => exact ComesTo.tell call _ _ _ (comesTo_throw _)

theorem comesTo_tellErrors (call : Call) (errors : List Json) :
    ComesTo (call.tellErrors errors) (.ok ()) := by
  cases errors with
  | nil => exact comesTo_pure ()
  | cons first rest => exact comesTo_tell call _ _ _

/-- What is done with the body of a response once it is a value. -/
def Call.judged (call : Call) (response : Response) (payload : Json) : ExchangeM Envelope := do
  if !isSuccess response.status && !isEnvelope payload then
    throw (.client (.refused response.status payload) (some response.status) none)
  let envelope ← lift (Envelope.ofJson payload)
  call.tellErrors envelope.errors
  return envelope

/-- What is done with a response after it was told whether it took long. -/
def Call.inspected (call : Call) (response : Response) (milliseconds : Int) :
    ExchangeM Envelope := do
  call.tell .debug "graphql.response"
    [("status_code", .int response.status), ("duration_ms", .int milliseconds)]
  if isHtml response.contentType response.body then
    call.tell .error "graphql.html_response" [("status_code", .int response.status)]
    throw (.client .htmlPage (some response.status) none)
  let payload ← call.body response
  call.judged response payload

theorem envelope_eq (call : Call) (response : Response) (milliseconds : Int) :
    call.envelope response milliseconds =
      if slowAfter < milliseconds then
        call.tell .warn "graphql.slow_response"
            [("duration_ms", .int milliseconds), ("status_code", .int response.status)] >>=
          fun _ => call.inspected response milliseconds
      else call.inspected response milliseconds :=
  rfl

theorem comesTo_judged (call : Call) (response : Response) (payload : Json) :
    ComesTo (call.judged response payload)
      (if !isSuccess response.status && !isEnvelope payload then
        .error (.client (.refused response.status payload) (some response.status) none)
      else Envelope.ofJson payload) := by
  unfold Call.judged
  split
  · exact (comesTo_throw _).bind_error _
  · cases Envelope.ofJson payload with
    | error failure => exact (comesTo_lift (.error failure)).bind_error _
    | ok envelope =>
        exact (comesTo_lift (.ok envelope)).bind
          ((comesTo_tellErrors call envelope.errors).bind (comesTo_pure envelope))

theorem comesTo_inspected (call : Call) (response : Response) (milliseconds : Int) :
    ComesTo (call.inspected response milliseconds) response.envelope := by
  unfold Call.inspected Response.envelope
  refine ComesTo.tell call _ _ _ ?_
  split
  · exact ComesTo.tell call _ _ _ ((comesTo_throw _).bind_error _)
  · have read := comesTo_body call response
    cases found : response.payload with
    | error failure =>
        rw [found] at read
        exact read.bind_error _
    | ok payload =>
        rw [found] at read
        exact read.bind (comesTo_judged call response payload)

theorem comesTo_envelope (call : Call) (response : Response) (milliseconds : Int) :
    ComesTo (call.envelope response milliseconds) response.envelope := by
  have inspected := comesTo_inspected call response milliseconds
  rw [envelope_eq]
  split
  · exact ComesTo.tell call _ _ _ inspected
  · exact inspected

/-! ## The two outcomes -/

namespace Response

/-- Whether the body of a response is what its status and its members promise: an HTML page, or a
text that is no value, but not for its depth, or a value that is an envelope unless it comes with a
status of failure and without the members of one. -/
def Sound (response : Response) : Prop :=
  isHtml response.contentType response.body = true ∨
    match Json.read response.body with
    | .ok payload =>
      (isSuccess response.status = false ∧ isEnvelope payload = false) ∨
        ∃ members, payload = .obj members ∧ Envelope.Shaped members
    | .error fault => fault ≠ .tooDeep

/-- A response comes to an envelope or to a failure with its status, if it is sound; else to a
failure that knows of no status, or to one that is none of the client's. -/
theorem envelope_cases (response : Response) :
    (response.Sound ∧
        ((∃ envelope, response.envelope = .ok envelope) ∨
          ∃ fault, response.envelope = .error (.client fault (some response.status) none))) ∨
      ¬ response.Sound ∧
        ((∃ fault, response.envelope = .error (.client fault none none)) ∨
          response.envelope = .error .wrongKind ∨ response.envelope = .error .tooDeep) := by
  unfold Sound envelope payload
  by_cases page : isHtml response.contentType response.body = true
  · rw [if_pos page]
    exact Or.inl ⟨Or.inl page, Or.inr ⟨_, rfl⟩⟩
  · rw [if_neg page]
    cases read : Json.read response.body with
    | error fault =>
        cases fault with
        | tooDeep => exact Or.inr ⟨fun sound => sound.elim page (absurd rfl), Or.inr (Or.inr rfl)⟩
        | _ => exact Or.inl ⟨Or.inr Json.ReadFault.noConfusion, Or.inr ⟨_, rfl⟩⟩
    | ok payload =>
        simp only [ok_bind]
        by_cases refused : (!isSuccess response.status && !isEnvelope payload) = true
        · rw [if_pos refused]
          refine Or.inl ⟨Or.inr (Or.inl ?_), Or.inr ⟨_, rfl⟩⟩
          simpa using refused
        · rw [if_neg refused]
          rcases Envelope.ofJson_cases payload with
            ⟨members, envelope, rfl, shaped, read⟩ | ⟨misshapen, fails⟩
          · exact Or.inl ⟨Or.inr (Or.inr ⟨members, rfl, shaped⟩), Or.inl ⟨envelope, read⟩⟩
          · refine Or.inr ⟨?_, fails.imp_right Or.inl⟩
            rintro (isPage | ⟨failed, plain⟩ | ⟨members, same, shaped⟩)
            · exact page isPage
            · rw [failed, plain] at refused
              exact refused rfl
            · exact misshapen members same shaped

theorem envelope_eq_ok_iff {response : Response} {envelope : Envelope} :
    response.envelope = .ok envelope ↔
      isHtml response.contentType response.body = false ∧
        ∃ payload, Json.read response.body = .ok payload ∧
          (isSuccess response.status = true ∨ isEnvelope payload = true) ∧
          Envelope.ofJson payload = .ok envelope := by
  unfold Response.envelope payload
  cases page : isHtml response.contentType response.body with
  | true => simp only [if_pos, reduceCtorEq, false_and]
  | false =>
      cases read : Json.read response.body with
      | error fault => cases fault <;> simp [bind, Except.bind]
      | ok payload =>
          cases isSuccess response.status <;> cases promised : isEnvelope payload <;>
            simp [promised, ok_bind]

end Response

section Runs

variable {call : Call} {arguments : Json.Members} {timing : Timing} {milliseconds : Int}

theorem comesTo_broken (given : call.given = .ok arguments) (name text : Text) :
    ComesTo (call.run (.broken name text) timing)
      (.error (.client (.session name text) none none)) := by
  unfold Call.run
  rw [given]
  exact (comesTo_lift (.ok arguments)).bind
    (.tell call _ _ _ (.tell call _ _ _ (comesTo_throw _)))

theorem comesTo_answered (given : call.given = .ok arguments)
    (elapsed : timing.milliseconds = .ok milliseconds) (response : Response) :
    ComesTo (call.run (.answered response) timing) response.envelope := by
  unfold Call.run
  rw [given, elapsed]
  exact (comesTo_lift (.ok arguments)).bind
    (.tell call _ _ _
      ((comesTo_lift (.ok milliseconds)).bind (comesTo_envelope call response milliseconds)))

/-- Sending a query has two outcomes, whatever the session makes of it: an envelope, or a failure of
the client. A failure of the session itself comes out as one without a status, with the session's
failure as its cause. A sound response comes to an envelope, or to a failure with its status. If a
response is not sound, either its status is lost or the failure is none of the client's. An envelope
is always that of the body. -/
theorem run_two_outcomes (given : call.given = .ok arguments)
    (elapsed : timing.milliseconds = .ok milliseconds) :
    (∀ name text, ComesTo (call.run (.broken name text) timing)
        (.error (.client (.session name text) none none))) ∧
      ∀ response,
        (response.Sound →
          (∃ envelope, ComesTo (call.run (.answered response) timing) (.ok envelope)) ∨
            ∃ fault, ComesTo (call.run (.answered response) timing)
              (.error (.client fault (some response.status) none))) ∧
          (¬ response.Sound →
            (∃ fault, ComesTo (call.run (.answered response) timing)
                (.error (.client fault none none))) ∨
              ComesTo (call.run (.answered response) timing) (.error .wrongKind) ∨
              ComesTo (call.run (.answered response) timing) (.error .tooDeep)) ∧
          ∀ envelope, ComesTo (call.run (.answered response) timing) (.ok envelope) ↔
            isHtml response.contentType response.body = false ∧
              ∃ payload, Json.read response.body = .ok payload ∧
                (isSuccess response.status = true ∨ isEnvelope payload = true) ∧
                Envelope.ofJson payload = .ok envelope := by
  refine ⟨comesTo_broken given, fun response => ?_⟩
  have comes := comesTo_answered given elapsed response
  refine ⟨fun sound => ?_, fun unsound => ?_, fun envelope => ?_⟩
  · rcases response.envelope_cases with ⟨_, ⟨envelope, same⟩ | ⟨fault, same⟩⟩ | ⟨unsound, _⟩
    · exact Or.inl ⟨envelope, same ▸ comes⟩
    · exact Or.inr ⟨fault, same ▸ comes⟩
    · exact absurd sound unsound
  · rcases response.envelope_cases with ⟨sound, _⟩ | ⟨_, ⟨fault, same⟩ | same | same⟩
    · exact absurd sound unsound
    · exact Or.inl ⟨fault, same ▸ comes⟩
    · exact Or.inr (Or.inl (same ▸ comes))
    · exact Or.inr (Or.inr (same ▸ comes))
  · rw [← Response.envelope_eq_ok_iff]
    exact ⟨fun gives => comes.unique gives, fun same => same ▸ comes⟩

end Runs

/-- A call without variables. -/
def bareCall : Call :=
  ⟨"query \x7b ok \x7d", .null, .null⟩

/-- A body that is no value comes with the status of its response, and an envelope counts although
its status is one of failure. -/
theorem run_two_outcomes_of_bad_gateway :
    bareCall.given = .ok [] ∧ (Timing.mk ⟨0⟩ ⟨0⟩).milliseconds = .ok 0 ∧
      (Response.mk 502 none "Bad Gateway").Sound ∧
      (∃ fault, ComesTo (bareCall.run (.answered ⟨502, none, "Bad Gateway"⟩) ⟨⟨0⟩, ⟨0⟩⟩)
        (.error (.client fault (some 502) none))) ∧
      ComesTo
        (bareCall.run (.answered ⟨502, none, "\x7b\"errors\": [1]\x7d"⟩) ⟨⟨0⟩, ⟨0⟩⟩)
        (.ok ⟨none, [.int 1]⟩) := by
  have given : bareCall.given = .ok [] := rfl
  have elapsed : (Timing.mk ⟨0⟩ ⟨0⟩).milliseconds = .ok 0 := rfl
  have unread : Json.read "Bad Gateway" = .error .malformed := rfl
  have read : Json.read "\x7b\"errors\": [1]\x7d" = .ok (.obj [("errors", .arr [.int 1])]) := rfl
  have sound : (Response.mk 502 none "Bad Gateway").Sound := by
    refine Or.inr ?_
    simp only [unread, ne_eq, reduceCtorEq, not_false_eq_true]
  have outcomes := (run_two_outcomes given elapsed).2
  refine ⟨given, elapsed, sound, ?_, ?_⟩
  · rcases (outcomes ⟨502, none, "Bad Gateway"⟩).1 sound with ⟨envelope, gives⟩ | fails
    · obtain ⟨_, payload, found, _⟩ := ((outcomes _).2.2 envelope).mp gives
      rw [unread] at found
      cases found
    · exact fails
  · exact ((outcomes _).2.2 _).mpr ⟨rfl, _, read, Or.inr rfl, rfl⟩

/-- Two responses that are not sound: data that is no object loses the status, and errors that
cannot be gone through are a failure of another kind. -/
theorem run_of_unsound :
    ComesTo
        (bareCall.run (.answered ⟨502, none, "\x7b\"data\": \"x\"\x7d"⟩) ⟨⟨0⟩, ⟨0⟩⟩)
        (.error (.client (.dataKind .str) none none)) ∧
      ComesTo (bareCall.run (.answered ⟨200, none, "\x7b\"errors\": 5\x7d"⟩) ⟨⟨0⟩, ⟨0⟩⟩)
        (.error .wrongKind) := by
  have given : bareCall.given = .ok [] := rfl
  have elapsed : (Timing.mk ⟨0⟩ ⟨0⟩).milliseconds = .ok 0 := rfl
  exact ⟨comesTo_answered given elapsed _, comesTo_answered given elapsed _⟩

end Http

end LedgerBook
