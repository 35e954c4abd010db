import Mathlib.Algebra.Ring.Nat
import TronUpgrades.Chain.Classify
import TronUpgrades.Checks.Scan

/-!
# One round-trip

The only place that sees an envelope. A poster ends with a value or a thrown
value, and either becomes one `JsonRpcOutcome`. Nothing is caught here but the
rejection itself: where the read of a property raises, that goes through.
-/

namespace TronUpgrades.Chain

open Text

/-- Why a response is no envelope, with what its message names. -/
inductive MalformedEnvelope
  | notAnObject (typeOf : String) (requestId : Nat)
  | errorNotAnError (responseId : String) (requestId : Nat)
  | neitherResultNorError (responseId : String) (requestId : Nat)
  deriving DecidableEq, Repr

inductive TransportFailure
  | unreachable (detail : String)
  | httpStatus (status : String)
  | nonJsonBody (detail : String)
  | malformedEnvelope (detail : MalformedEnvelope)
  | timeout
  deriving DecidableEq, Repr

structure JsonRpcRequest where
  method : String
  params : List Value

inductive JsonRpcOutcome
  | result (result : Value)
  | nodeError (error : JsonRpcErrorPayload)
  | transportFailure (cause : TransportFailure)

/-- What a poster ended with: a resolved body, or what it threw. -/
abbrev Posted := Except Value Value

-- ---------------------------------------------------------------------------
-- Rejections
-- ---------------------------------------------------------------------------

def excerptMaxChars : Nat := 200

/-- `text.length`, in UTF-16 code units. -/
def utf16Length (cs : List Char) : Nat := (cs.map fun c => if c.val < 0x10000 then 1 else 2).sum

/-- `text.slice(0, n)`; a pair that the end cuts in half is left out. -/
def sliceUtf16 : Nat → List Char → List Char
  | _, [] => []
  | n, c :: cs =>
    let width := if c.val < 0x10000 then 1 else 2
    if width ≤ n then c :: sliceUtf16 (n - width) cs else []

def excerpt (text : String) : String :=
  if utf16Length text.toList ≤ excerptMaxChars then text
  else .ofList (sliceUtf16 excerptMaxChars text.toList) ++ "… (" ++
    toString (utf16Length text.toList) ++ " characters total)"

/-- A text that is not empty. -/
def nonEmptyText : Value → Option String
  | .string s => if s = "" then none else some s
  | _ => none

def renderRejection (cause : Value) : Except Value String := do
  match nonEmptyText (← cause.peek "message") with
  | some message => return excerpt message
  | none =>
    match nonEmptyText (← cause.peek "code") with
    | some code => return excerpt code
    | none => return "a " ++ cause.typeOf ++ " with no message"

def timeoutCodes : List String :=
  ["ECONNABORTED", "ETIMEDOUT", "ERR_CANCELED", "UND_ERR_HEADERS_TIMEOUT", "UND_ERR_BODY_TIMEOUT"]

/-- `peek(peek(cause, 'response'), 'status') ?? peek(cause, 'status')` -/
def rejectionStatus (cause : Value) : Except Value Value := do
  let response ← cause.peek "response"
  let status ← response.peek "status"
  if status.isNullish then cause.peek "status" else return status

def classifyRejection (cause : Value) : Except Value TransportFailure := do
  match ← rejectionStatus cause with
  | .number status => return .httpStatus status
  | _ =>
    match ← cause.peek "code" with
    | .string code =>
      if code ∈ timeoutCodes then return .timeout
      return .unreachable (← renderRejection cause)
    | _ => return .unreachable (← renderRejection cause)

-- ---------------------------------------------------------------------------
-- Bodies
-- ---------------------------------------------------------------------------

/-- A text in quotes (its escapes are left out), a number, else the type. -/
def renderId : Value → String
  | .string id => "\"" ++ id ++ "\""
  | .number id => id
  | id => "a " ++ id.typeOf

/-- The `code`, `message` and `data` of an error, in this order. -/
def errorPayload (error : Value) : Except Value (Option JsonRpcErrorPayload) := do
  let code ← error.peek "code"
  let message ← error.peek "message"
  match code, message with
  | .number code, .string message => return some ⟨code, message, ← error.peek "data"⟩
  | _, _ => return none

/-- An object's fields. The id names a response in a diagnosis and never decides
what it is. -/
def readEnvelope (body : Value) (requestId : Nat) : Except Value JsonRpcOutcome := do
  let observedId := renderId (← body.peek "id")
  let error ← body.peek "error"
  -- a proxy that answers `error: null` beside a result has answered a result
  if !error.isNullish then
    match ← errorPayload error with
    | some payload => return .nodeError payload
    | none => return .transportFailure (.malformedEnvelope (.errorNotAnError observedId requestId))
  else if ← body.hasKey "result" then
    return .result (← body.peek "result")
  else
    return .transportFailure (.malformedEnvelope (.neitherResultNorError observedId requestId))

def validateEnvelope (body : Value) (requestId : Nat) : Except Value JsonRpcOutcome :=
  match body with
  | .string text => .ok (.transportFailure (.nonJsonBody (excerpt text)))
  | body =>
    if body.isObjectLike then readEnvelope body requestId
    else .ok (.transportFailure (.malformedEnvelope (.notAnObject body.typeOf requestId)))

/-- One channel; `post` is asked with the id that the counter is at, so that
each of its requests may end in its own way. -/
structure RpcChannel where
  endpoint : String
  poster : Nat → JsonRpcRequest → Posted

/-- Exactly one round-trip. -/
def RpcChannel.post (channel : RpcChannel) (id : Nat) (request : JsonRpcRequest) :
    Except Value JsonRpcOutcome :=
  match channel.poster id request with
  | .ok body => validateEnvelope body id
  | .error cause => (classifyRejection cause).map .transportFailure

-- ---------------------------------------------------------------------------
-- What a reply carries
-- ---------------------------------------------------------------------------

/-- An envelope with a well-formed error: a numeric code and a text. -/
structure CarriesError (body : Value) (payload : JsonRpcErrorPayload) : Prop where
  object : body.isObjectLike = true
  id : ∃ id, body.peek "id" = .ok id
  error : ∃ error, body.peek "error" = .ok error ∧ error.isNullish = false ∧
    error.peek "code" = .ok (.number payload.code) ∧
    error.peek "message" = .ok (.string payload.message) ∧ error.peek "data" = .ok payload.data

/-- An envelope with a result and no error. -/
structure CarriesResult (body result : Value) : Prop where
  object : body.isObjectLike = true
  id : ∃ id, body.peek "id" = .ok id
  error : ∃ error, body.peek "error" = .ok error ∧ error.isNullish = true
  present : body.hasKey "result" = .ok true
  result : body.peek "result" = .ok result

theorem errorPayload_eq_some {error : Value} {payload : JsonRpcErrorPayload} :
    errorPayload error = .ok (some payload) ↔ error.peek "code" = .ok (.number payload.code) ∧
      error.peek "message" = .ok (.string payload.message) ∧
      error.peek "data" = .ok payload.data := by
  unfold errorPayload
  constructor
  · intro h
    obtain ⟨code, hcode, h⟩ := Checks.bind_ok.mp h
    obtain ⟨message, hmessage, h⟩ := Checks.bind_ok.mp h
    split at h
    · obtain ⟨data, hdata, h⟩ := Checks.bind_ok.mp h
      cases h
      exact ⟨hcode, hmessage, hdata⟩
    · cases h
  · rintro ⟨hcode, hmessage, hdata⟩
    simp only [hcode, hmessage, hdata]
    rfl

theorem validateEnvelope_object {body : Value} (h : body.isObjectLike = true) (requestId : Nat) :
    validateEnvelope body requestId = readEnvelope body requestId := by
  cases body with
  | object callable instance? has get => rfl
  | _ => cases h

theorem validateEnvelope_other {body : Value} (h : body.isObjectLike = false) (requestId : Nat) :
    ∃ cause, validateEnvelope body requestId = .ok (.transportFailure cause) := by
  cases body with
  | object callable instance? has get => cases h
  | string text => exact ⟨_, rfl⟩
  | _ => exact ⟨_, rfl⟩

theorem validateEnvelope_nodeError {body : Value} {requestId : Nat}
    {payload : JsonRpcErrorPayload} :
    validateEnvelope body requestId = .ok (.nodeError payload) ↔ CarriesError body payload := by
  constructor
  · intro h
    cases hobject : body.isObjectLike with
    | false =>
      obtain ⟨cause, hcause⟩ := validateEnvelope_other hobject requestId
      rw [hcause] at h
      cases h
    | true =>
      rw [validateEnvelope_object hobject, readEnvelope] at h
      obtain ⟨id, hid, h⟩ := Checks.bind_ok.mp h
      obtain ⟨error, herror, h⟩ := Checks.bind_ok.mp h
      cases hnull : error.isNullish with
      | false =>
        rw [hnull] at h
        obtain ⟨found, hfound, h⟩ := Checks.bind_ok.mp h
        cases found with
        | none => cases h
        | some found =>
          cases h
          exact ⟨hobject, ⟨id, hid⟩, error, herror, hnull, errorPayload_eq_some.mp hfound⟩
      | true =>
        rw [hnull] at h
        obtain ⟨present, hpresent, h⟩ := Checks.bind_ok.mp h
        cases present with
        | false => cases h
        | true =>
          obtain ⟨result, -, h⟩ := Checks.bind_ok.mp h
          cases h
  · rintro ⟨hobject, ⟨id, hid⟩, error, herror, hnull, hreads⟩
    rw [validateEnvelope_object hobject, readEnvelope, hid, herror]
    have hpayload := errorPayload_eq_some.mpr hreads
    simp only [bind, Except.bind, hnull, Bool.not_false, if_true, hpayload]
    rfl

theorem validateEnvelope_result {body result : Value} {requestId : Nat} :
    validateEnvelope body requestId = .ok (.result result) ↔ CarriesResult body result := by
  constructor
  · intro h
    cases hobject : body.isObjectLike with
    | false =>
      obtain ⟨cause, hcause⟩ := validateEnvelope_other hobject requestId
      rw [hcause] at h
      cases h
    | true =>
      rw [validateEnvelope_object hobject, readEnvelope] at h
      obtain ⟨id, hid, h⟩ := Checks.bind_ok.mp h
      obtain ⟨error, herror, h⟩ := Checks.bind_ok.mp h
      cases hnull : error.isNullish with
      | false =>
        rw [hnull] at h
        obtain ⟨found, -, h⟩ := Checks.bind_ok.mp h
        cases found <;> cases h
      | true =>
        rw [hnull] at h
        obtain ⟨present, hpresent, h⟩ := Checks.bind_ok.mp h
        cases present with
        | false => cases h
        | true =>
          obtain ⟨found, hfound, h⟩ := Checks.bind_ok.mp h
          cases h
          exact ⟨hobject, ⟨id, hid⟩, ⟨error, herror, hnull⟩, hpresent, hfound⟩
  · rintro ⟨hobject, ⟨id, hid⟩, ⟨error, herror, hnull⟩, hpresent, hresult⟩
    rw [validateEnvelope_object hobject, readEnvelope, hid, herror]
    simp only [bind, Except.bind, hnull, Bool.not_true, hpresent, hresult]
    rfl

section
variable {channel : RpcChannel} {id : Nat} {request : JsonRpcRequest}

/-- A rejection is a transport failure and nothing else. -/
theorem RpcChannel.post_nodeError {payload : JsonRpcErrorPayload} :
    channel.post id request = .ok (.nodeError payload) ↔
      ∃ body, channel.poster id request = .ok body ∧ CarriesError body payload := by
  unfold RpcChannel.post
  cases channel.poster id request with
  | ok body => simp [validateEnvelope_nodeError]
  | error cause =>
    cases hclass : classifyRejection cause <;> simp [hclass, Except.map]

theorem RpcChannel.post_result {result : Value} :
    channel.post id request = .ok (.result result) ↔
      ∃ body, channel.poster id request = .ok body ∧ CarriesResult body result := by
  unfold RpcChannel.post
  cases channel.poster id request with
  | ok body => simp [validateEnvelope_result]
  | error cause =>
    cases hclass : classifyRejection cause <;> simp [hclass, Except.map]

end

end TronUpgrades.Chain
