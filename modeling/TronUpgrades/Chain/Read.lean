import TronUpgrades.Chain.Provider

/-!
# Probes

A probe asks a contract what it may not have, so "no" is one of its answers
and a failure to ask is not. `tvmCallOptional` holds the one catch of the
chain layer's readers.
-/

namespace TronUpgrades.Chain

open Address Text

inductive OptionalCallOutcome
  | answered (data : String)
  | noAnswer (because : ProbeReason)
  deriving DecidableEq, Repr

inductive NotABeacon
  | callDidNotAnswer | answerIsNotAnAddress
  deriving DecidableEq, Repr

inductive BeaconRead
  | implementation (address : String)
  | noCodeAtBeacon
  | notABeacon (because : NotABeacon)
  deriving DecidableEq, Repr

/-- `code.replace(/^0x/, '') === ''` -/
def isEmptyCode (code : String) : Bool := code = "" || code = "0x"

namespace RpcChannel

variable (channel : RpcChannel) (id : Nat)

def getCode (address : String) : Except ChainFailure String := do
  let target ← (toRpcAddress address).mapError .addressUnusable
  let code ← channel.send id "eth_getCode" [.string target, .string acceptedBlockTag]
  requireResultShape "eth_getCode" code

def hasCode (address : String) : Except ChainFailure Bool :=
  (channel.getCode id address).map fun code => !isEmptyCode code

/-- No `from` and no `gas`. -/
def callParams (target selector : String) : List Value :=
  [.record [("to", .string target), ("data", .string selector)], .string acceptedBlockTag]

/-- What `tvmCallOptional` tries. -/
def call (address selector : String) : Except ChainFailure String := do
  let target ← (toRpcAddress address).mapError .addressUnusable
  let data ← channel.send id "eth_call" (callParams target selector)
  requireResultShape "eth_call" data

def tvmCallOptional (address selector : String) : Except ChainFailure OptionalCallOutcome :=
  match channel.call id address selector with
  | .ok data => .ok (.answered data)
  | .error cause =>
    match cause.diagnosis with
    | some diagnosis =>
      if isProbeOutcome diagnosis then .ok (.noAnswer (probeReason diagnosis)) else .error cause
    | none => .error cause

def looksLikeProxyAdmin (address : String) : Except ChainFailure Bool := do
  match ← channel.tvmCallOptional id address ownerSelector with
  | .answered data => return looksLikeSlotAddressWord data
  | .noAnswer _ => return false

/-- One request with no code, two with code. -/
def readBeaconImplementation (beacon : String) : Except ChainFailure BeaconRead := do
  if !(← channel.hasCode id beacon) then return .noCodeAtBeacon
  match ← channel.tvmCallOptional (id + 1) beacon implementationSelector with
  | .noAnswer _ => return .notABeacon .callDidNotAnswer
  | .answered data =>
    if !looksLikeSlotAddressWord data then return .notABeacon .answerIsNotAnAddress
    return .implementation (← (slotToAddress data).mapError .slotMalformed)

end RpcChannel

-- ---------------------------------------------------------------------------
-- What a poster said
-- ---------------------------------------------------------------------------

/-- The reply carries a text and no error. -/
def RpcChannel.Says (channel : RpcChannel) (id : Nat) (request : JsonRpcRequest)
    (text : String) : Prop :=
  ∃ body, channel.poster id request = .ok body ∧ CarriesResult body (.string text)

/-- The reply is an error of the node: nothing is there, or the call reverted. -/
def RpcChannel.Denies (channel : RpcChannel) (id : Nat) (request : JsonRpcRequest)
    (because : ProbeReason) : Prop :=
  ∃ body payload, channel.poster id request = .ok body ∧ CarriesError body payload ∧
    SaysNo payload because

/-- A property of what the poster ended with raised such an error itself. -/
def RpcChannel.Poisons (channel : RpcChannel) (id : Nat) (request : JsonRpcRequest)
    (because : ProbeReason) : Prop :=
  ∃ thrown diagnosis, channel.post id request = .error thrown ∧
    thrown.asInstance = some diagnosis ∧ diagnosis.Answers because

section
variable {channel : RpcChannel} {id : Nat} {method : String} {params : List Value}

theorem requireResultShape_ok {value : Value} {text : String} {rule : ResultShapeRule}
    (hrule : stringResultMethods method = some rule) :
    requireResultShape method value = .ok text ↔
      value = .string text ∧ rule.accepts text = true := by
  unfold requireResultShape
  rw [hrule]
  cases value with
  | string s =>
    by_cases h : rule.accepts s = true
    · simp only [h, if_true, Except.ok.injEq, Js.Value.string.injEq]
      exact ⟨fun heq => ⟨heq, heq ▸ h⟩, And.left⟩
    · simp only [h, if_false, Bool.false_eq_true, reduceCtorEq, false_iff, not_and,
        Js.Value.string.injEq]
      rintro rfl
      exact h
  | _ => simp

/-- A method with a shape, forwarded. -/
structure Forwarded (method : String) (params : List Value) (rule : ResultShapeRule) : Prop where
  policy : policyFor method = .accept
  tag : blockTagVerdict method params = .accept
  shape : stringResultMethods method = some rule

variable {rule : ResultShapeRule}

theorem RpcChannel.send_forwarded (h : Forwarded method params rule) :
    channel.send id method params = match channel.post id ⟨method, params⟩ with
      | .error value => .error (.thrown value)
      | .ok (.result result) => (requireResultShape method result).map .string
      | .ok (.nodeError payload) => .error (.rpc method payload channel.endpoint)
      | .ok (.transportFailure cause) => .error (.transport method cause channel.endpoint) := by
  unfold RpcChannel.send
  rw [h.policy, h.tag, h.shape]
  cases channel.post id ⟨method, params⟩ <;> rfl

theorem requireResultShape_error {value : Value} {cause : ChainFailure}
    (h : requireResultShape method value = .error cause) : cause.diagnosis = none := by
  unfold requireResultShape at h
  split at h
  · cases h
    rfl
  · split at h
    · split at h
      · cases h
      · cases h
        rfl
    · cases h
      rfl

theorem map_string_ok {x : Except ChainFailure String} {value : Value}
    (h : x.map .string = .ok value) : ∃ text, x = .ok text ∧ value = .string text := by
  cases x with
  | error e => cases h
  | ok text =>
    cases h
    exact ⟨text, rfl, rfl⟩

/-- Its text has been through the shape rule of the method, twice. -/
theorem RpcChannel.shaped_ok (h : Forwarded method params rule) {text : String} :
    (channel.send id method params >>= requireResultShape method) = .ok text ↔
      channel.Says id ⟨method, params⟩ text ∧ rule.accepts text = true := by
  rw [Checks.bind_ok]
  constructor
  · rintro ⟨value, hsend, hshape⟩
    obtain ⟨rfl, haccepts⟩ := (requireResultShape_ok h.shape).mp hshape
    rw [RpcChannel.send_forwarded h] at hsend
    cases hpost : channel.post id ⟨method, params⟩ with
    | error thrown =>
      rw [hpost] at hsend
      cases hsend
    | ok outcome =>
      rw [hpost] at hsend
      cases outcome with
      | result result =>
        obtain ⟨text', hresult, heq⟩ := map_string_ok hsend
        cases heq
        obtain ⟨rfl, -⟩ := (requireResultShape_ok h.shape).mp hresult
        exact ⟨RpcChannel.post_result.mp hpost, haccepts⟩
      | nodeError payload => cases hsend
      | transportFailure cause => cases hsend
  · rintro ⟨hsaid, haccepts⟩
    have hshape := (requireResultShape_ok h.shape).mpr ⟨rfl, haccepts⟩
    refine ⟨.string text, ?_, hshape⟩
    rw [RpcChannel.send_forwarded h, RpcChannel.post_result.mpr hsaid]
    simp only [hshape, Except.map]

/-- Where a failure is an instance of `ChainRpcError`, the node answered an
error, or the reply held one. -/
theorem RpcChannel.shaped_diagnosis (h : Forwarded method params rule)
    {because : ProbeReason} :
    (∃ cause diagnosis, (channel.send id method params >>= requireResultShape method) =
        .error cause ∧ cause.diagnosis = some diagnosis ∧ diagnosis.Answers because) ↔
      channel.Denies id ⟨method, params⟩ because ∨ channel.Poisons id ⟨method, params⟩ because := by
  rw [RpcChannel.send_forwarded h]
  constructor
  · rintro ⟨cause, diagnosis, herror, hdiagnosis, hanswers⟩
    cases hpost : channel.post id ⟨method, params⟩ with
    | error thrown =>
      rw [hpost] at herror
      cases herror
      exact .inr ⟨thrown, diagnosis, hpost, hdiagnosis, hanswers⟩
    | ok outcome =>
      rw [hpost] at herror
      cases outcome with
      | result result =>
        have herror : ((requireResultShape method result).map .string >>=
          requireResultShape method) = .error cause := herror
        cases hshape : requireResultShape method result with
        | error e =>
          rw [hshape] at herror
          cases herror
          rw [requireResultShape_error hshape] at hdiagnosis
          cases hdiagnosis
        | ok text =>
          rw [hshape] at herror
          rw [requireResultShape_error herror] at hdiagnosis
          cases hdiagnosis
      | nodeError payload =>
        cases herror
        cases hdiagnosis
        obtain ⟨body, hbody, hcarries⟩ := RpcChannel.post_nodeError.mp hpost
        exact .inl ⟨body, payload, hbody, hcarries, classifyNodeError_answers.mp hanswers⟩
      | transportFailure cause =>
        cases herror
        cases hdiagnosis
  · rintro (⟨body, payload, hbody, hcarries, hsaid⟩ | ⟨thrown, diagnosis, hpost, hrest⟩)
    · rw [RpcChannel.post_nodeError.mpr ⟨body, hbody, hcarries⟩]
      exact ⟨_, _, rfl, rfl, classifyNodeError_answers.mpr hsaid⟩
    · rw [hpost]
      exact ⟨_, _, rfl, hrest⟩

end

-- ---------------------------------------------------------------------------
-- The probes
-- ---------------------------------------------------------------------------

section
variable {channel : RpcChannel} {id : Nat} {address target selector : String}

def callRequest (target selector : String) : JsonRpcRequest :=
  ⟨"eth_call", RpcChannel.callParams target selector⟩

def codeRequest (target : String) : JsonRpcRequest :=
  ⟨"eth_getCode", [.string target, .string acceptedBlockTag]⟩

theorem callForwarded (target selector : String) :
    Forwarded "eth_call" (RpcChannel.callParams target selector)
      ⟨"0x-prefixed hex return data", isHexData⟩ where
  policy := rfl
  tag := rfl
  shape := rfl

theorem codeForwarded (target : String) :
    Forwarded "eth_getCode" [.string target, .string acceptedBlockTag]
      ⟨"0x-prefixed hex, or exactly '0x' for an address with no code", isHexData⟩ where
  policy := rfl
  tag := rfl
  shape := rfl

/-- An address that cannot go into a request raises before any. -/
theorem RpcChannel.call_unusable {error : ChainAddressUnusable}
    (h : toRpcAddress address = .error error) :
    channel.call id address selector = .error (.addressUnusable error) := by
  rw [RpcChannel.call, h]
  rfl

theorem RpcChannel.call_usable (h : toRpcAddress address = .ok target) :
    channel.call id address selector =
      (channel.send id "eth_call" (callParams target selector) >>=
        requireResultShape "eth_call") := by
  rw [RpcChannel.call, h]
  rfl

theorem RpcChannel.tvmCallOptional_data {data : String} :
    channel.tvmCallOptional id address selector = .ok (.answered data) ↔
      channel.call id address selector = .ok data := by
  unfold RpcChannel.tvmCallOptional
  cases channel.call id address selector with
  | ok other => simp
  | error cause =>
    cases hdiagnosis : cause.diagnosis with
    | none => simp [hdiagnosis]
    | some diagnosis => by_cases hprobe : isProbeOutcome diagnosis <;> simp [hdiagnosis, hprobe]

theorem RpcChannel.tvmCallOptional_absorbs {because : ProbeReason} :
    channel.tvmCallOptional id address selector = .ok (.noAnswer because) ↔
      ∃ cause diagnosis, channel.call id address selector = .error cause ∧
        cause.diagnosis = some diagnosis ∧ diagnosis.Answers because := by
  unfold RpcChannel.tvmCallOptional TvmDiagnosis.Answers
  cases channel.call id address selector with
  | ok other => simp
  | error cause =>
    cases hdiagnosis : cause.diagnosis with
    | none => simp [hdiagnosis]
    | some diagnosis => by_cases hprobe : isProbeOutcome diagnosis <;> simp [hdiagnosis, hprobe]

/-- Everything that is not an address raises; no request is made. -/
theorem RpcChannel.tvmCallOptional_unusable {error : ChainAddressUnusable}
    (h : toRpcAddress address = .error error) :
    channel.tvmCallOptional id address selector = .error (.addressUnusable error) := by
  rw [RpcChannel.tvmCallOptional, RpcChannel.call_unusable h]
  rfl

theorem RpcChannel.tvmCallOptional_answered (h : toRpcAddress address = .ok target)
    {data : String} :
    channel.tvmCallOptional id address selector = .ok (.answered data) ↔
      channel.Says id (callRequest target selector) data ∧ isHexData data = true := by
  rw [RpcChannel.tvmCallOptional_data, RpcChannel.call_usable h]
  exact RpcChannel.shaped_ok (callForwarded target selector)

theorem RpcChannel.tvmCallOptional_noAnswer (h : toRpcAddress address = .ok target)
    {because : ProbeReason} :
    channel.tvmCallOptional id address selector = .ok (.noAnswer because) ↔
      channel.Denies id (callRequest target selector) because ∨
        channel.Poisons id (callRequest target selector) because := by
  rw [RpcChannel.tvmCallOptional_absorbs, RpcChannel.call_usable h]
  exact RpcChannel.shaped_diagnosis (callForwarded target selector)

theorem isHexData_iff {data : String} : isHexData data = true ↔
    ∃ digits, data.toList = '0' :: 'x' :: digits ∧ digits.all isHexDigit = true := by
  unfold isHexData prefixedHex?
  constructor
  · intro h
    split at h
    next digits hdata =>
      split at h
      next hhex => exact ⟨digits, hdata, hhex⟩
      next => cases h
    next => cases h
  · rintro ⟨digits, hdata, hhex⟩
    rw [hdata]
    simp [hhex]

theorem RpcChannel.tvmCallOptional_hex {data : String}
    (h : channel.tvmCallOptional id address selector = .ok (.answered data)) :
    isHexData data = true := by
  cases htarget : toRpcAddress address with
  | ok target => exact ((RpcChannel.tvmCallOptional_answered htarget).mp h).2
  | error error => cases (RpcChannel.tvmCallOptional_unusable htarget).symm.trans h

theorem RpcChannel.hasCode_ok (h : toRpcAddress address = .ok target) {found : Bool} :
    channel.hasCode id address = .ok found ↔ ∃ code, found = !isEmptyCode code ∧
      channel.Says id (codeRequest target) code ∧ isHexData code = true := by
  have hcode : channel.getCode id address = (channel.send id "eth_getCode"
      [.string target, .string acceptedBlockTag] >>= requireResultShape "eth_getCode") := by
    rw [RpcChannel.getCode, h]
    rfl
  rw [RpcChannel.hasCode, hcode]
  constructor
  · intro hmap
    cases hshaped : channel.send id "eth_getCode" [.string target, .string acceptedBlockTag] >>=
        requireResultShape "eth_getCode" with
    | error cause =>
      rw [hshaped] at hmap
      cases hmap
    | ok code =>
      rw [hshaped] at hmap
      cases hmap
      exact ⟨code, rfl, (RpcChannel.shaped_ok (codeForwarded target)).mp hshaped⟩
  · rintro ⟨code, rfl, hcode⟩
    rw [(RpcChannel.shaped_ok (codeForwarded target)).mpr hcode]
    rfl

/-- A "no" of the node, or one that the reply itself raised. -/
def RpcChannel.No (channel : RpcChannel) (id : Nat) (request : JsonRpcRequest)
    (because : ProbeReason) : Prop :=
  channel.Denies id request because ∨ channel.Poisons id request because

/-- What the verdicts of the probes are worth, of one address and any poster. -/
structure RpcChannel.Honest (channel : RpcChannel) (id : Nat) (address : String) : Prop where
  unusable : ∀ error selector, toRpcAddress address = .error error →
    channel.tvmCallOptional id address selector = .error (.addressUnusable error)
  answered : ∀ target selector data, toRpcAddress address = .ok target →
    (channel.tvmCallOptional id address selector = .ok (.answered data) ↔
      channel.Says id (callRequest target selector) data ∧ isHexData data = true)
  noAnswer : ∀ target selector because, toRpcAddress address = .ok target →
    (channel.tvmCallOptional id address selector = .ok (.noAnswer because) ↔
      channel.No id (callRequest target selector) because)
  /-- Every other end of the poster raises. -/
  raises : ∀ target selector, toRpcAddress address = .ok target →
    (∀ data, ¬ (channel.Says id (callRequest target selector) data ∧ isHexData data = true)) →
    (∀ because, ¬ channel.No id (callRequest target selector) because) →
    ∃ cause, channel.tvmCallOptional id address selector = .error cause
  admin : ∀ target, toRpcAddress address = .ok target →
    (channel.looksLikeProxyAdmin id address = .ok false ↔
      (∃ because, channel.No id (callRequest target ownerSelector) because) ∨
        ∃ data, channel.Says id (callRequest target ownerSelector) data ∧
          isHexData data = true ∧ looksLikeSlotAddressWord data = false)
  noCode : ∀ target, toRpcAddress address = .ok target →
    (channel.readBeaconImplementation id address = .ok .noCodeAtBeacon ↔
      ∃ code, isEmptyCode code = true ∧ channel.Says id (codeRequest target) code ∧
        isHexData code = true)
  notABeacon : ∀ target because, toRpcAddress address = .ok target →
    (channel.readBeaconImplementation id address = .ok (.notABeacon because) ↔
      (∃ code, isEmptyCode code = false ∧ channel.Says id (codeRequest target) code ∧
        isHexData code = true) ∧
      match because with
      | .callDidNotAnswer =>
        ∃ because, channel.No (id + 1) (callRequest target implementationSelector) because
      | .answerIsNotAnAddress =>
        ∃ data, channel.Says (id + 1) (callRequest target implementationSelector) data ∧
          isHexData data = true ∧ looksLikeSlotAddressWord data = false)

theorem RpcChannel.looksLikeProxyAdmin_false :
    channel.looksLikeProxyAdmin id address = .ok false ↔
      (∃ because, channel.tvmCallOptional id address ownerSelector = .ok (.noAnswer because)) ∨
        ∃ data, channel.tvmCallOptional id address ownerSelector = .ok (.answered data) ∧
          looksLikeSlotAddressWord data = false := by
  unfold RpcChannel.looksLikeProxyAdmin
  cases channel.tvmCallOptional id address ownerSelector with
  | error cause => simp [bind, Except.bind]
  | ok outcome => cases outcome <;> simp [bind, Except.bind, pure, Except.pure]

/-- Everything that the beacon reader answers, and when. -/
theorem RpcChannel.readBeaconImplementation_ok {read : BeaconRead} :
    channel.readBeaconImplementation id address = .ok read ↔
      (channel.hasCode id address = .ok false ∧ .noCodeAtBeacon = read) ∨
      channel.hasCode id address = .ok true ∧
        ((∃ because, channel.tvmCallOptional (id + 1) address implementationSelector =
            .ok (.noAnswer because) ∧ .notABeacon .callDidNotAnswer = read) ∨
          ∃ data, channel.tvmCallOptional (id + 1) address implementationSelector =
              .ok (.answered data) ∧
            (looksLikeSlotAddressWord data = false ∧ .notABeacon .answerIsNotAnAddress = read ∨
              ∃ found, slotToAddress data = .ok found ∧ .implementation found = read)) := by
  unfold RpcChannel.readBeaconImplementation
  cases channel.hasCode id address with
  | error cause => simp [bind, Except.bind]
  | ok code =>
    cases code with
    | false => simp [bind, Except.bind, pure, Except.pure]
    | true =>
      cases channel.tvmCallOptional (id + 1) address implementationSelector with
      | error cause => simp [bind, Except.bind]
      | ok outcome =>
        cases outcome with
        | noAnswer because => simp [bind, Except.bind, pure, Except.pure]
        | answered data =>
          cases hword : looksLikeSlotAddressWord data with
          | false =>
            have hnone : ∀ found, slotToAddress data ≠ .ok found := by
              intro found hfound
              rw [slotToAddress_ok.mp ⟨found, hfound⟩] at hword
              cases hword
            simp [bind, Except.bind, pure, Except.pure, hword, hnone]
          | true =>
            obtain ⟨found, hfound⟩ := slotToAddress_ok.mpr hword
            have hmapped : (Except.ok found).mapError ChainFailure.slotMalformed = .ok found := rfl
            simp [bind, Except.bind, pure, Except.pure, hword, hfound, hmapped]

theorem RpcChannel.probes_honest (channel : RpcChannel) (id : Nat) (address : String) :
    channel.Honest id address where
  unusable _ _ h := RpcChannel.tvmCallOptional_unusable h
  answered _ _ _ h := RpcChannel.tvmCallOptional_answered h
  noAnswer _ _ _ h := RpcChannel.tvmCallOptional_noAnswer h
  raises target selector h hsaid hno := by
    cases houtcome : channel.tvmCallOptional id address selector with
    | error cause => exact ⟨cause, rfl⟩
    | ok outcome =>
      cases outcome with
      | answered data =>
        exact absurd ((RpcChannel.tvmCallOptional_answered h).mp houtcome) (hsaid data)
      | noAnswer because =>
        exact absurd ((RpcChannel.tvmCallOptional_noAnswer h).mp houtcome) (hno because)
  admin target h := by
    simp only [RpcChannel.looksLikeProxyAdmin_false, RpcChannel.tvmCallOptional_noAnswer h,
      RpcChannel.tvmCallOptional_answered h, RpcChannel.No, and_assoc]
  noCode target h := by
    rw [RpcChannel.readBeaconImplementation_ok]
    simp [RpcChannel.hasCode_ok h]
  notABeacon target because h := by
    rw [RpcChannel.readBeaconImplementation_ok]
    cases because with
    | callDidNotAnswer =>
      simp [RpcChannel.hasCode_ok h, RpcChannel.tvmCallOptional_noAnswer h, RpcChannel.No]
    | answerIsNotAnAddress =>
      simp [RpcChannel.hasCode_ok h, RpcChannel.tvmCallOptional_answered h, and_assoc]

/-- A body whose `error` is an accessor that throws a `ChainRpcError`. -/
def poisonedBody : Value :=
  .object false none (fun _ => .ok true) fun key =>
    if key = "error" then .error (.object false (some (.reverted none)) (fun _ => .ok false)
      fun _ => .ok .undefined)
    else .ok .undefined

def poisonedChannel : RpcChannel := ⟨"http://127.0.0.1:9090", fun _ _ => .ok poisonedBody⟩

/-- No node error came, and the answer is "no". -/
theorem poisonedChannel_noAnswer :
    poisonedChannel.tvmCallOptional 1 "0x0000000000000000000000000000000000000001"
        ownerSelector = .ok (.noAnswer .reverted) ∧
      ¬ ∃ body payload, poisonedChannel.poster 1
        (callRequest "0x0000000000000000000000000000000000000001" ownerSelector) = .ok body ∧
        CarriesError body payload := by
  constructor
  · rfl
  · rintro ⟨body, payload, hbody, hcarries⟩
    cases hbody
    obtain ⟨error, herror, -⟩ := hcarries.error
    cases herror

end

end TronUpgrades.Chain
