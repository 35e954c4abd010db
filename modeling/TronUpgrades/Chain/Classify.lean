import TronUpgrades.Js.Value
import TronUpgrades.Text

/-!
# What a node error means

`classifyNodeError` keys on the JSON-RPC code first and reads the message only
within a code. Two of its diagnoses are a normal outcome of a probe; "out of
energy" arrives under the code of a revert and is not one of them.
-/

namespace TronUpgrades.Chain

open Text

inductive TvmDiagnosis
  | noContractAtAddress
  | reverted (revertData : Option String)
  | methodUnsupported
  | argumentRejected
  | unclassified
  deriving DecidableEq, Repr

/-- An untyped value of the chain layer. Its one catch asks for an instance of
`ChainRpcError`, and reads the `diagnosis` of it. -/
abbrev Value := Js.Value TvmDiagnosis

/-- A node error whose code is a number and whose message is a string. -/
structure JsonRpcErrorPayload where
  code : String
  message : String
  data : Value

def jsonrpcInvalidRequest : String := "-32600"
def jsonrpcMethodNotFound : String := "-32601"
def jsonrpcInvalidParams : String := "-32602"
def tvmExecutionError : String := "-32000"

/-- `message.toLowerCase().includes(part)`, of a part that no letter outside of
ASCII lower-cases into. -/
def mentions (message part : String) : Bool := occursIn part.toList (toLowerCase message.toList)

def saysNoContract (message : String) : Bool :=
  mentions message "contract" &&
    (mentions message "not exist" || mentions message "doesn't exist")

def saysReverted (message : String) : Bool := mentions message "revert"

/-- Below java-tron v4.8.1 the data of every error is the text `{}`. -/
def revertData : Value → Option String
  | .string data => if ['0', 'x'].isPrefixOf data.toList then some data else none
  | _ => none

def classifyNodeError (error : JsonRpcErrorPayload) : TvmDiagnosis :=
  if error.code = jsonrpcInvalidRequest then
    if saysNoContract error.message then .noContractAtAddress else .unclassified
  else if error.code = tvmExecutionError then
    if saysReverted error.message then .reverted (revertData error.data) else .unclassified
  else if error.code = jsonrpcMethodNotFound then .methodUnsupported
  else if error.code = jsonrpcInvalidParams then .argumentRejected
  else .unclassified

inductive ProbeReason
  | reverted | noContractAtAddress
  deriving DecidableEq, Repr

def isProbeOutcome : TvmDiagnosis → Bool
  | .noContractAtAddress => true
  | .reverted _ => true
  | .methodUnsupported => false
  | .argumentRejected => false
  | .unclassified => false

def probeReason : TvmDiagnosis → ProbeReason
  | .reverted _ => .reverted
  | _ => .noContractAtAddress

/-- A diagnosis that a probe takes for an answer, and for which. -/
def TvmDiagnosis.Answers (diagnosis : TvmDiagnosis) (because : ProbeReason) : Prop :=
  isProbeOutcome diagnosis = true ∧ probeReason diagnosis = because

/-- What the error itself says: nothing is there, or the call reverted. -/
inductive SaysNo (error : JsonRpcErrorPayload) : ProbeReason → Prop
  | noContract : error.code = "-32600" → mentions error.message "contract" = true →
      mentions error.message "not exist" = true ∨ mentions error.message "doesn't exist" = true →
      SaysNo error .noContractAtAddress
  | reverted : error.code = "-32000" → mentions error.message "revert" = true →
      SaysNo error .reverted

theorem classifyNodeError_answers {error : JsonRpcErrorPayload} {because : ProbeReason} :
    (classifyNodeError error).Answers because ↔ SaysNo error because := by
  constructor
  · rintro ⟨h, rfl⟩
    unfold classifyNodeError at h ⊢
    by_cases hinvalid : error.code = jsonrpcInvalidRequest
    · rw [if_pos hinvalid] at h ⊢
      by_cases hsaid : saysNoContract error.message = true
      · rw [if_pos hsaid]
        simp only [saysNoContract, Bool.and_eq_true, Bool.or_eq_true] at hsaid
        exact .noContract hinvalid hsaid.1 hsaid.2
      · rw [if_neg hsaid] at h
        cases h
    · rw [if_neg hinvalid] at h ⊢
      by_cases hexecution : error.code = tvmExecutionError
      · rw [if_pos hexecution] at h ⊢
        by_cases hsaid : saysReverted error.message = true
        · rw [if_pos hsaid]
          exact .reverted hexecution hsaid
        · rw [if_neg hsaid] at h
          cases h
      · rw [if_neg hexecution] at h
        by_cases hmethod : error.code = jsonrpcMethodNotFound
        · rw [if_pos hmethod] at h
          cases h
        · rw [if_neg hmethod] at h
          by_cases hparams : error.code = jsonrpcInvalidParams
          · rw [if_pos hparams] at h
            cases h
          · rw [if_neg hparams] at h
            cases h
  · rintro (⟨hcode, hcontract, hexist⟩ | ⟨hcode, hrevert⟩)
    · simp [classifyNodeError, jsonrpcInvalidRequest, hcode, saysNoContract, hcontract, hexist,
        TvmDiagnosis.Answers, isProbeOutcome, probeReason]
    · simp [classifyNodeError, jsonrpcInvalidRequest, tvmExecutionError, hcode, saysReverted,
        hrevert, TvmDiagnosis.Answers, isProbeOutcome, probeReason]

end TronUpgrades.Chain
