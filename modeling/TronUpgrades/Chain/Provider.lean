import TronUpgrades.Chain.Slots
import TronUpgrades.Chain.Transport

/-!
# The adapter

`send` over one channel: which methods are refused before any request, where a
block tag sits, which results must have a shape, and what each outcome of a
round-trip becomes. Every node error raises here; the probes absorb two of them.
-/

namespace TronUpgrades.Chain

open Text Address

inductive ChainFailure
  /-- A read of a value that the poster ended with. -/
  | thrown (value : Value)
  | methodRefused (method because : String)
  | blockTagRefused (method because : String)
  | rpc (method : String) (payload : JsonRpcErrorPayload) (endpoint : String)
  | transport (method : String) (cause : TransportFailure) (endpoint : String)
  | resultShape (method expected : String) (observed : Value)
  | addressUnusable (error : ChainAddressUnusable)
  | slotMalformed (error : ChainSlotMalformed)

/-- `cause instanceof ChainRpcError`, with its diagnosis. -/
def ChainFailure.diagnosis : ChainFailure → Option TvmDiagnosis
  | .rpc _ payload _ => some (classifyNodeError payload)
  | .thrown value => value.asInstance
  | _ => none

-- ---------------------------------------------------------------------------
-- Policy
-- ---------------------------------------------------------------------------

inductive Verdict
  | accept
  | refuse (because : String)
  deriving DecidableEq, Repr

def refusedMethods : List String := ["anvil_metadata", "hardhat_metadata"]

def refusalBecause : String :=
  "this plugin refuses the Hardhat/Anvil dev-instance probes rather than " ++
    "answering them, because a synthesized answer would misreport what chain " ++
    "this is. TRON instance identity is read from the chain itself instead"

def policyFor (method : String) : Verdict :=
  if method ∈ refusedMethods then .refuse refusalBecause else .accept

structure ResultShapeRule where
  describe : String
  accepts : String → Bool

/-- `/^0x[0-9a-fA-F]{1,64}$/`, answering the digits. -/
def hexQuantity? (value : String) : Option (List Char) :=
  match prefixedHex? value.toList with
  | some digits => if 1 ≤ digits.length ∧ digits.length ≤ 64 then some digits else none
  | none => none

/-- `/^0x[0-9a-fA-F]*$/` -/
def isHexData (value : String) : Bool := (prefixedHex? value.toList).isSome

/-- At most sixty-four digits parse to a finite number. -/
def isChainId (value : String) : Bool :=
  match hexQuantity? value with
  | some digits => digits.any (· ≠ '0')
  | none => false

def stringResultMethods : String → Option ResultShapeRule
  | "eth_chainId" => some ⟨"a 0x-prefixed hex quantity that parses to a positive integer", isChainId⟩
  | "web3_clientVersion" => some ⟨"a non-empty string", fun value => value ≠ ""⟩
  | "eth_getStorageAt" => some ⟨"a 0x-prefixed hex storage word", isHexData⟩
  | "eth_getCode" =>
    some ⟨"0x-prefixed hex, or exactly '0x' for an address with no code", isHexData⟩
  | "eth_call" => some ⟨"0x-prefixed hex return data", isHexData⟩
  | _ => none

def blockTagIndex : String → Option Nat
  | "eth_getStorageAt" => some 2
  | "eth_getCode" => some 1
  | "eth_call" => some 1
  | _ => none

def acceptedBlockTag : String := "latest"

def refusedBlockTags : List String := ["pending", "earliest", "finalized", "safe"]

def historicalReadsUnsupported : String :=
  "only \"latest\" is supported: java-tron's Ethereum-compatible " ++
    "state methods answer from present state and cannot serve a historical read"

def tagVerdict (tag : Value) : Verdict :=
  match tag with
  | .string tag =>
    if tag = acceptedBlockTag then .accept
    else if tag ∈ refusedBlockTags then
      .refuse ("the block tag \"" ++ tag ++ "\" is not supported by this node — " ++
        historicalReadsUnsupported)
    else if (hexQuantity? tag).isSome then
      .refuse ("the block height " ++ tag ++ " names a historical block — " ++
        historicalReadsUnsupported)
    else
      .refuse ("\"" ++ tag ++ "\" is not a block tag this plugin forwards — " ++
        historicalReadsUnsupported)
  | .number height =>
    .refuse ("the block height " ++ height ++ " names a historical block — " ++
      historicalReadsUnsupported)
  | .bigint height =>
    .refuse ("the block height " ++ toString height ++ " names a historical block — " ++
      historicalReadsUnsupported)
  | .object false _ _ _ =>
    .refuse ("an EIP-1898 block object was supplied. This node handles one " ++
      "inconsistently and dangerously: eth_call validates the object and then " ++
      "answers from present state with no error, while eth_getCode and " ++
      "eth_getStorageAt reject it as a JSON parse error. " ++ historicalReadsUnsupported)
  | tag =>
    .refuse ("a " ++ tag.typeOf ++ " was supplied where a block tag was expected — " ++
      historicalReadsUnsupported)

def blockTagVerdict (method : String) (params : List Value) : Verdict :=
  match blockTagIndex method with
  | none => .accept
  | some index =>
    match params[index]? with
    | none => .accept
    | some tag => tagVerdict tag

-- ---------------------------------------------------------------------------
-- `send`
-- ---------------------------------------------------------------------------

def requireResultShape (method : String) (value : Value) : Except ChainFailure String :=
  match stringResultMethods method with
  | none => .error (.resultShape method "a shape this plugin declares for it" value)
  | some rule =>
    match value with
    | .string text =>
      if rule.accepts text then .ok text else .error (.resultShape method rule.describe value)
    | _ => .error (.resultShape method rule.describe value)

/-- A refused method or block tag issues no request. -/
def RpcChannel.send (channel : RpcChannel) (id : Nat) (method : String) (params : List Value) :
    Except ChainFailure Value :=
  match policyFor method with
  | .refuse because => .error (.methodRefused method because)
  | .accept =>
    match blockTagVerdict method params with
    | .refuse because => .error (.blockTagRefused method because)
    | .accept =>
      match channel.post id ⟨method, params⟩ with
      | .error value => .error (.thrown value)
      | .ok (.result result) =>
        if (stringResultMethods method).isNone then .ok result
        else (requireResultShape method result).map .string
      | .ok (.nodeError payload) => .error (.rpc method payload channel.endpoint)
      | .ok (.transportFailure cause) => .error (.transport method cause channel.endpoint)

end TronUpgrades.Chain
