import TronUpgrades.Chain.Provider

/-!
# The texts of the chain layer's errors

What each failure of the adapter, and each way of having no endpoint, is
rendered as. Where an endpoint is named, it is by its description.
-/

namespace TronUpgrades.Chain

open Text

/-- `String.prototype.replace(/\.$/, '')` -/
def dropFinalPeriod (text : String) : String :=
  match text.toList.reverse with
  | '.' :: rest => .ofList rest.reverse
  | _ => text

-- ---------------------------------------------------------------------------
-- Values
-- ---------------------------------------------------------------------------

def hexDigitOf (n : Nat) : Char := "0123456789abcdef".toList.getD n '0'

/-- A character inside a JSON text. -/
def jsonEscape (c : Char) : List Char :=
  match c with
  | '"' => ['\\', '"']
  | '\\' => ['\\', '\\']
  | '\n' => ['\\', 'n']
  | '\r' => ['\\', 'r']
  | '\t' => ['\\', 't']
  | c =>
    if c.toNat = 8 then ['\\', 'b']
    else if c.toNat = 12 then ['\\', 'f']
    else if c.toNat < 32 then
      ['\\', 'u', '0', '0', hexDigitOf (c.toNat / 16), hexDigitOf (c.toNat % 16)]
    else [c]

/-- `JSON.stringify` of a text. -/
def jsonText (text : String) : String :=
  .ofList ('"' :: text.toList.flatMap jsonEscape ++ ['"'])

/-- The budget is the one of an excerpt. -/
def bounded (text : String) : String := excerpt text

/-- `arrayLength` is `Array.isArray(value)` with the length. -/
def renderValue (arrayLength : Value → Option Nat) : Value → String
  | .string text => "a string " ++ bounded (jsonText text)
  | .null => "null"
  | value =>
    match arrayLength value with
    | some length => "an array of " ++ toString length ++ " element(s)"
    | none => "a " ++ value.typeOf

def renderedMaxChars : Nat := 80

/-- The bounded form of `slots.ts`. -/
def renderExcerpt (value : String) : String :=
  if utf16Length value.toList ≤ renderedMaxChars then jsonText value
  else jsonText (.ofList (sliceUtf16 renderedMaxChars value.toList)) ++ "… (" ++
    toString (utf16Length value.toList) ++ " characters total)"

-- ---------------------------------------------------------------------------
-- Failures of a request
-- ---------------------------------------------------------------------------

def MalformedEnvelope.detail : MalformedEnvelope → String
  | .notAnObject typeOf requestId => "the response was a " ++ typeOf ++
      " rather than a JSON-RPC object (request id " ++ toString requestId ++ ")"
  | .errorNotAnError responseId requestId => "the response carried an \"error\" that is not a " ++
      "JSON-RPC error object with a numeric code and a string message (response id " ++
      responseId ++ ", request id " ++ toString requestId ++ ")"
  | .neitherResultNorError responseId requestId => "the response had neither a \"result\" nor a " ++
      "well-formed \"error\" (response id " ++ responseId ++ ", request id " ++
      toString requestId ++ ")"

def renderTransportFailure : TransportFailure → String
  | .unreachable detail => "the endpoint did not accept a connection (" ++ bounded detail ++ ")"
  | .httpStatus status => "the endpoint answered HTTP " ++ status ++
      ", which is not a JSON-RPC response"
  | .nonJsonBody detail => "the endpoint answered successfully with a body that is not JSON, " ++
      "which is what a reverse proxy or a web server in front of the node produces rather than " ++
      "the node itself (body: " ++ bounded detail ++ ")"
  | .malformedEnvelope detail => "the response was not a JSON-RPC envelope (" ++
      bounded detail.detail ++ ")"
  | .timeout => "the request timed out. The timeout is the one configured for this network — " ++
      "this plugin sets none of its own"

/-- `error.message`; a value that the poster threw has what it has there. -/
def ChainFailure.message (arrayLength : Value → Option Nat) : ChainFailure → Except Value Value
  | .thrown value => value.peek "message"
  | .methodRefused method because => .ok (.string
      ("This plugin does not answer \"" ++ method ++ "\": " ++ because ++ "."))
  | .blockTagRefused method because => .ok (.string
      ("\"" ++ method ++ "\" cannot be served as requested: " ++ because ++ "."))
  | .rpc method payload endpoint => .ok (.string
      ("The node at " ++ endpoint ++ " refused \"" ++ method ++ "\" with JSON-RPC code " ++
        payload.code ++ ": " ++ bounded payload.message))
  | .transport method cause endpoint => .ok (.string
      ("\"" ++ method ++ "\" could not be completed against " ++ endpoint ++ ": " ++
        renderTransportFailure cause ++ "."))
  | .resultShape method expected observed => .ok (.string
      ("\"" ++ method ++ "\" resolved a value this plugin cannot use: expected " ++ expected ++
        ", received " ++ renderValue arrayLength observed ++ ". The endpoint may not be an " ++
        "Ethereum-compatible JSON-RPC service for this chain."))
  | .addressUnusable error => .ok (.string
      ("This address cannot be used in a JSON-RPC request: " ++ error.because ++
        ". The Ethereum-compatible JSON-RPC service accepts a 20-byte address as " ++
        "0x-prefixed hex, as bare hex, or as 41-prefixed TRON hex — it does not " ++
        "accept TRON's Base58 form. Received " ++ renderExcerpt error.address ++ "."))
  | .slotMalformed error => .ok (.string
      ("A storage word read from the chain is not a 32-byte value carrying a 20-byte address: " ++
        error.because ++ ". Received " ++ renderExcerpt error.word ++ "."))

-- ---------------------------------------------------------------------------
-- No endpoint
-- ---------------------------------------------------------------------------

inductive UnreadableBecause
  | missing | threw
  deriving DecidableEq, Repr

/-- Why there is no chain access. -/
inductive EndpointFailure
  | handleMalformed (expectedPath : String) (because : UnreadableBecause)
  | handleWrongType (expectedPath expected : String) (observed : Value)
  | endpointRefused (source because : String)
  | jsonRpcUnavailable (endpoint : String) (nativeApiReachable : Bool) (because : String)
  /-- The probe's own failure, where it is not the node's. -/
  | probe (failure : ChainFailure)

def chainContext : String :=
  "provided in tronbox migrate, tronbox test migration phase, tronbox test mocha files, " ++
    "tronbox console; absent in plain node"

def declaredTronBoxRange : String := ">=4.8.0"

/-- `EnvironmentIncompleteError` with the one slot. -/
def environmentIncomplete (unsatisfied : String) : String :=
  "The TronBox environment is incomplete:\n- " ++ unsatisfied ++ " (" ++ chainContext ++
    ")\nDeclared TronBox peer range: " ++ declaredTronBoxRange ++ "."

def invariantViolated (detail : String) : String :=
  environmentIncomplete ("slot \"chain\" violates an environment invariant: " ++ detail)

def contextDisclaimer : String :=
  "The chain handle itself was supplied and is well-formed, so the invocation " ++
    "contexts listed at the end of this line are not the cause"

def unavailableLead (endpoint : String) (nativeApiReachable : Bool) : String :=
  if nativeApiReachable then
    "the node answered on its native wallet API, but its Ethereum-compatible JSON-RPC " ++
      "service did not answer at " ++ endpoint
  else "the node answered neither on its native wallet API nor on its " ++
    "Ethereum-compatible JSON-RPC service at " ++ endpoint

def EndpointFailure.message (arrayLength : Value → Option Nat) :
    EndpointFailure → Except Value Value
  | .handleMalformed expectedPath because => .ok (.string (environmentIncomplete
      ("slot \"chain\" received a malformed handle \"tronWrap\": property path \"" ++
        expectedPath ++ "\" " ++
        (if because = .threw then "threw when read" else "is absent"))))
  | .handleWrongType expectedPath expected observed => .ok (.string (invariantViolated
      ("the chain handle's \"" ++ expectedPath ++ "\" is " ++ renderValue arrayLength observed ++
        " rather than " ++ expected ++ ", so this plugin cannot reach the node through it. " ++
        "That is a mismatch between this plugin and the TronBox version that supplied the " ++
        "handle, not something a project setting controls")))
  | .endpointRefused source because => .ok (.string
      ("The JSON-RPC endpoint from " ++ source ++ " cannot be used: " ++ because ++ "."))
  | .jsonRpcUnavailable endpoint nativeApiReachable because => .ok (.string (invariantViolated
      (unavailableLead endpoint nativeApiReachable ++ " — " ++ dropFinalPeriod because ++ ". " ++
        contextDisclaimer ++ ". On a self-hosted java-tron node this service is disabled by " ++
        "default (node.jsonrpc.httpFullNodeEnable) and, when enabled, listens on port 8545 " ++
        "while the wallet API listens on 8090, so a fullHost naming 8090 yields no JSON-RPC. " ++
        "Enable the service, or set TRONBOX_UPGRADES_RPC_URL to its URL")))
  | .probe failure => failure.message arrayLength

end TronUpgrades.Chain
