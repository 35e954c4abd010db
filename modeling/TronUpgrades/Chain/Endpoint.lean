import TronUpgrades.Chain.Messages

/-!
# The endpoint, and who is told it

Which of three sources names the endpoint, what is refused of it, how it is
described, and which client carries the requests. A `Platform` is what is
called of the runtime, an `HttpClient` what is behind the two ways to send.
-/

namespace TronUpgrades.Chain

open Text

-- ---------------------------------------------------------------------------
-- The runtime
-- ---------------------------------------------------------------------------

/-- The parts of `new URL(text)`. -/
structure Url where
  protocol : String
  username : String
  password : String
  hostname : String
  port : String
  pathname : String
  search : String
  hash : String
  origin : String
  deriving DecidableEq, Repr

/-- Without user-info, query and fragment. -/
def Url.bare (url : Url) : Url := { url with username := "", password := "", search := "", hash := "" }

structure Platform where
  /-- `new URL(text)`, or its `TypeError`. -/
  parse : String → Option Url
  /-- `JSON.parse(text)`, or its `SyntaxError`. -/
  parseJson : String → Option Value
  arrayLength : Value → Option Nat
  /-- `typeof globalThis.fetch === 'function'` -/
  hasFetch : Bool

abbrev Poster := Nat → JsonRpcRequest → Posted

inductive RequestPayload
  | rpc (id : Nat) (request : JsonRpcRequest)
  /-- The `get` of the native API. -/
  | probe

structure FetchResponse where
  ok : Bool
  status : String
  text : Except Value String

/-- What is behind one handle's `request`, as it is bound, and the global
`fetch`, by what they are asked for. -/
structure HttpClient where
  request : String → RequestPayload → Posted
  fetch : String → Nat → JsonRpcRequest → Except Value FetchResponse

-- ---------------------------------------------------------------------------
-- Reading the handle
-- ---------------------------------------------------------------------------

def readHandlePath (owner : Value) (key path : String) : Except EndpointFailure Value :=
  if !owner.isObjectLike then .error (.handleMalformed path .missing)
  else match owner.peek key with
    | .error _ => .error (.handleMalformed path .threw)
    | .ok .undefined => .error (.handleMalformed path .missing)
    | .ok value => .ok value

/-- The host of the handle, once its shape is as needed. -/
def readRpcHandle (tronWrap : Value) : Except EndpointFailure String := do
  let fullNode ← readHandlePath tronWrap "fullNode" "tronWrap.fullNode"
  if !fullNode.isObjectLike then
    throw (.handleWrongType "tronWrap.fullNode" "TronWeb's HttpProvider object" fullNode)
  let host ← readHandlePath fullNode "host" "tronWrap.fullNode.host"
  match nonEmptyText host with
  | none =>
    throw (.handleWrongType "tronWrap.fullNode.host" "a non-empty endpoint URL string" host)
  | some text =>
    let request ← readHandlePath fullNode "request" "tronWrap.fullNode.request"
    if request.typeOf ≠ "function" then
      throw (.handleWrongType "tronWrap.fullNode.request" "a request function" request)
    return text

-- ---------------------------------------------------------------------------
-- The endpoint
-- ---------------------------------------------------------------------------

inductive EndpointOrigin
  | argument | environment | derived
  deriving DecidableEq, Repr

def EndpointOrigin.source : EndpointOrigin → String
  | .argument => "the endpointOverride argument"
  | .environment => "the TRONBOX_UPGRADES_RPC_URL environment variable"
  | .derived => "the network's configured fullHost/fullNode"

def derivedRpcPath : String := "jsonrpc"

def nativeApiProbePath : String := "wallet/getnowblock"

/-- `value.replace(/\/+$/, '')` -/
def stripTrailingSlashes (value : String) : String :=
  .ofList (value.toList.reverse.dropWhile (· = '/')).reverse

/-- Scheme, host, port and path. -/
def scrubEndpoint (url : Url) : String :=
  url.protocol ++ "//" ++ url.hostname ++ (if url.port = "" then "" else ":" ++ url.port) ++
    (if url.pathname = "/" then "" else url.pathname)

def parseEndpoint (platform : Platform) (raw source : String) : Except EndpointFailure Url :=
  match platform.parse raw with
  | some url => .ok url
  | none => .error (.endpointRefused source
      ("it is not an absolute URL. An endpoint must include a scheme, as in " ++
        "http://127.0.0.1:8545/jsonrpc"))

/-- The scheme, then the cheatcode path. -/
def assertUsable (url : Url) (source : String) : Except EndpointFailure Unit :=
  let path := stripTrailingSlashes url.pathname
  if url.protocol ≠ "http:" ∧ url.protocol ≠ "https:" then
    .error (.endpointRefused source ("its scheme is \"" ++ url.protocol ++
      "\", and only http and https can carry JSON-RPC to this node"))
  else if "/tre".toList.isSuffixOf path.toList then
    .error (.endpointRefused source ("its path ends in \"/tre\", which is TronBox's own " ++
      "cheatcode namespace and not an Ethereum-compatible JSON-RPC endpoint. On a public " ++
      "network it answers HTTP 405; on a local TRE it answers, which makes the mistake work " ++
      "on one machine and fail on another. Use the node's JSON-RPC path — normally /jsonrpc"))
  else .ok ()

def validateEndpoint (platform : Platform) (raw source : String) : Except EndpointFailure Url := do
  let url ← parseEndpoint platform raw source
  assertUsable url source
  return url

structure EndpointChoice where
  raw : String
  origin : EndpointOrigin

/-- What an operation's endpoint is chosen from. -/
structure EndpointSources where
  tronWrap : Value
  override : Option String
  env : Option String

def chooseEndpoint (host : String) (sources : EndpointSources) : EndpointChoice :=
  match sources.override, sources.env with
  | some raw, _ => ⟨raw, .argument⟩
  | none, some raw => ⟨raw, .environment⟩
  | none, none => ⟨stripTrailingSlashes host ++ "/" ++ derivedRpcPath, .derived⟩

/-- A host that does not parse has another origin. -/
def isSameOriginAsHandle (platform : Platform) (target : Url) (host : String) : Bool :=
  (platform.parse host).any (·.origin = target.origin)

-- ---------------------------------------------------------------------------
-- The transport
-- ---------------------------------------------------------------------------

def parseBody (platform : Platform) (text : String) : Value :=
  (platform.parseJson text).getD (.string text)

def fetchPoster (platform : Platform) (client : HttpClient) (target : String) : Poster :=
  fun id request => do
    let response ← client.fetch target id request
    if !response.ok then
      throw (.record [("message", .string ("HTTP " ++ response.status)),
        ("status", .number response.status)])
    return parseBody platform (← response.text)

def selectPost (platform : Platform) (client : HttpClient) (choice : EndpointChoice) (url : Url)
    (host : String) (explicitPost : Option Poster) : Except EndpointFailure Poster :=
  match explicitPost with
  | some post => .ok post
  | none =>
    if choice.origin = .derived ∨ isSameOriginAsHandle platform url host = true then
      let target := if choice.origin = .derived then derivedRpcPath else choice.raw
      .ok fun id request => client.request target (.rpc id request)
    else if platform.hasFetch then .ok (fetchPoster platform client choice.raw)
    else .error (.endpointRefused choice.origin.source
      ("it names a different origin than the network's own node, and this runtime provides no " ++
        "global fetch to reach it with. The only other transport available here is the node's " ++
        "own HTTP client, and this plugin will not send that client's headers or credentials " ++
        "to a different host. Run on a runtime with fetch, or supply your own transport as " ++
        "the `post` dependency"))

structure ResolvedEndpoint where
  describe : String
  origin : EndpointOrigin
  post : Poster
  probeNativeApi : Except Value Bool

def probeNativeApi (client : HttpClient) : Except Value Bool := do
  let answer ← client.request nativeApiProbePath .probe
  if !answer.isObjectLike then return false
  return match ← answer.peek "blockID" with
    | .undefined => false
    | _ => true

def resolveEndpoint (platform : Platform) (client : HttpClient) (sources : EndpointSources)
    (explicitPost : Option Poster) : Except EndpointFailure ResolvedEndpoint := do
  let host ← readRpcHandle sources.tronWrap
  let choice := chooseEndpoint host sources
  let url ← validateEndpoint platform choice.raw choice.origin.source
  let post ← selectPost platform client choice url host explicitPost
  return ⟨scrubEndpoint url, choice.origin, post, probeNativeApi client⟩

def ResolvedEndpoint.channel (resolved : ResolvedEndpoint) : RpcChannel :=
  ⟨resolved.describe, resolved.post⟩

-- ---------------------------------------------------------------------------
-- The probe
-- ---------------------------------------------------------------------------

/-- The message of a failure that says the node does not serve JSON-RPC: the
three classes that are asked for by `instanceof`. -/
def ChainFailure.unavailable (arrayLength : Value → Option Nat) (failure : ChainFailure) :
    Option String :=
  let text := match failure.message arrayLength with
    | .ok (.string text) => some text
    | _ => none
  match failure with
  | .rpc _ _ _ | .transport _ _ _ | .resultShape _ _ _ => text
  | .thrown value => if value.asInstance.isSome then text else none
  | _ => none

/-- The first request; how its own probe ends decides a wording. -/
def probeJsonRpc (platform : Platform) (resolved : ResolvedEndpoint)
    (overrideProbe : Option (Except Value Bool)) : Except EndpointFailure Unit :=
  match resolved.channel.send 1 "eth_chainId" [] with
  | .ok _ => .ok ()
  | .error failure =>
    match failure.unavailable platform.arrayLength with
    | none => .error (.probe failure)
    | some because => .error (.jsonRpcUnavailable resolved.describe
        (((overrideProbe.getD resolved.probeNativeApi).toOption).getD false) because)

def createChainAccess (platform : Platform) (client : HttpClient) (sources : EndpointSources)
    (explicitPost : Option Poster) (overrideProbe : Option (Except Value Bool)) :
    Except EndpointFailure RpcChannel := do
  let resolved ← resolveEndpoint platform client sources explicitPost
  probeJsonRpc platform resolved overrideProbe
  return resolved.channel

end TronUpgrades.Chain
