import TronUpgrades.Chain.Endpoint
import TronUpgrades.Effects.World

/-!
# Who carries a request

The same transport as a script: every invocation of the host's own client, of
the global `fetch` and of what is injected is an operation, so that what is sent
where can be said of any run, whatever is answered. `createChainAccess_run` ties
it to the endpoint's own functions. `transport_routed`: the host's client is only
asked for a relative path or for a URL of the host's origin.
-/

namespace TronUpgrades.Chain

open Effects

inductive TransportOp
  /-- `handle.request(target, …)` -/
  | request (target : String) (payload : RequestPayload)
  | fetch (target : String) (id : Nat) (request : JsonRpcRequest)
  /-- `deps.post(payload)` -/
  | post (id : Nat) (request : JsonRpcRequest)
  /-- `deps.probeNativeApi()` -/
  | probe

def Transport : Signature where
  Op := TransportOp
  Reply
    | .request .. | .post .. => Value
    | .fetch .. => FetchResponse
    | .probe => Bool

namespace Routing

-- ---------------------------------------------------------------------------
-- The transport
-- ---------------------------------------------------------------------------

abbrev Poster := Nat → JsonRpcRequest → Script Transport Value Value

section

variable (target : String) (payload : RequestPayload) (id : Nat) (rpc : JsonRpcRequest)

def request : Script Transport Value Value :=
  .perform (S := Transport) (.request target payload)

def fetch : Script Transport Value FetchResponse :=
  .perform (S := Transport) (.fetch target id rpc)

def injectedPost : Script Transport Value Value := .perform (S := Transport) (.post id rpc)

def injectedProbe : Script Transport Value Bool := .perform (S := Transport) .probe

end

def fetchPoster (platform : Platform) (target : String) : Poster := fun id request => do
  let response ← fetch target id request
  if !response.ok then
    throw (.record [("message", .string ("HTTP " ++ response.status)),
      ("status", .number response.status)])
  let text ← Script.ofExcept response.text
  return parseBody platform text

/-- `injected`: there is a `deps.post`. -/
def selectPost (platform : Platform) (choice : EndpointChoice) (url : Url) (host : String)
    (injected : Bool) : Except EndpointFailure Poster :=
  if injected then .ok injectedPost
  else if choice.origin = .derived ∨ isSameOriginAsHandle platform url host = true then
    let target := if choice.origin = .derived then derivedRpcPath else choice.raw
    .ok fun id rpc => request target (.rpc id rpc)
  else if platform.hasFetch then .ok (fetchPoster platform choice.raw)
  else .error (.endpointRefused choice.origin.source
    ("it names a different origin than the network's own node, and this runtime provides no " ++
      "global fetch to reach it with. The only other transport available here is the node's " ++
      "own HTTP client, and this plugin will not send that client's headers or credentials " ++
      "to a different host. Run on a runtime with fetch, or supply your own transport as " ++
      "the `post` dependency"))

structure ResolvedEndpoint where
  describe : String
  origin : EndpointOrigin
  post : Poster

def probeNativeApi : Script Transport Value Bool := do
  let answer ← request nativeApiProbePath .probe
  if !answer.isObjectLike then return false
  let blockId ← Script.ofExcept (answer.peek "blockID")
  return match blockId with
    | .undefined => false
    | _ => true

def resolveEndpoint (platform : Platform) (sources : EndpointSources) (injected : Bool) :
    Except EndpointFailure ResolvedEndpoint := do
  let host ← readRpcHandle sources.tronWrap
  let choice := chooseEndpoint host sources
  let url ← validateEndpoint platform choice.raw choice.origin.source
  let post ← selectPost platform choice url host injected
  return ⟨scrubEndpoint url, choice.origin, post⟩

/-- A refused method or block tag issues no request. -/
def ResolvedEndpoint.send (resolved : ResolvedEndpoint) (id : Nat) (method : String)
    (params : List Value) : Script Transport Value (Except ChainFailure Value) :=
  match policyFor method, blockTagVerdict method params with
  | .accept, .accept => do
    let posted ← (resolved.post id ⟨method, params⟩).attempt
    return RpcChannel.send ⟨resolved.describe, fun _ _ => posted⟩ id method params
  | _, _ => return RpcChannel.send ⟨resolved.describe, fun _ _ => .ok .undefined⟩ id method params

/-- `probed`: there is a `deps.probeNativeApi`. -/
def probeJsonRpc (platform : Platform) (resolved : ResolvedEndpoint) (probed : Bool) :
    Script Transport Value (Except EndpointFailure Unit) := do
  match ← resolved.send 1 "eth_chainId" [] with
  | .ok _ => return .ok ()
  | .error failure =>
    match failure.unavailable platform.arrayLength with
    | none => return .error (.probe failure)
    | some because =>
      let reachable ← (if probed then injectedProbe else probeNativeApi).attempt
      return .error (.jsonRpcUnavailable resolved.describe (reachable.toOption.getD false) because)

def createChainAccess (platform : Platform) (sources : EndpointSources) (injected probed : Bool) :
    Script Transport Value (Except EndpointFailure ResolvedEndpoint) :=
  match resolveEndpoint platform sources injected with
  | .error failure => return .error failure
  | .ok resolved => do
    match ← probeJsonRpc platform resolved probed with
    | .error failure => return .error failure
    | .ok _ => return .ok resolved

/-- Requests one after another, with the ids that the channel counts. -/
def ResolvedEndpoint.sendAll (resolved : ResolvedEndpoint) :
    Nat → List (String × List Value) → Script Transport Value Unit
  | _, [] => return ()
  | id, (method, params) :: calls => do
    let _ ← resolved.send id method params
    resolved.sendAll (id + 1) calls

/-- The chain opened, and then used. -/
def session (platform : Platform) (sources : EndpointSources) (injected probed : Bool)
    (calls : List (String × List Value)) : Script Transport Value Unit := do
  match ← createChainAccess platform sources injected probed with
  | .error _ => return ()
  | .ok resolved => resolved.sendAll 2 calls

-- ---------------------------------------------------------------------------
-- Against a client
-- ---------------------------------------------------------------------------

section
variable (client : HttpClient) (explicitPost : Option Chain.Poster)
  (overrideProbe : Option (Except Value Bool))

def answers : (op : Transport.Op) → Except Value (Transport.Reply op)
  | .request target payload => client.request target payload
  | .fetch target id rpc => client.fetch target id rpc
  | .post id rpc => (explicitPost.getD fun _ _ => .ok .undefined) id rpc
  | .probe => overrideProbe.getD (.ok false)

def ResolvedEndpoint.answered (resolved : ResolvedEndpoint) : Chain.ResolvedEndpoint where
  describe := resolved.describe
  origin := resolved.origin
  post id rpc := (resolved.post id rpc).interpret (answers client explicitPost overrideProbe)
  probeNativeApi := probeNativeApi.interpret (answers client explicitPost overrideProbe)

end

section
variable {platform : Platform} {client : HttpClient} {explicitPost : Option Chain.Poster}
  {overrideProbe : Option (Except Value Bool)} {sources : EndpointSources}

theorem request_interpret (target : String) (payload : RequestPayload) :
    (request target payload).interpret (answers client explicitPost overrideProbe) =
      client.request target payload :=
  Script.interpret_perform (S := Transport) _

theorem fetch_interpret (target : String) (id : Nat) (rpc : JsonRpcRequest) :
    (fetch target id rpc).interpret (answers client explicitPost overrideProbe) =
      client.fetch target id rpc :=
  Script.interpret_perform (S := Transport) _

theorem fetchPoster_interpret (target : String) (id : Nat) (rpc : JsonRpcRequest) :
    (fetchPoster platform target id rpc).interpret (answers client explicitPost overrideProbe) =
      Chain.fetchPoster platform client target id rpc := by
  unfold fetchPoster Chain.fetchPoster
  rw [Script.bind_eq, Script.interpret_bind, fetch_interpret]
  refine bind_congr fun response => ?_
  cases response.ok with
  | false => rfl
  | true =>
    change ((Script.ofExcept response.text).bind _).interpret _ = _
    rw [Script.interpret_bind, Script.interpret_ofExcept]
    rfl

theorem probeNativeApi_interpret :
    probeNativeApi.interpret (answers client explicitPost overrideProbe) =
      Chain.probeNativeApi client := by
  unfold probeNativeApi Chain.probeNativeApi
  rw [Script.bind_eq, Script.interpret_bind, request_interpret]
  refine bind_congr fun answer => ?_
  cases answer.isObjectLike with
  | false => rfl
  | true =>
    change ((Script.ofExcept (answer.peek "blockID")).bind _).interpret _ = _
    rw [Script.interpret_bind, Script.interpret_ofExcept]
    rfl

/-- The posts the two select are one, answered. -/
theorem selectPost_interpret (choice : EndpointChoice) (url : Url) (host : String) :
    (selectPost platform choice url host explicitPost.isSome).map (fun post id rpc =>
      (post id rpc).interpret (answers client explicitPost overrideProbe)) =
      Chain.selectPost platform client choice url host explicitPost := by
  unfold selectPost Chain.selectPost
  cases explicitPost with
  | some post =>
    refine congrArg Except.ok (funext fun id => funext fun rpc => ?_)
    exact Script.interpret_perform (S := Transport) _
  | none =>
    rw [if_neg (by decide)]
    by_cases hown : choice.origin = .derived ∨ isSameOriginAsHandle platform url host = true
    · simp only [if_pos hown]
      refine congrArg Except.ok (funext fun id => funext fun rpc => ?_)
      exact Script.interpret_perform (S := Transport) _
    · simp only [if_neg hown]
      cases platform.hasFetch with
      | false => rfl
      | true =>
        refine congrArg Except.ok (funext fun id => funext fun rpc => ?_)
        exact fetchPoster_interpret choice.raw id rpc

theorem resolveEndpoint_interpret (overrideProbe : Option (Except Value Bool)) :
    (resolveEndpoint platform sources explicitPost.isSome).map
      (·.answered client explicitPost overrideProbe) =
      Chain.resolveEndpoint platform client sources explicitPost := by
  unfold resolveEndpoint Chain.resolveEndpoint
  cases readRpcHandle sources.tronWrap with
  | error failure => rfl
  | ok host =>
    let choice := chooseEndpoint host sources
    change Except.map _ (validateEndpoint platform choice.raw choice.origin.source >>= _) =
      validateEndpoint platform choice.raw choice.origin.source >>= _
    cases validateEndpoint platform choice.raw choice.origin.source with
    | error failure => rfl
    | ok url =>
      change Except.map _ (selectPost platform choice url host explicitPost.isSome >>= _) =
        Chain.selectPost platform client choice url host explicitPost >>= _
      rw [← selectPost_interpret, ← probeNativeApi_interpret]
      cases selectPost platform choice url host explicitPost.isSome with
      | error failure => rfl
      | ok post => rfl

theorem send_interpret (resolved : ResolvedEndpoint) (id : Nat) (method : String)
    (params : List Value) :
    (resolved.send id method params).interpret (answers client explicitPost overrideProbe) =
      .ok ((resolved.answered client explicitPost overrideProbe).channel.send id method params) := by
  unfold ResolvedEndpoint.send
  cases hpolicy : policyFor method with
  | refuse because =>
    change Except.ok _ = _
    unfold RpcChannel.send
    simp only [hpolicy]
  | accept =>
    cases htag : blockTagVerdict method params with
    | refuse because =>
      change Except.ok _ = _
      unfold RpcChannel.send
      simp only [hpolicy, htag]
    | accept =>
      change ((resolved.post id ⟨method, params⟩).attempt.bind _).interpret _ = _
      rw [Script.interpret_bind, Script.interpret_attempt]
      change Except.ok _ = _
      unfold RpcChannel.send
      simp only [hpolicy, htag]
      rfl

theorem probe_interpret :
    (if overrideProbe.isSome then injectedProbe else probeNativeApi).interpret
      (answers client explicitPost overrideProbe) =
      overrideProbe.getD (probeNativeApi.interpret (answers client explicitPost overrideProbe)) := by
  cases overrideProbe with
  | none => rfl
  | some probe => exact Script.interpret_perform (S := Transport) _

theorem probeJsonRpc_interpret (resolved : ResolvedEndpoint) :
    (probeJsonRpc platform resolved overrideProbe.isSome).interpret
      (answers client explicitPost overrideProbe) =
      .ok (Chain.probeJsonRpc platform (resolved.answered client explicitPost overrideProbe)
        overrideProbe) := by
  unfold probeJsonRpc Chain.probeJsonRpc
  rw [Script.bind_eq, Script.interpret_bind, send_interpret]
  change Script.interpret _ _ = _
  cases (resolved.answered client explicitPost overrideProbe).channel.send 1 "eth_chainId" [] with
  | ok value => rfl
  | error failure =>
    cases hunavailable : failure.unavailable platform.arrayLength with
    | none =>
      simp only [hunavailable]
      rfl
    | some because =>
      simp only [hunavailable]
      rw [Script.bind_eq, Script.interpret_bind, Script.interpret_attempt, probe_interpret]
      rfl

theorem createChainAccess_interpret :
    ((createChainAccess platform sources explicitPost.isSome overrideProbe.isSome).interpret
      (answers client explicitPost overrideProbe)).map
      (Except.map fun resolved => (resolved.answered client explicitPost overrideProbe).channel) =
      .ok (Chain.createChainAccess platform client sources explicitPost overrideProbe) := by
  unfold createChainAccess Chain.createChainAccess
  rw [← resolveEndpoint_interpret overrideProbe]
  cases resolveEndpoint platform sources explicitPost.isSome with
  | error failure => rfl
  | ok resolved =>
    change Except.map _
      (((probeJsonRpc platform resolved overrideProbe.isSome).bind _).interpret _) = _
    rw [Script.interpret_bind, probeJsonRpc_interpret]
    change Except.map _ (Script.interpret _ _) = Except.ok
      (Chain.probeJsonRpc platform (resolved.answered client explicitPost overrideProbe)
        overrideProbe >>= _)
    cases Chain.probeJsonRpc platform (resolved.answered client explicitPost overrideProbe)
        overrideProbe with
    | error failure => rfl
    | ok _ => rfl

end

-- ---------------------------------------------------------------------------
-- What is asked of whom
-- ---------------------------------------------------------------------------

/-- No scheme and no authority: what a client resolves against its own base. -/
def isRelativePath (target : String) : Bool :=
  !target.toList.contains ':' && (target.toList.head?.any fun c => c ≠ '/' && c ≠ '\\')

def SameOrigin (platform : Platform) (target host : String) : Prop :=
  ∃ url own, platform.parse target = some url ∧ platform.parse host = some own ∧
    url.origin = own.origin

/-- What the host's own client may be asked for. -/
def Permitted (platform : Platform) (host : String) : TransportOp → Prop
  | .request target _ => isRelativePath target = true ∨ SameOrigin platform target host
  | _ => True

/-- Anything but the host's own client. -/
def Elsewhere : TransportOp → Prop
  | .request .. => False
  | _ => True

/-- What is present of the two sources that name an endpoint, the first of them. -/
def given (sources : EndpointSources) : Option EndpointChoice :=
  match sources.override, sources.env with
  | some raw, _ => some ⟨raw, .argument⟩
  | none, some raw => some ⟨raw, .environment⟩
  | none, none => none

def Usable (url : Url) : Prop :=
  (url.protocol = "http:" ∨ url.protocol = "https:") ∧
    ¬ "/tre".toList <:+ (stripTrailingSlashes url.pathname).toList

theorem choose_given {sources : EndpointSources} {choice : EndpointChoice}
    (h : given sources = some choice) (host : String) :
    chooseEndpoint host sources = choice ∧ choice.origin ≠ .derived := by
  obtain ⟨tronWrap, override, env⟩ := sources
  cases override with
  | some raw =>
    cases h
    exact ⟨rfl, EndpointOrigin.noConfusion⟩
  | none =>
    cases env with
    | some raw =>
      cases h
      exact ⟨rfl, EndpointOrigin.noConfusion⟩
    | none => cases h

theorem assertUsable_cases (url : Url) (source : String) :
    Usable url ∧ assertUsable url source = .ok () ∨
    ¬ Usable url ∧ ∃ because, assertUsable url source = .error (.endpointRefused source because) := by
  unfold assertUsable Usable
  by_cases hscheme : url.protocol ≠ "http:" ∧ url.protocol ≠ "https:"
  · simp only [if_pos hscheme]
    refine .inr ⟨fun h => ?_, _, rfl⟩
    rcases h.1 with hhttp | hhttps
    · exact hscheme.1 hhttp
    · exact hscheme.2 hhttps
  · have hhttp : url.protocol = "http:" ∨ url.protocol = "https:" := by
      by_contra hnot
      exact hscheme (not_or.mp hnot)
    by_cases hpath : "/tre".toList.isSuffixOf (stripTrailingSlashes url.pathname).toList = true
    · simp only [if_neg hscheme, if_pos hpath]
      exact .inr ⟨fun h => h.2 (List.isSuffixOf_iff_suffix.mp hpath), _, rfl⟩
    · simp only [if_neg hscheme, if_neg hpath]
      exact .inl ⟨⟨hhttp, fun h => hpath (List.isSuffixOf_iff_suffix.mpr h)⟩, trivial⟩

section
variable {platform : Platform} {raw source : String}

theorem validateEndpoint_ok {url : Url}
    (h : validateEndpoint platform raw source = .ok url) :
    platform.parse raw = some url ∧ Usable url := by
  unfold validateEndpoint parseEndpoint at h
  cases hparse : platform.parse raw with
  | none =>
    rw [hparse] at h
    cases h
  | some found =>
    rw [hparse] at h
    change (assertUsable found source >>= fun _ => pure found) = _ at h
    rcases assertUsable_cases found source with ⟨husable, hok⟩ | ⟨-, because, herror⟩
    · rw [hok] at h
      cases h
      exact ⟨rfl, husable⟩
    · rw [herror] at h
      cases h

theorem validateEndpoint_refused (source : String)
    (h : ∀ url, platform.parse raw = some url → ¬ Usable url) :
    ∃ because, validateEndpoint platform raw source = .error (.endpointRefused source because) := by
  unfold validateEndpoint parseEndpoint
  cases hparse : platform.parse raw with
  | none => exact ⟨_, rfl⟩
  | some found =>
    rcases assertUsable_cases found source with ⟨husable, -⟩ | ⟨-, because, herror⟩
    · exact absurd husable (h found hparse)
    · refine ⟨because, ?_⟩
      change (assertUsable found source >>= fun _ => pure found) = _
      rw [herror]
      rfl

end

section
variable {platform : Platform} {sources : EndpointSources} {choice : EndpointChoice} {url : Url}
  {host : String} {injected : Bool} {post : Poster} {P : TransportOp → Prop}

theorem isSameOrigin_iff (hurl : platform.parse choice.raw = some url) :
    isSameOriginAsHandle platform url host = true ↔ SameOrigin platform choice.raw host := by
  unfold isSameOriginAsHandle SameOrigin
  rw [Option.any_eq_true]
  constructor
  · rintro ⟨own, hown, horigin⟩
    exact ⟨url, own, hurl, hown, (of_decide_eq_true horigin).symm⟩
  · rintro ⟨url', own, hurl', hown, horigin⟩
    rw [hurl] at hurl'
    cases hurl'
    exact ⟨own, hown, decide_eq_true horigin.symm⟩

theorem fetchPoster_asks (hfetch : ∀ target id rpc, P (.fetch target id rpc)) (target : String)
    (id : Nat) (rpc : JsonRpcRequest) : (fetchPoster platform target id rpc).Asks P := by
  refine (Script.Asks.perform (hfetch target id rpc)).bind fun response => ?_
  cases response.ok with
  | false => trivial
  | true => exact Script.Asks.ofExcept.bind fun _ => trivial

/-- The three ways to post: the host's client carries the derived path, or a URL
of the host's origin, and nothing else. -/
theorem selectPost_asks (h : selectPost platform choice url host injected = .ok post)
    (hpost : ∀ id rpc, P (.post id rpc)) (hfetch : ∀ target id rpc, P (.fetch target id rpc))
    (hderived : choice.origin = .derived → ∀ payload, P (.request derivedRpcPath payload))
    (hown : choice.origin ≠ .derived → isSameOriginAsHandle platform url host = true →
      ∀ payload, P (.request choice.raw payload)) (id : Nat) (rpc : JsonRpcRequest) :
    (post id rpc).Asks P := by
  unfold selectPost at h
  split at h
  · cases h
    exact Script.Asks.perform (hpost id rpc)
  · split at h
    · rename_i hcarried
      cases h
      apply Script.Asks.perform
      by_cases horigin : choice.origin = .derived
      · rw [if_pos horigin]
        exact hderived horigin _
      · rw [if_neg horigin]
        exact hown horigin (hcarried.resolve_left horigin) _
    · split at h
      · cases h
        exact fetchPoster_asks hfetch choice.raw id rpc
      · cases h

theorem resolveEndpoint_ok {resolved : ResolvedEndpoint}
    (hhost : readRpcHandle sources.tronWrap = .ok host)
    (h : resolveEndpoint platform sources injected = .ok resolved) :
    ∃ url, platform.parse (chooseEndpoint host sources).raw = some url ∧ Usable url ∧
      selectPost platform (chooseEndpoint host sources) url host injected = .ok resolved.post ∧
      resolved.describe = scrubEndpoint url ∧
      resolved.origin = (chooseEndpoint host sources).origin := by
  unfold resolveEndpoint at h
  obtain ⟨host', hhost', h⟩ := Checks.bind_ok.mp h
  rw [hhost] at hhost'
  cases hhost'
  obtain ⟨url, hurl, h⟩ := Checks.bind_ok.mp h
  obtain ⟨post, hpost, h⟩ := Checks.bind_ok.mp h
  cases h
  obtain ⟨hparse, husable⟩ := validateEndpoint_ok hurl
  exact ⟨url, hparse, husable, hpost, rfl, rfl⟩

theorem send_asks {resolved : ResolvedEndpoint} (h : ∀ id rpc, (resolved.post id rpc).Asks P)
    (id : Nat) (method : String) (params : List Value) :
    (resolved.send id method params).Asks P := by
  unfold ResolvedEndpoint.send
  split
  · exact (h id ⟨method, params⟩).attempt.bind fun _ => trivial
  · trivial

theorem sendAll_asks {resolved : ResolvedEndpoint} (h : ∀ id rpc, (resolved.post id rpc).Asks P)
    (calls : List (String × List Value)) (id : Nat) : (resolved.sendAll id calls).Asks P := by
  induction calls generalizing id with
  | nil => trivial
  | cons call calls ih => exact (send_asks h id call.1 call.2).bind fun _ => ih (id + 1)

theorem probeNativeApi_asks (h : P (.request nativeApiProbePath .probe)) :
    probeNativeApi.Asks P := by
  refine (Script.Asks.perform h).bind fun answer => ?_
  cases answer.isObjectLike with
  | false => trivial
  | true => exact Script.Asks.ofExcept.bind fun _ => trivial

theorem probeJsonRpc_asks {resolved : ResolvedEndpoint}
    (h : ∀ id rpc, (resolved.post id rpc).Asks P) (hnative : P (.request nativeApiProbePath .probe))
    (hprobe : P .probe) (probed : Bool) : (probeJsonRpc platform resolved probed).Asks P := by
  refine (send_asks h 1 _ _).bind fun outcome => ?_
  cases outcome with
  | ok value => trivial
  | error failure =>
    cases hunavailable : failure.unavailable platform.arrayLength with
    | none =>
      simp only [hunavailable]
      trivial
    | some because =>
      simp only [hunavailable]
      refine Script.Asks.bind (Script.Asks.attempt ?_) fun _ => trivial
      cases probed with
      | false => exact probeNativeApi_asks hnative
      | true => exact Script.Asks.perform hprobe

theorem createChainAccess_refused {failure : EndpointFailure}
    (h : resolveEndpoint platform sources injected = .error failure) (probed : Bool) :
    createChainAccess platform sources injected probed = .pure (.error failure) := by
  unfold createChainAccess
  rw [h]
  rfl

theorem session_asks (h : ∀ resolved, resolveEndpoint platform sources injected = .ok resolved →
      ∀ id rpc, (resolved.post id rpc).Asks P)
    (hnative : P (.request nativeApiProbePath .probe)) (hprobe : P .probe) (probed : Bool)
    (calls : List (String × List Value)) :
    (session platform sources injected probed calls).Asks P := by
  unfold session createChainAccess
  cases hresolve : resolveEndpoint platform sources injected with
  | error failure => trivial
  | ok resolved =>
    have hpost := h resolved hresolve
    change (((probeJsonRpc platform resolved probed).bind _).bind _).Asks P
    rw [Script.bind_assoc]
    refine (probeJsonRpc_asks hpost hnative hprobe probed).bind fun opened => ?_
    cases opened with
    | error failure => trivial
    | ok _ => exact sendAll_asks hpost calls 2

end

-- ---------------------------------------------------------------------------
-- The laws
-- ---------------------------------------------------------------------------

/-- For one handle, explicit argument and environment value. -/
structure Routed (platform : Platform) (sources : EndpointSources) (injected : Bool) : Prop where
  /-- At any moment of any run, whoever answers: the host's client is asked for
  nothing else. -/
  invoked : ∀ {σ : Type} (world : World Transport Value σ) (s t : σ) (probed : Bool)
    (calls : List (String × List Value)) (op : TransportOp) next (host : String),
    readRpcHandle sources.tronWrap = .ok host →
    Script.Reaches world (session platform sources injected probed calls, s)
      (.call (op : Transport.Op) next, t) → Permitted platform host op
  /-- So does each request's own script, however the requests are interleaved. -/
  requests : ∀ host resolved, readRpcHandle sources.tronWrap = .ok host →
    resolveEndpoint platform sources injected = .ok resolved →
    ∀ id method params, (resolved.send id method params).Asks (Permitted platform host)
  elsewhere : ∀ host choice resolved, readRpcHandle sources.tronWrap = .ok host →
    given sources = some choice → ¬ SameOrigin platform choice.raw host →
    resolveEndpoint platform sources injected = .ok resolved →
    ∀ id method params, (resolved.send id method params).Asks Elsewhere
  chosen : ∀ choice resolved, given sources = some choice →
    resolveEndpoint platform sources injected = .ok resolved →
    resolved.origin = choice.origin ∧ ∃ url, platform.parse choice.raw = some url ∧ Usable url ∧
      resolved.describe = scrubEndpoint url
  refused : ∀ host choice, readRpcHandle sources.tronWrap = .ok host →
    given sources = some choice → (∀ url, platform.parse choice.raw = some url → ¬ Usable url) →
    ∃ because, ∀ probed, createChainAccess platform sources injected probed =
      .pure (.error (.endpointRefused choice.origin.source because))
  /-- A handle without a host and a client is never asked. -/
  unreadable : ∀ failure, readRpcHandle sources.tronWrap = .error failure →
    ∀ probed, createChainAccess platform sources injected probed = .pure (.error failure)

section
variable {platform : Platform} {sources : EndpointSources} {host : String} {injected : Bool}
  {resolved : ResolvedEndpoint}

theorem resolved_permitted (hhost : readRpcHandle sources.tronWrap = .ok host)
    (h : resolveEndpoint platform sources injected = .ok resolved) (id : Nat)
    (rpc : JsonRpcRequest) : (resolved.post id rpc).Asks (Permitted platform host) := by
  obtain ⟨url, hurl, -, hpost, -⟩ := resolveEndpoint_ok hhost h
  refine selectPost_asks hpost (fun _ _ => trivial) (fun _ _ _ => trivial) ?_ ?_ id rpc
  · exact fun _ _ => .inl (by decide)
  · exact fun _ hsame _ => .inr ((isSameOrigin_iff hurl).mp hsame)

theorem resolved_elsewhere {choice : EndpointChoice}
    (hhost : readRpcHandle sources.tronWrap = .ok host) (hgiven : given sources = some choice)
    (hforeign : ¬ SameOrigin platform choice.raw host)
    (h : resolveEndpoint platform sources injected = .ok resolved) (id : Nat)
    (rpc : JsonRpcRequest) : (resolved.post id rpc).Asks Elsewhere := by
  obtain ⟨url, hurl, -, hpost, -⟩ := resolveEndpoint_ok hhost h
  obtain ⟨hchoice, horigin⟩ := choose_given hgiven host
  rw [hchoice] at hurl hpost
  refine selectPost_asks hpost (fun _ _ => trivial) (fun _ _ _ => trivial) ?_ ?_ id rpc
  · exact fun hderived => absurd hderived horigin
  · exact fun _ hsame => absurd ((isSameOrigin_iff hurl).mp hsame) hforeign

theorem resolve_refused {choice : EndpointChoice}
    (hhost : readRpcHandle sources.tronWrap = .ok host) (hgiven : given sources = some choice)
    (hbad : ∀ url, platform.parse choice.raw = some url → ¬ Usable url) :
    ∃ because, resolveEndpoint platform sources injected =
      .error (.endpointRefused choice.origin.source because) := by
  obtain ⟨because, hrefused⟩ := validateEndpoint_refused choice.origin.source hbad
  refine ⟨because, ?_⟩
  unfold resolveEndpoint
  rw [hhost]
  change (validateEndpoint platform (chooseEndpoint host sources).raw
    (chooseEndpoint host sources).origin.source >>= _) = _
  rw [(choose_given hgiven host).1, hrefused]
  rfl

end

theorem transport_routed (platform : Platform) (sources : EndpointSources) (injected : Bool) :
    Routed platform sources injected where
  invoked := by
    intro σ world s t probed calls op next host hhost hreaches
    have hasks : (session platform sources injected probed calls).Asks (Permitted platform host) :=
      session_asks (fun resolved hresolved => resolved_permitted hhost hresolved)
        (.inl (by decide)) trivial probed calls
    exact hasks.reached hreaches
  requests := by
    intro host resolved hhost hresolved
    exact send_asks (resolved_permitted hhost hresolved)
  elsewhere := by
    intro host choice resolved hhost hgiven hforeign hresolved
    exact send_asks (resolved_elsewhere hhost hgiven hforeign hresolved)
  chosen := by
    intro choice resolved hgiven hresolved
    obtain ⟨host, hhost, -⟩ := Checks.bind_ok.mp hresolved
    obtain ⟨url, hurl, husable, -, hdescribe, horigin⟩ := resolveEndpoint_ok hhost hresolved
    rw [(choose_given hgiven host).1] at hurl horigin
    exact ⟨horigin, url, hurl, husable, hdescribe⟩
  refused := by
    intro host choice hhost hgiven hbad
    obtain ⟨because, hrefused⟩ := resolve_refused hhost hgiven hbad
    exact ⟨because, createChainAccess_refused hrefused⟩
  unreadable := by
    intro failure hhost
    refine createChainAccess_refused ?_
    unfold resolveEndpoint
    rw [hhost]
    rfl

end Routing

end TronUpgrades.Chain
