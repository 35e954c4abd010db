import TronUpgrades.Tronbox.Alike
import TronUpgrades.Tronbox.Runs

/-!
# The production toolkit is one that may do anything

Every run of an operation on the production toolkit is a run of it on the
toolkit that may do anything, spelled out: each capability's own script is one
segment, and what the segment comes to is what the capability is answered. A
fetch is the engine's calls, with a segment of each callback between them. The
host is asked for nothing else. So what holds in every run of an operation on
the latter, in whatever order it is answered, holds of the package as it is
wired.
-/

namespace TronUpgrades.Tronbox

open Effects Record Address

section
variable {E : Engine}

-- ---------------------------------------------------------------------------
-- Segments
-- ---------------------------------------------------------------------------

/-- What the production toolkit does where the other asks. A fetch is no
segment: its callback is the operation's. -/
def producing (env : Environment) : (op : ToolkitOp E) → HostTask E op.Reply
  | .entry access contract => hostCall (.entry access contract)
  | .note text | .warn text => hostCall (.say text)
  | .contractAt contract address => contractAt contract address
  | .validateImplementation name resolved => validateImplementation name resolved
  | .requireDeployer => (productionToolkit (E := E) env).requireDeployer
  | .queueTurn => hostCall .queueTurn
  | .replayVerdicts => return env.verdicts
  | .resolveSender => (productionToolkit (E := E) env).resolveSender
  | .signerOf hash => signerOf env hash
  | .proxyArtifact name => requireProxyArtifact name
  | .looksLikeProxyAdmin address => hostCall (.looksLikeProxyAdmin address)
  | .fetchStarts _ _ => return 0
  | .fetchSettles _ _ => throw (.error "a fetch is no segment")
  | .hostDeploy contract args => hostDeploy contract args
  | .confirm hash => confirmTransaction env hash
  | .inferKind validated => (productionToolkit env).inferKind validated
  | .processProxyKind address validated resolved => processProxyKind address validated resolved
  | .storedLayoutFor address => storedLayoutFor env address
  | .assertStorageCompatible current validated resolved =>
    (productionToolkit env).assertStorageCompatible current validated resolved
  | .attach facade address => hostCall (.attach facade address)
  | .send request => hostCall (.send request)
  | .ownerOf address => (productionToolkit (E := E) env).ownerOf address
  | .proxySlots address => hostCall (.readProxySlots address)
  | .recordProxy address kind => sessionAddProxyRecord env address kind
  | .readUpgradeInterfaceVersion address => hostCall (.readUpgradeInterfaceVersion address)
  | .readImplementationAddress address => hostCall (.readImplementationAddress address)
  | .readBeaconImplementation address => hostCall (.readBeaconImplementation address)
  | .getCode address => hostCall (.getCode address)
  | .getProxyRecord address => sessionProxyRecord env address
  | .getImplRecord address => (productionToolkit (E := E) env).getImplRecord address

def ToolkitOp.fetches : ToolkitOp E → Bool
  | .fetchStarts _ _ | .fetchSettles _ _ => true
  | _ => false

/-- The engine's own calls, between which a fetch calls back. -/
def HostOp.engines : HostOp E → Bool
  | .engineStart _ _ | .engineSettle _ _ _ => true
  | _ => false

/-- A fetch under way, and how often it still calls back. -/
structure Fetching (E : Engine) where
  validated : ValidatedImplementation E
  resolved : ResolvedForProxyOps E
  turns : Nat

/-- What the engine's last call came to. -/
inductive EngineAnswers (validated : ValidatedImplementation E) :
    HostHistory E → Except Failure String → Prop
  | found {before redeploy o} :
    EngineAnswers validated (⟨.engineStart validated.version redeploy, o.map some⟩ :: before) o
  | settled {before callback o} :
    EngineAnswers validated (⟨.engineSettle validated.version validated.layout callback, o⟩ :: before) o

/-- A held lock is named; nothing else is. -/
def lockNamed (env : Environment) (error : Failure) : Failure :=
  if error.isLockContention then .recordLocked env.manifestFile error.detailOf else error

/-- The production run is this run of the operation on the other toolkit,
spelled out: a segment for each capability, in order, and between them the
engine's calls, of the fetches that are under way. -/
inductive Realises (env : Environment) :
    List (Fetching E) → HostHistory E → ToolkitHistory E → Prop
  | start : Realises env [] [] []
  | segment {fs h h' H} {op : ToolkitOp E} {o : Except Failure op.Reply} : Realises env fs h H →
    op.fetches = false → Script.Reaches .free (producing env op, h) (.ofExcept o, h') →
    Realises env fs h' (⟨op, o⟩ :: H)
  | fetchStarts {fs h H validated resolved turns} : Realises env fs h H →
    Realises env (⟨validated, resolved, turns⟩ :: fs) h
      (⟨.fetchStarts validated resolved, .ok turns⟩ :: H)
  /-- It has a usable deployment or an error, or must not deploy. -/
  | engineFinds {validated resolved turns fs h H found} :
    Realises env (⟨validated, resolved, turns⟩ :: fs) h H →
    (found = .ok none → resolved.redeployImplementation = .never) →
    Realises env (⟨validated, resolved, turns⟩ :: fs)
      (⟨.engineStart validated.version (resolved.redeployImplementation = .always), found⟩ :: h) H
  | engineCallsBack {validated resolved turns fs h H} :
    Realises env (⟨validated, resolved, turns + 1⟩ :: fs) h H →
    resolved.redeployImplementation ≠ .never →
    Realises env (⟨validated, resolved, turns⟩ :: fs)
      (⟨.engineStart validated.version (resolved.redeployImplementation = .always), .ok none⟩ :: h) H
  | engineSettles {validated resolved turns fs h H callback settled} :
    Realises env (⟨validated, resolved, turns⟩ :: fs) h H →
    Realises env (⟨validated, resolved, turns⟩ :: fs)
      (⟨.engineSettle validated.version validated.layout callback, settled⟩ :: h) H
  | fetchSettles {validated resolved fs h H o} :
    Realises env (⟨validated, resolved, 0⟩ :: fs) h H → EngineAnswers validated h o →
    Realises env fs h (⟨.fetchSettles validated resolved, o.mapError (lockNamed env)⟩ :: H)

/-- What a migration does to the chain and to the record. -/
def HostOp.lasting : HostOp E → Bool
  | .hostNew _ _ | .send _ | .addProxyRecord _ _ => true
  | _ => false

/-- The operation of which the host's is the lasting part. -/
def PartOf (env : Environment) : HostOp E → ToolkitOp E → Prop
  | .hostNew contract args, op => op = .hostDeploy contract args
  | .send request, op => op = .send request
  | .addProxyRecord key kind, op => ∃ address, op = .recordProxy address kind ∧
    canonicalizeAddress env.codec address = .ok key
  | _, _ => False

def asProduced (env : Environment) :
    Reading (hostEffects E) (toolkitEffects E) Failure (List (Fetching E)) where
  script := producing env
  scripted op := op.fetches = false
  between op := HostOp.engines op = true
  real := Realises env
  answers := .segment

-- ---------------------------------------------------------------------------
-- Each capability is a segment
-- ---------------------------------------------------------------------------

section
variable {env : Environment}

/-- The script does nothing lasting, or only its part of the operation. -/
abbrev Within (env : Environment) (op : ToolkitOp E) (x : HostTask E α) : Prop :=
  x.Asks fun fine => HostOp.lasting fine = true → PartOf env fine op

theorem Within.passing {op : ToolkitOp E} {fine : HostOp E} (h : fine.lasting = false) :
    Within env op (hostCall fine) := by
  exact .perform fun hlasting => Bool.noConfusion (h.symm.trans hlasting)

variable {op : ToolkitOp E}

theorem throughRecordRead_within {file : String} {x : HostTask E α} (hx : Within env op x) :
    Within env op (throughRecordRead file x) := by
  refine hx.catching fun e => ?_
  split <;> trivial

theorem sessionImplRecord_within (address : String) :
    Within env op (sessionImplRecord env address) :=
  Script.Asks.ofExcept.bind fun _ => throughRecordRead_within (.passing rfl)

theorem requireProxyArtifact_within (name : String) :
    Within env op (requireProxyArtifact name) := by
  refine Script.Asks.bind ((Within.passing rfl).catching fun _ => trivial) fun resolution => ?_
  cases resolution with
  | unique contract => trivial
  | ambiguous contract candidates => dsimp only; split <;> trivial
  | indeterminate contract => trivial

theorem signerOf_within (hash : String) : Within env op (signerOf env hash) := by
  refine Script.Asks.catching ((Within.passing rfl).bind fun sender => ?_) fun _ => trivial
  cases sender with
  | none => trivial
  | some sender =>
    dsimp only
    split
    · trivial
    · exact Script.Asks.ofExcept.bind fun _ => trivial

theorem hostDeploy_within (contract : ContractAbstraction E) (args : List Json) :
    Within env (.hostDeploy contract args) (hostDeploy contract args) := by
  refine Script.Asks.ofExcept.bind fun _ => Script.Asks.ofExcept.bind fun _ => ?_
  refine Script.Asks.ofExcept.bind fun _ => Script.Asks.bind (.perform fun _ => rfl) fun _ => ?_
  refine Script.Asks.ofExcept.bind fun _ => (Within.passing rfl).bind fun _ => ?_
  exact (Within.passing rfl).bind fun _ => trivial

theorem sessionAddProxyRecord_within (address : String) (kind : ProxyKind) :
    Within env (.recordProxy address kind) (sessionAddProxyRecord (E := E) env address kind) := by
  unfold sessionAddProxyRecord
  cases hkey : canonicalizeAddress env.codec address with
  | error e => trivial
  | ok key => exact throughRecordRead_within (.perform fun _ => ⟨address, rfl, hkey⟩)

theorem producing_within (op : ToolkitOp E) : Within env op (producing env op) := by
  cases op with
  | contractAt contract address =>
    exact Script.Asks.ofExcept.bind fun _ => (Within.passing rfl).bind fun _ => trivial
  | validateImplementation name resolved =>
    apply validateImplementation_asks <;> exact fun _ h => Bool.noConfusion h
  | signerOf hash => exact signerOf_within hash
  | proxyArtifact name => exact requireProxyArtifact_within name
  | hostDeploy contract args => exact hostDeploy_within contract args
  | confirm hash =>
    refine (Within.passing rfl).attempt.bind fun info => ?_
    cases info <;> trivial
  | processProxyKind address validated resolved =>
    exact (Within.passing rfl).bind fun _ => Script.Asks.ofExcept.bind fun _ => trivial
  | storedLayoutFor address =>
    refine (sessionImplRecord_within address).bind fun record => ?_
    split <;> trivial
  | assertStorageCompatible current validated resolved =>
    exact Script.Asks.ofExcept.bind fun _ => Script.Asks.ofExcept
  | send request => exact .perform fun _ => rfl
  | ownerOf address => exact (Within.passing rfl).bind fun _ => Script.Asks.ofExcept
  | recordProxy address kind => exact sessionAddProxyRecord_within address kind
  | getProxyRecord address =>
    exact Script.Asks.ofExcept.bind fun _ => throughRecordRead_within (.passing rfl)
  | getImplRecord address => exact (sessionImplRecord_within address).bind fun _ => trivial
  | requireDeployer | resolveSender | inferKind _ => exact Script.Asks.ofExcept
  | replayVerdicts | fetchStarts _ _ | fetchSettles _ _ => trivial
  | _ => exact .passing rfl

/-- A capability's own script tracks the operation it stands for. -/
theorem producing_tracks (op : ToolkitOp E) (hop : op.fetches = false) :
    Tracks (asProduced env) (producing env op) (toolkitCall op) :=
  .perform (v := asProduced env) hop

/-- What is asked for inside of a capability and lasts is its part of it. -/
theorem during_partOf {coarse : ToolkitOp E} {H : ToolkitHistory E} {fine : HostOp E}
    {h : HostHistory E} (hduring : (asProduced env).During coarse H fine h)
    (hlasting : fine.lasting = true) : PartOf env fine coarse := by
  obtain ⟨-, _, h₁, _, -, hr⟩ := hduring
  exact (producing_within coarse).reached hr hlasting

-- ---------------------------------------------------------------------------
-- A fetch and its callback
-- ---------------------------------------------------------------------------

section
variable {validated : ValidatedImplementation E} {resolved : ResolvedForProxyOps E}
  {x : HostTask E α} {y : Task (toolkitEffects E) α} {h₀ h h' : HostHistory E} {last : Option α}

/-- What follows the callbacks of a fetch. -/
def fetchEnd (validated : ValidatedImplementation E) (resolved : ResolvedForProxyOps E)
    (deployed : Option α) : Task (toolkitEffects E) (Fetched α) := do
  let address ← toolkitCall (.fetchSettles validated resolved)
  return ⟨address, deployed⟩

/-- A fetch on the other toolkit. -/
def anyFetch (validated : ValidatedImplementation E) (resolved : ResolvedForProxyOps E)
    (y : Task (toolkitEffects E) α) : Task (toolkitEffects E) (Fetched α) := do
  let turns ← toolkitCall (.fetchStarts validated resolved)
  let deployed ← callBack y turns none
  fetchEnd validated resolved deployed

/-- The other fetch has called back as often as the engine has and has that
value last. How often it calls back again is open, so it is so many times
`more` and then as often as one likes. -/
def Awaits (env : Environment) (validated : ValidatedImplementation E)
    (resolved : ResolvedForProxyOps E) (y : Task (toolkitEffects E) α) (h₀ h : HostHistory E)
    (more : Nat) (last : Option α) : Prop :=
  ∀ fs H, Realises env fs h₀ H → ∀ turns, ∃ H',
    Realises env (⟨validated, resolved, turns⟩ :: fs) h H' ∧
    Script.Reaches .free (anyFetch validated resolved y, H)
      ((callBack y (turns + more) last).bind (fetchEnd validated resolved), H')

theorem Awaits.start : Awaits env validated resolved y h h 0 none := by
  intro fs H hreal turns
  exact ⟨_, .fetchStarts hreal,
    .performed (S := toolkitEffects E) (.fetchStarts validated resolved) (.ok turns) H⟩

/-- The engine's own calls may be asked for. -/
theorem Awaits.allows (aw : Awaits env validated resolved y h₀ h 0 last) {fine : HostOp E}
    (hfine : fine.engines = true) :
    (asProduced env).Allows (anyFetch validated resolved y) h₀ h fine := by
  intro fs H hreal
  obtain ⟨H', hreal', hr⟩ := aw fs H hreal 0
  exact ⟨_, H', hr, .inr ⟨hfine, _, hreal'⟩⟩

theorem Awaits.finds (aw : Awaits env validated resolved y h₀ h 0 last)
    {found : Except Failure (Option String)}
    (hfound : found = .ok none → resolved.redeployImplementation = .never) :
    Awaits env validated resolved y h₀ (⟨.engineStart validated.version
      (resolved.redeployImplementation = .always), found⟩ :: h) 0 last := by
  intro fs H hreal turns
  obtain ⟨H', hreal', hr⟩ := aw fs H hreal turns
  exact ⟨H', .engineFinds hreal' hfound, hr⟩

theorem Awaits.callsBack (aw : Awaits env validated resolved y h₀ h 0 last)
    (hresolved : resolved.redeployImplementation ≠ .never) :
    Awaits env validated resolved y h₀ (⟨.engineStart validated.version
      (resolved.redeployImplementation = .always), .ok none⟩ :: h) 1 last := by
  intro fs H hreal turns
  obtain ⟨H', hreal', hr⟩ := aw fs H hreal (turns + 1)
  exact ⟨H', .engineCallsBack hreal' hresolved, hr⟩

theorem Awaits.settles (aw : Awaits env validated resolved y h₀ h 0 last)
    {callback : Except Failure EngineDeployment} {settled : Except Failure String} :
    Awaits env validated resolved y h₀
      (⟨.engineSettle validated.version validated.layout callback, settled⟩ :: h) 0 last := by
  intro fs H hreal turns
  obtain ⟨H', hreal', hr⟩ := aw fs H hreal turns
  exact ⟨H', .engineSettles hreal', hr⟩

/-- The engine's callback is the one more of the other's. -/
theorem Awaits.callback (hx : Tracks (asProduced env) x y)
    (aw : Awaits env validated resolved y h₀ h 1 last) :
    wp .free ((asProduced env).Allows (anyFetch validated resolved y) h₀) x
      (fun o t => Awaits env validated resolved y h₀ t 0 (o.toOption.or last)) h := by
  refine wp_guard_mono (fun t fine hop fs H hreal => ?_)
    (wp_mono (fun o t ho fs H hreal turns => ?_) (hx h))
  · obtain ⟨H₁, hreal₁, hr₁⟩ := aw fs H hreal 0
    obtain ⟨y', H₂, hr₂, hstands⟩ := hop _ H₁ hreal₁
    exact ⟨_, H₂, hr₁.trans hr₂.bind.catching.bind.bind, hstands.bind.catching.bind.bind⟩
  · obtain ⟨H₁, hreal₁, hr₁⟩ := aw fs H hreal turns
    obtain ⟨H₂, hr₂, hreal₂⟩ := ho _ H₁ hreal₁
    refine ⟨H₂, hreal₂, hr₁.trans ?_⟩
    cases o <;> exact hr₂.bind.catching.bind.bind

/-- The other fetch ends with what the engine's last call came to. -/
theorem Awaits.ends (aw : Awaits env validated resolved y h₀ h 0 last)
    {o : Except Failure String} (ho : EngineAnswers validated h o) :
    (asProduced env).Ends (anyFetch validated resolved y) h₀
      ((o.mapError (lockNamed env)).map (Fetched.mk · last)) h := by
  intro fs H hreal
  obtain ⟨H', hreal', hr⟩ := aw fs H hreal 0
  refine ⟨_, hr.trans ?_, .fetchSettles hreal' ho⟩
  have settled := Script.Reaches.performed (S := toolkitEffects E)
    (f := fun address : String => .pure (Fetched.mk address last))
    (.fetchSettles validated resolved) (o.mapError (lockNamed env)) H'
  cases o <;> exact settled

theorem engineCall_awaits {toDeployment : α → EngineDeployment} (hx : Tracks (asProduced env) x y)
    (aw : Awaits env validated resolved y h₀ h 0 last) :
    wp .free ((asProduced env).Allows (anyFetch validated resolved y) h₀)
      (engineCall validated resolved toDeployment x)
      (fun o t => ∃ first deployed, o = .ok (first, deployed) ∧
        Awaits env validated resolved y h₀ t 0 (deployed.or last) ∧
        EngineAnswers validated t first) h := by
  unfold engineCall
  simp only [Script.bind_eq, Script.pure_eq]
  refine wp.askAttempt (aw.allows rfl) fun started _ => ?_
  match started with
  | .error e => exact ⟨_, _, rfl, aw.finds (by rintro ⟨⟩), .found (o := .error e)⟩
  | .ok (some address) => exact ⟨_, _, rfl, aw.finds (by rintro ⟨⟩), .found (o := .ok address)⟩
  | .ok none =>
    dsimp only
    have called : wp .free ((asProduced env).Allows (anyFetch validated resolved y) h₀)
        (if resolved.redeployImplementation = .never then
          .throw (.implementationNotPreviouslyDeployed validated.name) else x)
        (fun o t => Awaits env validated resolved y h₀ t 0 (o.toOption.or last))
        (⟨.engineStart validated.version (decide (resolved.redeployImplementation = .always)),
          .ok none⟩ :: h) := by
      split
      · next hnever => exact aw.finds fun _ => hnever
      · next hresolved => exact (aw.callsBack hresolved).callback hx
    rw [wp_bind, wp_attempt]
    refine wp_mono (fun callback t called => ?_) called
    refine wp.askAttempt (called.allows rfl) fun settled _ => ?_
    exact ⟨settled, callback.toOption, rfl, called.settles, .settled⟩

/-- Where a fetch stands when the engine is done with it. -/
def FetchedFrom (env : Environment) (validated : ValidatedImplementation E)
    (resolved : ResolvedForProxyOps E) (y : Task (toolkitEffects E) α) (h₀ : HostHistory E)
    (o : Except Failure (Fetched α)) (h : HostHistory E) : Prop :=
  ∃ last answer, Awaits env validated resolved y h₀ h 0 last ∧ EngineAnswers validated h answer ∧
    o = answer.map (Fetched.mk · last)

theorem fetchOrDeploy_tracks {toDeployment : α → EngineDeployment}
    (hx : Tracks (asProduced env) x y) :
    Tracks (asProduced env)
      (fetchOrDeployImplementation env validated resolved toDeployment x)
      (anyFetch validated resolved y) := by
  intro h
  unfold fetchOrDeployImplementation throughRecordLock
  refine wp.catching (R := FetchedFrom env validated resolved y h) ?_ ?_ ?_
  · refine wp.bind (engineCall_awaits hx .start) ?_ (by rintro e t ⟨first, deployed, ⟨⟩, -⟩)
    rintro _ t ⟨first, deployed, ⟨⟩, aw, answer⟩
    rw [Option.or_none] at aw
    cases first with
    | ok address => exact ⟨deployed, _, aw, answer, rfl⟩
    | error e =>
      dsimp only
      split
      · exact ⟨deployed, _, aw, answer, rfl⟩
      · refine wp.bind (engineCall_awaits hx aw) ?_ (by rintro e t ⟨first, deployed, ⟨⟩, -⟩)
        rintro _ u ⟨second, redeployed, ⟨⟩, aw, answer⟩
        cases second <;> exact ⟨_, _, aw, answer, rfl⟩
  · rintro fetched t ⟨last, address | e, aw, answer, hfetched⟩ <;> cases hfetched
    exact aw.ends answer
  · rintro e t ⟨last, address | e', aw, answer, hfetched⟩ <;> cases hfetched
    have ends := aw.ends answer
    simp only [Except.mapError, Except.map, lockNamed] at ends
    split at ends
    · next hlock =>
      rw [if_pos hlock]
      exact ends
    · next hlock =>
      rw [if_neg hlock]
      exact ends

end

-- ---------------------------------------------------------------------------
-- The refinement
-- ---------------------------------------------------------------------------

theorem hostEntry_alike : (hostEntry (E := E)).Alike (asProduced env) anyEntry where
  address contract := producing_tracks (.entry .address contract) rfl
  setAddress contract address := producing_tracks (.entry (.setAddress address) contract) rfl
  resetAddress contract := producing_tracks (.entry .resetAddress contract) rfl
  transactionHash contract := producing_tracks (.entry .transactionHash contract) rfl
  setTransactionHash contract hash :=
    producing_tracks (.entry (.setTransactionHash hash) contract) rfl
  deleteTransactionHash contract := producing_tracks (.entry .deleteTransactionHash contract) rfl
  isDeployed contract := producing_tracks (.entry .isDeployed contract) rfl

theorem hostFacade_alike : (hostFacade (E := E)).Alike (asProduced env) anyFacadeHost where
  proxyArtifact name := producing_tracks (.proxyArtifact name) rfl
  attach facade address := producing_tracks (.attach facade address) rfl
  send request := producing_tracks (.send request) rfl

theorem productionToolkit_alike :
    (productionToolkit env).Alike (asProduced env)
      (anyToolkit (E := E) env.codec env.wildcardNetwork) where
  codec := rfl
  wildcardNetwork := rfl
  entry := hostEntry_alike
  note text := producing_tracks (.note text) rfl
  warn text := producing_tracks (.warn text) rfl
  contractAt contract address := producing_tracks (.contractAt contract address) rfl
  validateImplementation name resolved :=
    producing_tracks (.validateImplementation name resolved) rfl
  requireDeployer := producing_tracks .requireDeployer rfl
  queue hx := (producing_tracks .queueTurn rfl).bind fun _ => hx
  priorDeployedAddress contract := readPriorDeployedAddress_tracks hostEntry_alike contract
  replayVerdicts := producing_tracks .replayVerdicts rfl
  resolveSender := producing_tracks .resolveSender rfl
  signerOf hash := producing_tracks (.signerOf hash) rfl
  proxyArtifact name := producing_tracks (.proxyArtifact name) rfl
  looksLikeProxyAdmin address := producing_tracks (.looksLikeProxyAdmin address) rfl
  fetchOrDeployImplementation _ _ _ := fetchOrDeploy_tracks
  hostDeploy contract args := producing_tracks (.hostDeploy contract args) rfl
  confirm hash := producing_tracks (.confirm hash) rfl
  inferKind validated := producing_tracks (.inferKind validated) rfl
  processProxyKind address validated resolved :=
    producing_tracks (.processProxyKind address validated resolved) rfl
  storedLayoutFor address := producing_tracks (.storedLayoutFor address) rfl
  assertStorageCompatible current validated resolved :=
    producing_tracks (.assertStorageCompatible current validated resolved) rfl
  callThroughFacade request := callThroughFacade_tracks hostFacade_alike request
  ownerOf address := producing_tracks (.ownerOf address) rfl
  proxySlots address := producing_tracks (.proxySlots address) rfl
  sendUpgradeCall request :=
    (callThroughFacade_tracks hostFacade_alike request.toFacade).bind fun _ => .pure _
  recordProxy address kind := producing_tracks (.recordProxy address kind) rfl
  readUpgradeInterfaceVersion address :=
    producing_tracks (.readUpgradeInterfaceVersion address) rfl
  readImplementationAddress address := producing_tracks (.readImplementationAddress address) rfl
  readBeaconImplementation address := producing_tracks (.readBeaconImplementation address) rfl
  getCode address := producing_tracks (.getCode address) rfl
  getProxyRecord address := producing_tracks (.getProxyRecord address) rfl
  getImplRecord address := producing_tracks (.getImplRecord address) rfl

/-- The operation as the package is wired, and on the toolkit that may do anything. -/
def Operation.produced (env : Environment) (op : Operation E) : HostTask E op.Reply :=
  op.on (productionToolkit env)

def Operation.onAny (env : Environment) (op : Operation E) : Task (toolkitEffects E) op.Reply :=
  op.on (anyToolkit env.codec env.wildcardNetwork)

/-- The host is asked for the operation inside of this capability's segment. -/
def AskedWithin (env : Environment) (coarse : ToolkitOp E) (H : ToolkitHistory E)
    (fine : HostOp E) (h : HostHistory E) : Prop :=
  (asProduced env).During coarse H fine h ∧ (fine.lasting = true → PartOf env fine coarse)

/-- Each event of a run is the engine's own call or lies within the segment of
one of the capabilities. -/
theorem Realises.placed {fs : List (Fetching E)} {h : HostHistory E} {H : ToolkitHistory E}
    (hreal : Realises env fs h H) {later before : HostHistory E}
    {event : Event (hostEffects E) Failure} (hsplit : h = later ++ event :: before)
    (hevent : HostOp.engines event.op = false) :
    ∃ coarse o H₁, ⟨coarse, o⟩ :: H₁ <:+ H ∧ AskedWithin env coarse H₁ event.op before := by
  induction hreal generalizing later with
  | start => simp at hsplit
  | @segment fs h h' H op o hreal hop hr ih =>
    -- The event is older than the segment or in it.
    obtain hbefore | hbefore : event :: before <:+ h ∨ h <:+ before := by
      obtain hsuffix | hsuffix := List.suffix_or_suffix_of_suffix ⟨later, hsplit.symm⟩ hr.suffix
      · exact .inl hsuffix
      · rcases List.suffix_cons_iff.mp hsuffix with rfl | hbefore
        · exact .inl List.suffix_rfl
        · exact .inr hbefore
    · obtain ⟨since, rfl⟩ := hbefore
      obtain ⟨coarse, o', H₁, hsuffix, hwithin⟩ := ih rfl
      exact ⟨coarse, o', H₁, hsuffix.trans (List.suffix_cons ..), hwithin⟩
    · obtain ⟨next, hstood⟩ := hr.stood hsplit hbefore
      have hduring : (asProduced env).During op H event.op before :=
        ⟨hop, fs, h, next, hreal, hstood⟩
      exact ⟨op, o, H, List.suffix_rfl, hduring, during_partOf hduring⟩
  | fetchStarts _ ih | fetchSettles _ _ ih =>
    obtain ⟨coarse, o, H₁, hsuffix, hwithin⟩ := ih hsplit
    exact ⟨coarse, o, H₁, hsuffix.trans (List.suffix_cons ..), hwithin⟩
  | engineFinds _ _ ih | engineCallsBack _ _ ih | engineSettles _ ih =>
    cases later with
    | nil =>
      obtain ⟨rfl, rfl⟩ := List.cons.inj hsplit
      cases hevent
    | cons _ later => exact ih (List.cons.inj hsplit).2

/-- Whatever the host, the node, the engine and the record's file answer: a run
of an operation is one run of it on the other toolkit, spelled out. It ends as
that run ends, and all that it asks the host for is the engine's own call or
lies within one of that run's capabilities. An unfinished run stands at the
engine's own call or within the capability that such a run asks for next. -/
theorem production_refines (env : Environment) (op : Operation E) :
    (∀ o h, Script.Reaches .free (op.produced env, []) (.ofExcept o, h) →
      ∃ H, Script.Reaches .free (op.onAny env, []) (.ofExcept o, H) ∧ Realises env [] h H ∧
        ∀ later event before, h = later ++ event :: before → HostOp.engines event.op = false →
          ∃ coarse o' H₁, ⟨coarse, o'⟩ :: H₁ <:+ H ∧ AskedWithin env coarse H₁ event.op before) ∧
    ∀ fine next h, Script.Reaches .free (op.produced env, []) (.call fine next, h) →
      ∃ y H, Script.Reaches .free (op.onAny env, []) (y, H) ∧
        ((∃ coarse later, y = .call coarse later ∧ AskedWithin env coarse H fine h) ∨
          fine.engines = true ∧ ∃ fs, Realises env fs h H) := by
  have tracked : Tracks (asProduced env) (op.produced env) (op.onAny env) :=
    operations_track productionToolkit_alike op
  constructor
  · intro o h hr
    obtain ⟨H, hr', hreal⟩ := tracked.reaches_end .start hr
    exact ⟨H, hr', hreal, fun later event before => hreal.placed⟩
  · intro fine next h hr
    obtain ⟨y, H, hr', ⟨coarse, later, hy, hduring⟩ | hengine⟩ := tracked.reaches_call .start hr
    · exact ⟨y, H, hr', .inl ⟨coarse, later, hy, hduring, during_partOf hduring⟩⟩
    · exact ⟨y, H, hr', .inr hengine⟩

end

end

end TronUpgrades.Tronbox
