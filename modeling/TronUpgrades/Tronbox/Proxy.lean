import TronUpgrades.Tronbox.Toolkit

/-!
# Proxies: deploying and upgrading

`runDeployProxy` and `runUpgradeProxy` as scripts over any toolkit, with the
two decisions they make on the way: whether an artifact's remembered address
may be deployed beside, and which entry point upgrades a proxy.
-/

namespace TronUpgrades.Tronbox

open Effects Record Address

-- ---------------------------------------------------------------------------
-- Dispatch
-- ---------------------------------------------------------------------------

structure UpgradePlan where
  route : UpgradeRoute
  call : UpgradeCallName
  carriesData : Bool
  deriving DecidableEq, Repr

def knownVersion : String := "5.0.0"

/-- A beacon never gets here: its kind is refused before. -/
def planUpgradeDispatch (kind : ProxyKind) (interfaceVersion : Option String)
    (hasCallData : Bool) : Except Failure UpgradePlan :=
  match interfaceVersion with
  | some version =>
    if version ≠ knownVersion then
      .error (.unknownProxyGeneration (if kind = .transparent then .admin else .proxy) version)
    else if kind = .transparent then .ok ⟨.adminV5, .upgradeAndCall, true⟩
    else .ok ⟨.uupsV5, .upgradeToAndCall, true⟩
  | none =>
    if kind = .transparent then
      if hasCallData then .ok ⟨.adminV4, .upgradeAndCall, true⟩
      else .ok ⟨.adminV4, .upgrade, false⟩
    else if hasCallData then .ok ⟨.uupsPre5, .upgradeToAndCall, true⟩
    else .ok ⟨.uupsPre5, .upgradeTo, false⟩

/-- A plan that does not carry data is one for a call that has none. -/
theorem planUpgradeDispatch_data (h : planUpgradeDispatch kind version hasCallData = .ok plan) :
    plan.carriesData = true ∨ hasCallData = false := by
  simp only [planUpgradeDispatch] at h
  split at h
  · split at h
    · cases h
    · split at h <;> cases h <;> exact .inl rfl
  · cases hasCallData
    · exact .inr rfl
    · split at h <;> cases h <;> exact .inl rfl

/-- Only a plan without data names a call without a data argument. -/
theorem planUpgradeDispatch_call (h : planUpgradeDispatch kind version hasCallData = .ok plan)
    (hdata : plan.carriesData = true) : plan.call ≠ .upgrade ∧ plan.call ≠ .upgradeTo := by
  simp only [planUpgradeDispatch] at h
  split at h
  · split at h
    · cases h
    · split at h <;> cases h <;> exact ⟨nofun, nofun⟩
  · cases hasCallData
    · split at h <;> cases h <;> cases hdata
    · split at h <;> cases h <;> exact ⟨nofun, nofun⟩

-- ---------------------------------------------------------------------------
-- Replay
-- ---------------------------------------------------------------------------

inductive DeployReplayDecision
  | proceed
  | refuse (address : String) (because : StaleProxyCause)
  deriving DecidableEq, Repr

def decideDeployReplay (codec : AddressCodec) (priorAddress : Option String)
    (verdicts : List ProxyRecordVerdict) : Except Failure DeployReplayDecision :=
  match priorAddress with
  | none => .ok .proceed
  | some prior => do
    let address ← canonicalizeAddress codec prior
    match verdicts.find? (·.address == address) with
    | none => return .refuse address .noVerdict
    | some verdict =>
      match verdict.status with
      | .authoritative => return .proceed
      | .noCodeAtAddress => return .refuse address .noCodeAtAddress
      | .unrecorded => return .refuse address .unrecorded

section
variable {E : Engine} {S : Signature}

/-- The linked-library gate, on the object the operation was given. -/
def linkGate (contract : ContractAbstraction E) (resolved : ResolvedForProxyOps E) :
    Except Failure Unit :=
  refuseUnlessLinkingAllowed
    (linkedLibraryNames (contract.unlinkedBinary.getD (contract.bytecode.getD "")))
    resolved.unsafeAllowLinkedLibraries

/-- `resolved.kind ?? (await toolkit.inferKind(validated))` -/
def kindOrInferred (toolkit : OperationToolkit E S) (validated : ValidatedImplementation E)
    (resolved : ResolvedForProxyOps E) : Task S ProxyKind :=
  match resolved.kind with
  | some kind => return kind
  | none => toolkit.inferKind validated

/-- The implementation, deployed through the user's own contract object. -/
def fetchOrDeployThrough (context : OperationContext E S) (contract : ContractAbstraction E)
    (validated : ValidatedImplementation E) : Task S (Fetched WriteBack) :=
  context.toolkit.fetchOrDeployImplementation validated context.resolved WriteBack.deployment
    (context.toolkit.hostDeploy contract context.resolved.constructorArgs)

def wildcardNote (toolkit : OperationToolkit E S) : Task S Unit :=
  .when toolkit.wildcardNetwork (toolkit.note "wildcard network id")

-- ---------------------------------------------------------------------------
-- deployProxy
-- ---------------------------------------------------------------------------

structure DeployedProxy where
  contract : ContractHandle
  address : String
  transaction : String

/-- What `deployProxy` has settled before its queued step. -/
structure ProxyDeployPlan (E : Engine) where
  contract : ContractAbstraction E
  validated : ValidatedImplementation E
  kind : ProxyKind
  initData : String
  sender : EffectiveSender
  proxyAbstraction : ContractAbstraction E
  /-- The new admin's owner; only a transparent proxy has one. -/
  initialOwner : Option String

def ProxyDeployPlan.proxyArgs (plan : ProxyDeployPlan E) (implementationAddress : String) :
    List Json :=
  if plan.kind = .transparent then
    [.str implementationAddress, plan.initialOwner.elim .null .str, .str plan.initData]
  else [.str implementationAddress, .str plan.initData]

/-- Step 5: a remembered address the record cannot vouch for in either role. -/
def refuseStaleRecord (toolkit : OperationToolkit E S) : DeployReplayDecision → Task S Unit
  | .proceed => return ()
  | .refuse address because => do
    let knownImplementation : Bool ←
      (if because = .unrecorded then toolkit.getImplRecord address else pure false)
    .ofExcept (refuseIf (!knownImplementation) (.staleProxyRecord address because))

/-- Step 8: the owner of the proxy's admin, for a transparent proxy. -/
def resolveInitialOwner (context : OperationContext E S) (kind : ProxyKind)
    (sender : EffectiveSender) : Task S (Option String) :=
  let { toolkit, resolved } := context
  if kind ≠ .transparent then return none
  else do
    let owner ← .ofExcept <| match resolved.initialOwner, sender with
      | some owner, _ => canonicalizeAddress toolkit.codec owner
      | none, .resolved address => canonicalizeAddress toolkit.codec address
      | none, .unconfigured => .error .transparentInitialOwnerRequired
    let looksLikeProxyAdmin : Bool ← (if resolved.unsafeSkipProxyAdminCheck then pure false
      else toolkit.looksLikeProxyAdmin owner)
    .ofExcept (refuseIf looksLikeProxyAdmin (.proxyAdminAsOwner owner))
    return some owner

/-- A node that omits the sender is said so, not passed over. -/
def compareSender (toolkit : OperationToolkit E S) (sender : EffectiveSender)
    (signer : Option String) (live : SpentDeployment) : Task S Unit :=
  match signer with
  | some signer => do
    let _ ← .ofExcept (assertSignerMatches toolkit.codec sender signer live)
  | none => toolkit.warn "sender comparison skipped"

/-- What follows the proxy's own creation, with its address and transaction. -/
def settleDeployedProxy (toolkit : OperationToolkit E S) (plan : ProxyDeployPlan E)
    (prior : PriorWriteBack) (writeBack : WriteBack) : Task S WriteBack := do
  .ofExcept (assertFreshTransaction prior.transactionHash writeBack)
  let address ← .ofExcept (canonicalizeAddress toolkit.codec writeBack.address)
  let live : SpentDeployment := ⟨address, writeBack.transactionHash⟩
  let verdict ← toolkit.confirm writeBack.transactionHash
  match verdict with
  | .reverted verdict => do
    restoreWriteBack toolkit.entry plan.proxyAbstraction prior
    throw (.transactionReverted verdict)
  | .indeterminate verdict => throw (.confirmationIndeterminate verdict live)
  | .confirmedSuccessful _ => do
    let signer ← toolkit.signerOf writeBack.transactionHash
    compareSender toolkit plan.sender signer live
    recordingLiveProxy live (toolkit.recordProxy live.address plan.kind)
    return writeBack

/-- Step 9, queued: the implementation, the proxy, its confirmation. -/
def deployProxyStep (context : OperationContext E S) (plan : ProxyDeployPlan E) :
    Task S WriteBack := do
  let fetched ← fetchOrDeployThrough context plan.contract plan.validated
  let prior ← readWriteBack context.toolkit.entry plan.proxyAbstraction
  let writeBack ← context.toolkit.hostDeploy plan.proxyAbstraction
    (plan.proxyArgs fetched.address)
  settleDeployedProxy context.toolkit plan prior writeBack

/-- Steps 1 to 8: everything that may refuse before anything is spent. -/
def planProxyDeploy (context : OperationContext E S) (contract : ContractAbstraction E)
    (args : List Json) : Task S (ProxyDeployPlan E) := do
  let { toolkit, resolved } := context
  let name ← .ofExcept (nameOf E contract "deployProxy")
  let validated ← toolkit.validateImplementation name resolved
  .ofExcept (linkGate contract resolved)
  let kind ← kindOrInferred toolkit validated resolved
  .ofExcept (requireProxyKind kind [.transparent, .uups] "deployProxy")
  .ofExcept (refuseIf (kind = .uups ∧ resolved.initialOwner.isSome)
    (.initialOwnerUnsupportedKind (ProxyKind.text kind)))
  toolkit.requireDeployer
  let prior ← toolkit.priorDeployedAddress contract
  let verdicts ← toolkit.replayVerdicts
  let decision ← .ofExcept (decideDeployReplay toolkit.codec prior verdicts)
  refuseStaleRecord toolkit decision
  .ofExcept (assertNoCheatcodeCollision resolved.constructorArgs)
  let initData ← .ofExcept
    (encodeInitializer contract.abi (ProxyKind.text kind) args resolved.initializer)
  let sender ← toolkit.resolveSender
  let proxyAbstraction ← toolkit.proxyArtifact
    (if kind = .transparent then "TransparentUpgradeableProxy" else "TRC1967Proxy")
  let initialOwner ← resolveInitialOwner context kind sender
  return { contract, validated, kind, initData, sender, proxyAbstraction, initialOwner }

def runDeployProxy (context : OperationContext E S) (contract : ContractAbstraction E)
    (args : List Json) : Task S DeployedProxy := do
  let { toolkit, .. } := context
  let plan ← planProxyDeploy context contract args
  let outcome ← toolkit.queue
    (restoringWriteBackOnFailure toolkit.entry contract (deployProxyStep context plan))
  -- 9b: the entry names the proxy, not the implementation deployed on the way
  toolkit.entry.setAddress contract outcome.address
  toolkit.entry.setTransactionHash contract outcome.transactionHash
  wildcardNote toolkit
  let handle ← toolkit.contractAt contract outcome.address
  let handle ← .ofExcept (sealUnavailable handle)
  let transaction ← .ofExcept (transactionIdentity outcome.transactionHash "deployProxy")
  return ⟨handle, outcome.address, transaction⟩

-- ---------------------------------------------------------------------------
-- upgradeProxy
-- ---------------------------------------------------------------------------

structure UpgradedProxy where
  contract : ContractHandle
  address : String
  transaction : String
  implementation : String

/-- What `upgradeProxy` has settled before its queued step. -/
structure ProxyUpgradePlan (E : Engine) where
  contract : ContractAbstraction E
  validated : ValidatedImplementation E
  proxyAddress : String
  kind : ProxyKind
  adminAddress : Option String
  callData : String
  dispatch : UpgradePlan

def ProxyUpgradePlan.request (plan : ProxyUpgradePlan E) (implementationAddress : String) :
    UpgradeCallRequest where
  route := plan.dispatch.route
  call := plan.dispatch.call
  proxyAddress := plan.proxyAddress
  adminAddress := plan.adminAddress
  implementationAddress := implementationAddress
  data := if plan.dispatch.carriesData then plan.callData else "0x"

/-- Step 3: the implementation and the admin of something that is a proxy and
not a beacon proxy. -/
def upgradeableSlots (proxyAddress : String) : ProxySlotsRead →
    Except Failure (String × Option String)
  | .noCode => .error (.nothingToAdopt proxyAddress "no code at all")
  | .code _ _ (some beacon) => .error (.beaconProxyRefused proxyAddress beacon)
  | .code none _ none =>
    .error (.nothingToAdopt proxyAddress "code with an empty 1967 implementation slot")
  | .code (some implementation) admin none => .ok (implementation, admin)

theorem upgradeableSlots_ok {proxyAddress implementation : String} {admin : Option String}
    {slots : ProxySlotsRead}
    (h : upgradeableSlots proxyAddress slots = .ok (implementation, admin)) :
    slots = .code (some implementation) admin none := by
  unfold upgradeableSlots at h
  split at h <;> cases h
  rfl

/-- The admin a transparent proxy is upgraded through. -/
def upgradeAdmin (proxyAddress : String) (kind : ProxyKind) (admin : Option String) :
    Except Failure (Option String) :=
  if kind = .transparent then
    match admin with
    | some admin => .ok (some admin)
    | none => .error (.notTransparentProxy proxyAddress)
  else .ok none

def confirmUpgrade (toolkit : OperationToolkit E S) (transactionHash : String) : Task S Unit := do
  let verdict ← toolkit.confirm transactionHash
  match verdict with
  | .reverted verdict => throw (.transactionReverted verdict)
  | .indeterminate verdict => throw (.confirmationIndeterminate verdict none)
  | .confirmedSuccessful _ => return ()

/-- What follows the upgrade transaction. -/
def settleUpgradedProxy (toolkit : OperationToolkit E S) (plan : ProxyUpgradePlan E)
    (implementationAddress : String) (writeBack : WriteBack) : Task S (WriteBack × String) := do
  confirmUpgrade toolkit writeBack.transactionHash
  let observed ← toolkit.readImplementationAddress plan.proxyAddress
  let current ← .ofExcept (isAlreadyCurrent toolkit.codec observed implementationAddress)
  .ofExcept (refuseIf (!current) (.upgradeVerificationFailed plan.proxyAddress
    implementationAddress observed writeBack.transactionHash))
  let existing ← toolkit.getProxyRecord plan.proxyAddress
  .when existing.isNone
    (recordingLiveProxy ⟨plan.proxyAddress, writeBack.transactionHash⟩
      (toolkit.recordProxy plan.proxyAddress plan.kind))
  return (writeBack, implementationAddress)

/-- Step 8, queued: the implementation, the dispatched call, its confirmation,
the slot, the record. -/
def upgradeProxyStep (context : OperationContext E S) (plan : ProxyUpgradePlan E) :
    Task S (WriteBack × String) := do
  let fetched ← fetchOrDeployThrough context plan.contract plan.validated
  let writeBack ← context.toolkit.sendUpgradeCall (plan.request fetched.address)
  settleUpgradedProxy context.toolkit plan fetched.address writeBack

/-- Steps 1 to 7. -/
def planProxyUpgrade (context : OperationContext E S) (proxy : String)
    (contract : ContractAbstraction E) : Task S (ProxyUpgradePlan E) := do
  let { toolkit, resolved } := context
  let name ← .ofExcept (nameOf E contract "upgradeProxy")
  let proxyAddress ← .ofExcept (canonicalizeAddress toolkit.codec proxy)
  let validated ← toolkit.validateImplementation name resolved
  .ofExcept (linkGate contract resolved)
  toolkit.requireDeployer
  let slots ← toolkit.proxySlots proxyAddress
  let (currentImplementation, admin) ← .ofExcept (upgradeableSlots proxyAddress slots)
  let kind ← toolkit.processProxyKind proxyAddress validated resolved
  let currentLayout ← toolkit.storedLayoutFor currentImplementation
  toolkit.assertStorageCompatible currentLayout validated resolved
  let callData ← .ofExcept (encodeCall contract.abi resolved.call)
  let adminAddress ← .ofExcept (upgradeAdmin proxyAddress kind admin)
  let interfaceVersion ← toolkit.readUpgradeInterfaceVersion (adminAddress.getD proxyAddress)
  let dispatch ← .ofExcept (planUpgradeDispatch kind interfaceVersion (callData ≠ "0x"))
  return { contract, validated, proxyAddress, kind, adminAddress, callData, dispatch }

def runUpgradeProxy (context : OperationContext E S) (proxy : String)
    (contract : ContractAbstraction E) : Task S UpgradedProxy := do
  let { toolkit, .. } := context
  let plan ← planProxyUpgrade context proxy contract
  let (writeBack, implementation) ← toolkit.queue
    (restoringWriteBackOnFailure toolkit.entry contract (upgradeProxyStep context plan))
  wildcardNote toolkit
  let handle ← toolkit.contractAt contract plan.proxyAddress
  let handle ← .ofExcept (sealUnavailable handle)
  let transaction ← .ofExcept (transactionIdentity writeBack.transactionHash "upgradeProxy")
  return ⟨handle, plan.proxyAddress, transaction, implementation⟩

end

end TronUpgrades.Tronbox
