import TronUpgrades.Effects.Refine
import TronUpgrades.Tronbox.Operation

/-!
# Two toolkits alike

Where each method of one toolkit tracks the same method of another, so does
each operation: an operation is made of the methods and of what both toolkits
share. One lemma for each part of an operation, in the order of the parts.
-/

namespace TronUpgrades.Tronbox

open Effects Record Address

section
variable {E : Engine} {T S : Signature} (v : Reading T S Failure κ)

structure HostEntry.Alike (p : HostEntry E T) (q : HostEntry E S) : Prop where
  address : ∀ contract, Tracks v (p.address contract) (q.address contract)
  setAddress : ∀ contract address,
    Tracks v (p.setAddress contract address) (q.setAddress contract address)
  resetAddress : ∀ contract, Tracks v (p.resetAddress contract) (q.resetAddress contract)
  transactionHash : ∀ contract, Tracks v (p.transactionHash contract) (q.transactionHash contract)
  setTransactionHash : ∀ contract hash,
    Tracks v (p.setTransactionHash contract hash) (q.setTransactionHash contract hash)
  deleteTransactionHash : ∀ contract,
    Tracks v (p.deleteTransactionHash contract) (q.deleteTransactionHash contract)
  isDeployed : ∀ contract, Tracks v (p.isDeployed contract) (q.isDeployed contract)

structure FacadeHost.Alike (p : FacadeHost E T) (q : FacadeHost E S) : Prop where
  proxyArtifact : ∀ name, Tracks v (p.proxyArtifact name) (q.proxyArtifact name)
  attach : ∀ facade address, Tracks v (p.attach facade address) (q.attach facade address)
  send : ∀ request, Tracks v (p.send request) (q.send request)

structure OperationToolkit.Alike (p : OperationToolkit E T) (q : OperationToolkit E S) :
    Prop where
  codec : p.codec = q.codec
  wildcardNetwork : p.wildcardNetwork = q.wildcardNetwork
  entry : p.entry.Alike v q.entry
  note : ∀ text, Tracks v (p.note text) (q.note text)
  warn : ∀ text, Tracks v (p.warn text) (q.warn text)
  contractAt : ∀ contract address,
    Tracks v (p.contractAt contract address) (q.contractAt contract address)
  validateImplementation : ∀ name resolved,
    Tracks v (p.validateImplementation name resolved) (q.validateImplementation name resolved)
  requireDeployer : Tracks v p.requireDeployer q.requireDeployer
  queue : ∀ {α : Type} {x : Task T α} {y : Task S α}, Tracks v x y →
    Tracks v (p.queue x) (q.queue y)
  priorDeployedAddress : ∀ contract,
    Tracks v (p.priorDeployedAddress contract) (q.priorDeployedAddress contract)
  replayVerdicts : Tracks v p.replayVerdicts q.replayVerdicts
  resolveSender : Tracks v p.resolveSender q.resolveSender
  signerOf : ∀ hash, Tracks v (p.signerOf hash) (q.signerOf hash)
  proxyArtifact : ∀ name, Tracks v (p.proxyArtifact name) (q.proxyArtifact name)
  looksLikeProxyAdmin : ∀ address,
    Tracks v (p.looksLikeProxyAdmin address) (q.looksLikeProxyAdmin address)
  fetchOrDeployImplementation : ∀ {α : Type} (validated : ValidatedImplementation E) resolved
    (toDeployment : α → EngineDeployment) {x : Task T α} {y : Task S α}, Tracks v x y →
    Tracks v (p.fetchOrDeployImplementation validated resolved toDeployment x)
      (q.fetchOrDeployImplementation validated resolved toDeployment y)
  hostDeploy : ∀ contract args, Tracks v (p.hostDeploy contract args) (q.hostDeploy contract args)
  confirm : ∀ hash, Tracks v (p.confirm hash) (q.confirm hash)
  inferKind : ∀ validated, Tracks v (p.inferKind validated) (q.inferKind validated)
  processProxyKind : ∀ address validated resolved,
    Tracks v (p.processProxyKind address validated resolved)
      (q.processProxyKind address validated resolved)
  storedLayoutFor : ∀ address, Tracks v (p.storedLayoutFor address) (q.storedLayoutFor address)
  assertStorageCompatible : ∀ current validated resolved,
    Tracks v (p.assertStorageCompatible current validated resolved)
      (q.assertStorageCompatible current validated resolved)
  callThroughFacade : ∀ request,
    Tracks v (p.callThroughFacade request) (q.callThroughFacade request)
  ownerOf : ∀ address, Tracks v (p.ownerOf address) (q.ownerOf address)
  proxySlots : ∀ address, Tracks v (p.proxySlots address) (q.proxySlots address)
  sendUpgradeCall : ∀ request, Tracks v (p.sendUpgradeCall request) (q.sendUpgradeCall request)
  recordProxy : ∀ address kind,
    Tracks v (p.recordProxy address kind) (q.recordProxy address kind)
  readUpgradeInterfaceVersion : ∀ address,
    Tracks v (p.readUpgradeInterfaceVersion address) (q.readUpgradeInterfaceVersion address)
  readImplementationAddress : ∀ address,
    Tracks v (p.readImplementationAddress address) (q.readImplementationAddress address)
  readBeaconImplementation : ∀ address,
    Tracks v (p.readBeaconImplementation address) (q.readBeaconImplementation address)
  getCode : ∀ address, Tracks v (p.getCode address) (q.getCode address)
  getProxyRecord : ∀ address, Tracks v (p.getProxyRecord address) (q.getProxyRecord address)
  getImplRecord : ∀ address, Tracks v (p.getImplRecord address) (q.getImplRecord address)

variable {v}

-- ---------------------------------------------------------------------------
-- The write-back
-- ---------------------------------------------------------------------------

section
variable {p : HostEntry E T} {q : HostEntry E S} (he : p.Alike v q)
  (contract : ContractAbstraction E)
include he

theorem readWriteBackHash_tracks :
    Tracks v (readWriteBackHash p contract) (readWriteBackHash q contract) := by
  refine .catching ((he.transactionHash contract).bind fun _ => .pure _) fun _ => ?_
  exact .pure none

theorem readWriteBack_tracks :
    Tracks v (readWriteBack p contract) (readWriteBack q contract) := by
  refine .bind (.catching ((he.address contract).bind fun _ => .pure _) fun _ => .pure none)
    fun address => ?_
  exact (readWriteBackHash_tracks he contract).bind fun _ => .pure _

theorem restoreWriteBack_tracks (prior : PriorWriteBack) :
    Tracks v (restoreWriteBack p contract prior) (restoreWriteBack q contract prior) := by
  refine .bind (.catching ?_ fun _ => .pure ()) fun _ => .catching ?_ fun _ => .pure ()
  · cases prior.address with
    | none => exact he.resetAddress contract
    | some address => exact he.setAddress contract address
  · cases prior.transactionHash with
    | none => exact he.deleteTransactionHash contract
    | some hash => exact he.setTransactionHash contract hash

theorem restoringWriteBackOnFailure_tracks {x : Task T α} {y : Task S α} (hx : Tracks v x y) :
    Tracks v (restoringWriteBackOnFailure p contract x)
      (restoringWriteBackOnFailure q contract y) := by
  refine (readWriteBack_tracks he contract).bind fun prior => hx.catching fun e => ?_
  exact (restoreWriteBack_tracks he contract prior).bind fun _ => .throw e

theorem readPriorDeployedAddress_tracks :
    Tracks v (readPriorDeployedAddress p contract) (readPriorDeployedAddress q contract) := by
  unfold readPriorDeployedAddress
  split
  · exact .pure none
  · refine .bind (.catching (he.isDeployed contract) fun _ => .pure false) fun deployed => ?_
    split
    · exact he.address contract
    · exact .pure none

end

/-- The facade calls of two hosts that are alike. -/
theorem callThroughFacade_tracks {p : FacadeHost E T} {q : FacadeHost E S} (hf : p.Alike v q)
    (request : FacadeRequest) :
    Tracks v (callThroughFacade p request) (callThroughFacade q request) := by
  refine (hf.proxyArtifact request.facadeName).bind fun facade => ?_
  split
  · exact .throw _
  · refine (hf.attach facade request.target).bind fun attached => ?_
    split
    · exact .throw _
    · refine (hf.send request).bind fun result => ?_
      cases callTransactionHash result with
      | none => exact .throw _
      | some hash => exact .pure _

theorem recordingLiveProxy_tracks {x : Task T α} {y : Task S α} (live : SpentDeployment)
    (hx : Tracks v x y) : Tracks v (recordingLiveProxy live x) (recordingLiveProxy live y) :=
  hx.catching fun _ => .throw _

section
variable {p : OperationToolkit E T} {q : OperationToolkit E S} (ht : p.Alike v q)
include ht

/-- What is computed with the codec is the same on both sides. -/
theorem OperationToolkit.Alike.computes (f : AddressCodec → Except Failure α) :
    Tracks v (.ofExcept (f p.codec)) (.ofExcept (f q.codec)) := by
  rw [ht.codec]
  exact .ofExcept _

theorem OperationToolkit.Alike.canonical (address : String) :
    Tracks v (.ofExcept (canonicalizeAddress p.codec address))
      (.ofExcept (canonicalizeAddress q.codec address)) :=
  ht.computes (canonicalizeAddress · address)

-- ---------------------------------------------------------------------------
-- Parts that several operations share
-- ---------------------------------------------------------------------------

theorem kindOrInferred_tracks (validated : ValidatedImplementation E)
    (resolved : ResolvedForProxyOps E) :
    Tracks v (kindOrInferred p validated resolved) (kindOrInferred q validated resolved) := by
  unfold kindOrInferred
  cases resolved.kind with
  | none => exact ht.inferKind validated
  | some kind => exact .pure kind

theorem fetchOrDeployThrough_tracks (resolved : ResolvedForProxyOps E)
    (contract : ContractAbstraction E) (validated : ValidatedImplementation E) :
    Tracks v (fetchOrDeployThrough ⟨p, resolved⟩ contract validated)
      (fetchOrDeployThrough ⟨q, resolved⟩ contract validated) :=
  ht.fetchOrDeployImplementation validated resolved _ (ht.hostDeploy contract _)

theorem wildcardNote_tracks : Tracks v (wildcardNote p) (wildcardNote q) := by
  unfold wildcardNote
  rw [ht.wildcardNetwork]
  exact (ht.note _).when

/-- The handle, and the transaction the operation reports. -/
theorem handOver_tracks (contract : ContractAbstraction E) (address : String)
    {f : ContractHandle → Task T α} {g : ContractHandle → Task S α}
    (hf : ∀ handle, Tracks v (f handle) (g handle)) :
    Tracks v
      ((p.contractAt contract address).bind fun handle =>
        (Script.ofExcept (sealUnavailable handle)).bind f)
      ((q.contractAt contract address).bind fun handle =>
        (Script.ofExcept (sealUnavailable handle)).bind g) :=
  (ht.contractAt contract address).bind fun _ => .bind (.ofExcept _) hf

-- ---------------------------------------------------------------------------
-- Proxies
-- ---------------------------------------------------------------------------

theorem refuseStaleRecord_tracks (decision : DeployReplayDecision) :
    Tracks v (refuseStaleRecord p decision) (refuseStaleRecord q decision) := by
  cases decision with
  | proceed => exact .pure ()
  | refuse address because =>
    refine .bind ?_ fun known => .ofExcept _
    split
    · exact ht.getImplRecord address
    · exact .pure false

theorem resolveInitialOwner_tracks (resolved : ResolvedForProxyOps E) (kind : ProxyKind)
    (sender : EffectiveSender) :
    Tracks v (resolveInitialOwner ⟨p, resolved⟩ kind sender)
      (resolveInitialOwner ⟨q, resolved⟩ kind sender) := by
  unfold resolveInitialOwner
  dsimp only
  split
  · exact .pure none
  · rw [ht.codec]
    refine .bind (.ofExcept _) fun owner => .bind ?_ fun looksLikeAdmin => ?_
    · split
      · exact .pure false
      · exact ht.looksLikeProxyAdmin owner
    · exact .bind (.ofExcept _) fun _ => .pure _

theorem compareSender_tracks (sender : EffectiveSender) (signer : Option String)
    (live : SpentDeployment) :
    Tracks v (compareSender p sender signer live) (compareSender q sender signer live) := by
  cases signer with
  | none => exact ht.warn _
  | some signer =>
    exact (ht.computes (assertSignerMatches · sender signer live)).bind fun _ => .pure _

theorem settleDeployedProxy_tracks (plan : ProxyDeployPlan E) (prior : PriorWriteBack)
    (writeBack : WriteBack) :
    Tracks v (settleDeployedProxy p plan prior writeBack)
      (settleDeployedProxy q plan prior writeBack) := by
  refine .bind (.ofExcept _) fun _ => (ht.canonical _).bind fun address => ?_
  refine (ht.confirm _).bind fun verdict => ?_
  cases verdict with
  | reverted verdict =>
    exact (restoreWriteBack_tracks ht.entry _ prior).bind fun _ => .throw _
  | indeterminate verdict => exact .throw _
  | confirmedSuccessful hash =>
    refine (ht.signerOf _).bind fun signer => (compareSender_tracks ht _ _ _).bind fun _ => ?_
    exact (recordingLiveProxy_tracks _ (ht.recordProxy _ _)).bind fun _ => .pure _

theorem deployProxyStep_tracks (resolved : ResolvedForProxyOps E) (plan : ProxyDeployPlan E) :
    Tracks v (deployProxyStep ⟨p, resolved⟩ plan) (deployProxyStep ⟨q, resolved⟩ plan) := by
  refine (fetchOrDeployThrough_tracks ht resolved _ _).bind fun fetched => ?_
  refine (readWriteBack_tracks ht.entry _).bind fun prior => ?_
  exact (ht.hostDeploy _ _).bind fun writeBack => settleDeployedProxy_tracks ht plan prior writeBack

theorem planProxyDeploy_tracks (resolved : ResolvedForProxyOps E)
    (contract : ContractAbstraction E) (args : List Json) :
    Tracks v (planProxyDeploy ⟨p, resolved⟩ contract args)
      (planProxyDeploy ⟨q, resolved⟩ contract args) := by
  refine .bind (.ofExcept _) fun name => (ht.validateImplementation _ _).bind fun validated => ?_
  refine .bind (.ofExcept _) fun _ => (kindOrInferred_tracks ht _ _).bind fun kind => ?_
  refine .bind (.ofExcept _) fun _ => .bind (.ofExcept _) fun _ => ?_
  refine ht.requireDeployer.bind fun _ => (ht.priorDeployedAddress _).bind fun prior => ?_
  refine ht.replayVerdicts.bind fun verdicts => ?_
  refine (ht.computes (decideDeployReplay · prior verdicts)).bind fun decision => ?_
  refine (refuseStaleRecord_tracks ht decision).bind fun _ => ?_
  refine .bind (.ofExcept _) fun _ => .bind (.ofExcept _) fun initData => ?_
  refine ht.resolveSender.bind fun sender => (ht.proxyArtifact _).bind fun proxyAbstraction => ?_
  exact (resolveInitialOwner_tracks ht resolved kind sender).bind fun _ => .pure _

theorem runDeployProxy_tracks (resolved : ResolvedForProxyOps E)
    (contract : ContractAbstraction E) (args : List Json) :
    Tracks v (runDeployProxy ⟨p, resolved⟩ contract args)
      (runDeployProxy ⟨q, resolved⟩ contract args) := by
  refine (planProxyDeploy_tracks ht resolved contract args).bind fun plan => ?_
  refine (ht.queue (restoringWriteBackOnFailure_tracks ht.entry contract
    (deployProxyStep_tracks ht resolved plan))).bind fun outcome => ?_
  refine (ht.entry.setAddress _ _).bind fun _ => (ht.entry.setTransactionHash _ _).bind fun _ => ?_
  refine (wildcardNote_tracks ht).bind fun _ => handOver_tracks ht _ _ fun handle => ?_
  exact .bind (.ofExcept _) fun _ => .pure _

theorem confirmUpgrade_tracks (hash : String) :
    Tracks v (confirmUpgrade p hash) (confirmUpgrade q hash) := by
  refine (ht.confirm hash).bind fun verdict => ?_
  cases verdict with
  | reverted verdict => exact .throw _
  | indeterminate verdict => exact .throw _
  | confirmedSuccessful hash => exact .pure ()

theorem settleUpgradedProxy_tracks (plan : ProxyUpgradePlan E) (implementation : String)
    (writeBack : WriteBack) :
    Tracks v (settleUpgradedProxy p plan implementation writeBack)
      (settleUpgradedProxy q plan implementation writeBack) := by
  refine (confirmUpgrade_tracks ht _).bind fun _ => ?_
  refine (ht.readImplementationAddress _).bind fun observed => ?_
  refine (ht.computes (isAlreadyCurrent · observed implementation)).bind fun current => ?_
  refine .bind (.ofExcept _) fun _ => (ht.getProxyRecord _).bind fun existing => ?_
  refine .bind ?_ fun _ => .pure _
  exact (recordingLiveProxy_tracks _ (ht.recordProxy _ _)).when

theorem planProxyUpgrade_tracks (resolved : ResolvedForProxyOps E) (proxy : String)
    (contract : ContractAbstraction E) :
    Tracks v (planProxyUpgrade ⟨p, resolved⟩ proxy contract)
      (planProxyUpgrade ⟨q, resolved⟩ proxy contract) := by
  refine .bind (.ofExcept _) fun name => (ht.canonical proxy).bind fun proxyAddress => ?_
  refine (ht.validateImplementation _ _).bind fun validated => .bind (.ofExcept _) fun _ => ?_
  refine ht.requireDeployer.bind fun _ => (ht.proxySlots _).bind fun slots => ?_
  refine .bind (.ofExcept _) fun read => (ht.processProxyKind _ _ _).bind fun kind => ?_
  refine (ht.storedLayoutFor _).bind fun layout => ?_
  refine (ht.assertStorageCompatible _ _ _).bind fun _ => ?_
  refine .bind (.ofExcept _) fun callData => .bind (.ofExcept _) fun admin => ?_
  refine (ht.readUpgradeInterfaceVersion _).bind fun version => ?_
  exact .bind (.ofExcept _) fun _ => .pure _

theorem runUpgradeProxy_tracks (resolved : ResolvedForProxyOps E) (proxy : String)
    (contract : ContractAbstraction E) :
    Tracks v (runUpgradeProxy ⟨p, resolved⟩ proxy contract)
      (runUpgradeProxy ⟨q, resolved⟩ proxy contract) := by
  refine (planProxyUpgrade_tracks ht resolved proxy contract).bind fun plan => ?_
  refine .bind (ht.queue (restoringWriteBackOnFailure_tracks ht.entry contract ?_)) fun done => ?_
  · refine (fetchOrDeployThrough_tracks ht resolved _ _).bind fun fetched => ?_
    refine (ht.sendUpgradeCall _).bind fun writeBack => ?_
    exact settleUpgradedProxy_tracks ht plan fetched.address writeBack
  · refine (wildcardNote_tracks ht).bind fun _ => handOver_tracks ht _ _ fun handle => ?_
    exact .bind (.ofExcept _) fun _ => .pure _

-- ---------------------------------------------------------------------------
-- Beacons
-- ---------------------------------------------------------------------------

theorem requireBeacon_tracks (beacon : String) :
    Tracks v (requireBeacon p beacon) (requireBeacon q beacon) := by
  refine (ht.readBeaconImplementation beacon).bind fun read => ?_
  cases read with
  | implementation address => exact .pure address
  | _ => exact .throw _

theorem confirmOrRefuse_tracks (hash : String) (deploy : Option (PendingDeploy E)) :
    Tracks v (confirmOrRefuse p hash deploy) (confirmOrRefuse q hash deploy) := by
  refine (ht.confirm hash).bind fun verdict => ?_
  cases verdict with
  | confirmedSuccessful hash => exact .pure ()
  | indeterminate verdict => exact .throw _
  | reverted verdict =>
    cases deploy with
    | none => exact .throw _
    | some deploy => exact (restoreWriteBack_tracks ht.entry _ _).bind fun _ => .throw _

theorem deployAndConfirm_tracks (abstraction : ContractAbstraction E) (args : List Json) :
    Tracks v (deployAndConfirm p abstraction args) (deployAndConfirm q abstraction args) := by
  refine (readWriteBack_tracks ht.entry abstraction).bind fun prior => ?_
  refine (ht.hostDeploy _ _).bind fun deployed => (ht.canonical _).bind fun address => ?_
  exact (confirmOrRefuse_tracks ht _ _).bind fun _ => .pure _

theorem runDeployBeacon_tracks (resolved : ResolvedForProxyOps E)
    (contract : ContractAbstraction E) :
    Tracks v (runDeployBeacon ⟨p, resolved⟩ contract)
      (runDeployBeacon ⟨q, resolved⟩ contract) := by
  have owner (sender : EffectiveSender) :
      beaconOwner p resolved sender = beaconOwner q resolved sender := by
    unfold beaconOwner
    rw [ht.codec]
  refine .bind (.ofExcept _) fun name => (ht.validateImplementation _ _).bind fun validated => ?_
  refine ht.requireDeployer.bind fun _ => ht.resolveSender.bind fun sender => ?_
  dsimp only
  rw [owner]
  refine .bind (.ofExcept _) fun owner => (ht.proxyArtifact _).bind fun beaconAbstraction => ?_
  refine .bind (ht.queue (restoringWriteBackOnFailure_tracks ht.entry contract ?_)) fun done => ?_
  · refine (fetchOrDeployThrough_tracks ht resolved contract validated).bind fun fetched => ?_
    exact (deployAndConfirm_tracks ht _ _).bind fun _ => .pure _
  · exact handOver_tracks ht _ _ fun handle => .bind (.ofExcept _) fun _ => .pure _

theorem runDeployBeaconProxy_tracks (resolved : ResolvedForProxyOps E) (beacon : String)
    (contract : ContractAbstraction E) (args : List Json) :
    Tracks v (runDeployBeaconProxy ⟨p, resolved⟩ beacon contract args)
      (runDeployBeaconProxy ⟨q, resolved⟩ beacon contract args) := by
  refine (ht.canonical beacon).bind fun beacon => (requireBeacon_tracks ht beacon).bind fun _ => ?_
  refine .bind (.ofExcept _) fun initData => ht.requireDeployer.bind fun _ => ?_
  refine (ht.proxyArtifact _).bind fun proxyAbstraction => ?_
  refine .bind (ht.queue ((deployAndConfirm_tracks ht _ _).bind fun deployed => ?_)) fun done => ?_
  · exact (recordingLiveProxy_tracks _ (ht.recordProxy _ _)).bind fun _ => .pure _
  · exact handOver_tracks ht _ _ fun handle => .bind (.ofExcept _) fun _ => .pure _

theorem settleUpgradedBeacon_tracks (beacon implementation : String) (writeBack : WriteBack) :
    Tracks v (settleUpgradedBeacon p beacon implementation writeBack)
      (settleUpgradedBeacon q beacon implementation writeBack) := by
  refine (confirmOrRefuse_tracks ht _ none).bind fun _ => ?_
  refine (requireBeacon_tracks ht beacon).bind fun observed => ?_
  refine (ht.computes (isAlreadyCurrent · observed implementation)).bind fun current => ?_
  exact .bind (.ofExcept _) fun _ => .pure _

theorem runUpgradeBeacon_tracks (resolved : ResolvedForProxyOps E) (beacon : String)
    (contract : ContractAbstraction E) :
    Tracks v (runUpgradeBeacon ⟨p, resolved⟩ beacon contract)
      (runUpgradeBeacon ⟨q, resolved⟩ beacon contract) := by
  refine (ht.canonical beacon).bind fun beacon => ?_
  refine (requireBeacon_tracks ht beacon).bind fun current => .bind (.ofExcept _) fun name => ?_
  refine (ht.validateImplementation _ _).bind fun validated => ?_
  refine (ht.storedLayoutFor _).bind fun layout => ?_
  refine (ht.assertStorageCompatible _ _ _).bind fun _ => ht.requireDeployer.bind fun _ => ?_
  refine .bind (ht.queue (restoringWriteBackOnFailure_tracks ht.entry contract ?_)) fun done => ?_
  · refine (fetchOrDeployThrough_tracks ht resolved contract validated).bind fun fetched => ?_
    refine (ht.callThroughFacade _).bind fun writeBack => ?_
    exact settleUpgradedBeacon_tracks ht beacon fetched.address writeBack
  · exact handOver_tracks ht _ _ fun handle => .bind (.ofExcept _) fun _ => .pure _

-- ---------------------------------------------------------------------------
-- Standalone operations
-- ---------------------------------------------------------------------------

theorem settleImplementation_tracks (contract : ContractAbstraction E) (prior : PriorWriteBack)
    (fetched : Fetched WriteBack) :
    Tracks v (settleImplementation p contract prior fetched)
      (settleImplementation q contract prior fetched) := by
  unfold settleImplementation
  split
  · refine (ht.confirm _).bind fun verdict => ?_
    cases verdict with
    | reverted verdict =>
      exact (restoreWriteBack_tracks ht.entry contract prior).bind fun _ => .throw _
    | indeterminate verdict => exact (ht.canonical _).bind fun _ => .throw _
    | confirmedSuccessful hash => exact .pure _
  · exact readWriteBackHash_tracks ht.entry contract

theorem deployImplementationThroughQueue_tracks (resolved : ResolvedForProxyOps E)
    (contract : ContractAbstraction E) (operation : String) :
    Tracks v (deployImplementationThroughQueue ⟨p, resolved⟩ contract operation)
      (deployImplementationThroughQueue ⟨q, resolved⟩ contract operation) := by
  refine .bind (.ofExcept _) fun name => (ht.validateImplementation _ _).bind fun validated => ?_
  refine ht.requireDeployer.bind fun _ => .bind (ht.queue ?_) fun done => ?_
  · refine (readWriteBack_tracks ht.entry contract).bind fun prior => ?_
    refine (fetchOrDeployThrough_tracks ht resolved contract validated).bind fun fetched => ?_
    exact (settleImplementation_tracks ht contract prior fetched).bind fun _ => .pure _
  · exact .bind (.ofExcept _) fun _ => .pure _

theorem runPrepareUpgrade_tracks (resolved : ResolvedForProxyOps E) (proxy : String)
    (contract : ContractAbstraction E) :
    Tracks v (runPrepareUpgrade ⟨p, resolved⟩ proxy contract)
      (runPrepareUpgrade ⟨q, resolved⟩ proxy contract) := by
  refine (ht.canonical proxy).bind fun proxy => .bind (.ofExcept _) fun _ => ?_
  refine (ht.proxySlots proxy).bind fun slots => .bind (.ofExcept _) fun read => ?_
  refine (ht.getProxyRecord proxy).bind fun record => .bind (.ofExcept _) fun kind => ?_
  refine .bind (.ofExcept _) fun name => (ht.validateImplementation _ _).bind fun validated => ?_
  refine ht.requireDeployer.bind fun _ => (ht.storedLayoutFor _).bind fun layout => ?_
  refine (ht.assertStorageCompatible _ _ _).bind fun _ => ?_
  exact deployImplementationThroughQueue_tracks ht _ contract "prepareUpgrade"

theorem sendTransfer_tracks (proxy admin target : String) (owner : Option String) :
    Tracks v (sendTransfer p proxy admin target owner) (sendTransfer q proxy admin target owner) := by
  refine ht.resolveSender.bind fun sender => ?_
  refine (ht.computes (assertHolds · proxy target owner sender)).bind fun _ => ?_
  refine ht.requireDeployer.bind fun _ => .bind (ht.queue ?_) fun outcome => ?_
  · refine (ht.callThroughFacade _).bind fun writeBack => ?_
    refine (confirmUpgrade_tracks ht _).bind fun _ => (ht.ownerOf _).bind fun observed => ?_
    exact .bind (.ofExcept _) fun _ => .pure _
  · exact .bind (.ofExcept _) fun _ => .pure _

theorem runTransferProxyAdminOwnership_tracks (resolved : ResolvedForProxyOps E)
    (proxy newOwner : String) :
    Tracks v (runTransferProxyAdminOwnership ⟨p, resolved⟩ proxy newOwner)
      (runTransferProxyAdminOwnership ⟨q, resolved⟩ proxy newOwner) := by
  refine (ht.canonical proxy).bind fun proxy => (ht.canonical newOwner).bind fun target => ?_
  refine (ht.proxySlots proxy).bind fun slots => .bind (.ofExcept _) fun admin => ?_
  refine (ht.canonical admin).bind fun admin => (ht.ownerOf admin).bind fun owner => ?_
  split
  · exact .pure _
  · exact sendTransfer_tracks ht proxy admin target owner

-- ---------------------------------------------------------------------------
-- Adoption
-- ---------------------------------------------------------------------------

theorem classify_tracks (address : String) (slots : ProxySlotsRead) :
    Tracks v (classify p address slots) (classify q address slots) := by
  match slots with
  | .noCode => exact .throw _
  | .code _ _ (some beacon) =>
    refine (ht.readBeaconImplementation beacon).bind fun read => ?_
    cases read with
    | implementation address => exact .pure _
    | _ => exact .throw _
  | .code (some implementation) admin none => exact .pure _
  | .code none _ none =>
    refine (ht.readBeaconImplementation address).bind fun read => ?_
    cases read <;> exact .pure _

theorem proxyRecordAbsent_tracks (address : String) (found : AdoptedKind)
    (kind : Option ProxyKind) :
    Tracks v (proxyRecordAbsent p address found kind) (proxyRecordAbsent q address found kind) := by
  cases kind with
  | none => exact .pure false
  | some kind =>
    refine (ht.getProxyRecord address).bind fun existing => ?_
    cases existing with
    | none => exact .pure true
    | some recorded => exact .bind (.ofExcept _) fun _ => .pure _

theorem recordAdopted_tracks (address : String) (absent : Bool) (kind : Option ProxyKind) :
    Tracks v (recordAdopted p address absent kind) (recordAdopted q address absent kind) := by
  cases kind with
  | none => exact .pure ()
  | some kind => exact (ht.recordProxy address kind).when

theorem runForceImport_tracks (resolved : ResolvedForProxyOps E) (address : String)
    (contract : ContractAbstraction E) :
    Tracks v (runForceImport ⟨p, resolved⟩ address contract)
      (runForceImport ⟨q, resolved⟩ address contract) := by
  refine (ht.canonical address).bind fun address => (ht.proxySlots address).bind fun slots => ?_
  refine (classify_tracks ht address slots).bind fun found => ?_
  refine .bind (.ofExcept _) fun _ => .bind (.ofExcept _) fun name => ?_
  refine (ht.validateImplementation _ _).bind fun validated => .bind (.ofExcept _) fun expected => ?_
  refine (ht.getCode _).bind fun onChain => .bind (.ofExcept _) fun _ => ?_
  refine (proxyRecordAbsent_tracks ht _ _ _).bind fun absent => .bind (.ofExcept _) fun _ => ?_
  refine (ht.canonical _).bind fun implementation => ?_
  refine (ht.fetchOrDeployImplementation validated _ id ?_).bind fun _ => ?_
  · exact (readWriteBackHash_tracks ht.entry contract).bind fun _ => .pure _
  · refine (recordAdopted_tracks ht _ _ _).bind fun _ => ?_
    exact handOver_tracks ht _ _ fun handle => .pure _

/-- Every operation of the one toolkit tracks the same operation of the other. -/
theorem operations_track (op : Operation E) : Tracks v (op.on p) (op.on q) := by
  cases op with
  | deployProxy resolved contract args => exact runDeployProxy_tracks ht resolved contract args
  | upgradeProxy resolved proxy contract => exact runUpgradeProxy_tracks ht resolved proxy contract
  | deployBeacon resolved contract => exact runDeployBeacon_tracks ht resolved contract
  | deployBeaconProxy resolved beacon contract args =>
    exact runDeployBeaconProxy_tracks ht resolved beacon contract args
  | upgradeBeacon resolved beacon contract =>
    exact runUpgradeBeacon_tracks ht resolved beacon contract
  | deployImplementation resolved contract =>
    exact deployImplementationThroughQueue_tracks ht resolved contract "deployImplementation"
  | prepareUpgrade resolved proxy contract =>
    exact runPrepareUpgrade_tracks ht resolved proxy contract
  | forceImport resolved address contract => exact runForceImport_tracks ht resolved address contract
  | transferProxyAdminOwnership resolved proxy newOwner =>
    exact runTransferProxyAdminOwnership_tracks ht resolved proxy newOwner

end

end

end TronUpgrades.Tronbox
