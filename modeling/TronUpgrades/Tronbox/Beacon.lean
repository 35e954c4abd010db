import TronUpgrades.Tronbox.Proxy

/-!
# Beacons

Deploying a beacon, a proxy behind one, and upgrading a beacon: the layout
baseline is the beacon's own answer, and every candidate is judged under the
kind `beacon`.
-/

namespace TronUpgrades.Tronbox

open Effects Address

section
variable {E : Engine} {S : Signature}

def requireBeacon (toolkit : OperationToolkit E S) (beaconAddress : String) : Task S String := do
  let read ← toolkit.readBeaconImplementation beaconAddress
  match read with
  | .implementation address => return address
  | _ => throw (.nothingToAdopt beaconAddress
      "an address that does not answer implementation() — not a beacon")

/-- A deployment whose revert has a write-back to put back. -/
structure PendingDeploy (E : Engine) where
  abstraction : ContractAbstraction E
  prior : PriorWriteBack
  live : SpentDeployment

def confirmOrRefuse (toolkit : OperationToolkit E S) (transactionHash : String)
    (deploy : Option (PendingDeploy E)) : Task S Unit := do
  let verdict ← toolkit.confirm transactionHash
  match verdict, deploy with
  | .reverted verdict, some deploy => do
    restoreWriteBack toolkit.entry deploy.abstraction deploy.prior
    throw (.transactionReverted verdict)
  | .reverted verdict, none => throw (.transactionReverted verdict)
  | .indeterminate verdict, deploy =>
    throw (.confirmationIndeterminate verdict (deploy.map (·.live)))
  | .confirmedSuccessful _, _ => return ()

/-- Deploys a plugin contract through its own artifact and confirms it. -/
def deployAndConfirm (toolkit : OperationToolkit E S) (abstraction : ContractAbstraction E)
    (args : List Json) : Task S (WriteBack × SpentDeployment) := do
  let prior ← readWriteBack toolkit.entry abstraction
  let deployed ← toolkit.hostDeploy abstraction args
  let address ← .ofExcept (canonicalizeAddress toolkit.codec deployed.address)
  let live : SpentDeployment := ⟨address, deployed.transactionHash⟩
  confirmOrRefuse toolkit deployed.transactionHash (some { abstraction, prior, live })
  return (deployed, live)

-- ---------------------------------------------------------------------------
-- deployBeacon
-- ---------------------------------------------------------------------------

structure DeployedBeacon where
  contract : ContractHandle
  address : String
  transaction : String
  implementation : String

def beaconOwner (toolkit : OperationToolkit E S) (resolved : ResolvedForProxyOps E)
    (sender : EffectiveSender) : Except Failure String :=
  match resolved.initialOwner, sender with
  | some owner, _ => canonicalizeAddress toolkit.codec owner
  | none, .resolved address => canonicalizeAddress toolkit.codec address
  | none, .unconfigured => .error .beaconInitialOwnerRequired

def deployBeaconStep (context : OperationContext E S) (contract : ContractAbstraction E)
    (validated : ValidatedImplementation E) (beaconAbstraction : ContractAbstraction E)
    (owner : String) : Task S (WriteBack × String) := do
  let fetched ← fetchOrDeployThrough context contract validated
  let (deployed, _) ← deployAndConfirm context.toolkit beaconAbstraction
    [.str fetched.address, .str owner]
  return (deployed, fetched.address)

def runDeployBeacon (context : OperationContext E S) (contract : ContractAbstraction E) :
    Task S DeployedBeacon := do
  let { toolkit, resolved } := context
  let name ← .ofExcept (nameOf E contract "deployBeacon")
  let validated ← toolkit.validateImplementation name { resolved with kind := some .beacon }
  toolkit.requireDeployer
  let sender ← toolkit.resolveSender
  let owner ← .ofExcept (beaconOwner toolkit resolved sender)
  let beaconAbstraction ← toolkit.proxyArtifact "UpgradeableBeacon"
  let (deployed, implementation) ← toolkit.queue
    (restoringWriteBackOnFailure toolkit.entry contract
      (deployBeaconStep context contract validated beaconAbstraction owner))
  let handle ← toolkit.contractAt beaconAbstraction deployed.address
  let handle ← .ofExcept (sealUnavailable handle)
  let transaction ← .ofExcept (transactionIdentity deployed.transactionHash "deployBeacon")
  return ⟨handle, deployed.address, transaction, implementation⟩

-- ---------------------------------------------------------------------------
-- deployBeaconProxy
-- ---------------------------------------------------------------------------

def deployBeaconProxyStep (toolkit : OperationToolkit E S)
    (proxyAbstraction : ContractAbstraction E) (beacon initData : String) : Task S WriteBack := do
  let (deployed, live) ← deployAndConfirm toolkit proxyAbstraction [.str beacon, .str initData]
  recordingLiveProxy live (toolkit.recordProxy live.address .beacon)
  return deployed

def runDeployBeaconProxy (context : OperationContext E S) (beaconAddress : String)
    (contract : ContractAbstraction E) (args : List Json) : Task S DeployedProxy := do
  let { toolkit, resolved } := context
  let beacon ← .ofExcept (canonicalizeAddress toolkit.codec beaconAddress)
  let _ ← requireBeacon toolkit beacon
  let initData ← .ofExcept (encodeInitializer contract.abi "beacon" args resolved.initializer)
  toolkit.requireDeployer
  let proxyAbstraction ← toolkit.proxyArtifact "BeaconProxy"
  let writeBack ← toolkit.queue
    (deployBeaconProxyStep toolkit proxyAbstraction beacon initData)
  let handle ← toolkit.contractAt contract writeBack.address
  let handle ← .ofExcept (sealUnavailable handle)
  let transaction ← .ofExcept (transactionIdentity writeBack.transactionHash "deployBeaconProxy")
  return ⟨handle, writeBack.address, transaction⟩

-- ---------------------------------------------------------------------------
-- upgradeBeacon
-- ---------------------------------------------------------------------------

def upgradeBeaconRequest (beacon implementationAddress : String) : FacadeRequest where
  facadeName := "UpgradeableBeacon"
  target := beacon
  method := "upgradeTo"
  args := [.str implementationAddress]

/-- What follows the upgrade transaction. -/
def settleUpgradedBeacon (toolkit : OperationToolkit E S) (beacon implementationAddress : String)
    (writeBack : WriteBack) : Task S (WriteBack × String) := do
  confirmOrRefuse toolkit writeBack.transactionHash none
  let observed ← requireBeacon toolkit beacon
  let current ← .ofExcept (isAlreadyCurrent toolkit.codec observed implementationAddress)
  .ofExcept (refuseIf (!current) (.upgradeVerificationFailed beacon implementationAddress
    observed writeBack.transactionHash))
  return (writeBack, implementationAddress)

def upgradeBeaconStep (context : OperationContext E S) (contract : ContractAbstraction E)
    (validated : ValidatedImplementation E) (beacon : String) : Task S (WriteBack × String) := do
  let fetched ← fetchOrDeployThrough context contract validated
  let writeBack ← context.toolkit.callThroughFacade (upgradeBeaconRequest beacon fetched.address)
  settleUpgradedBeacon context.toolkit beacon fetched.address writeBack

def runUpgradeBeacon (context : OperationContext E S) (beaconAddress : String)
    (contract : ContractAbstraction E) : Task S UpgradedProxy := do
  let { toolkit, resolved } := context
  let beacon ← .ofExcept (canonicalizeAddress toolkit.codec beaconAddress)
  let currentImplementation ← requireBeacon toolkit beacon
  let name ← .ofExcept (nameOf E contract "upgradeBeacon")
  let validated ← toolkit.validateImplementation name { resolved with kind := some .beacon }
  let currentLayout ← toolkit.storedLayoutFor currentImplementation
  toolkit.assertStorageCompatible currentLayout validated resolved
  toolkit.requireDeployer
  let (writeBack, implementation) ← toolkit.queue
    (restoringWriteBackOnFailure toolkit.entry contract
      (upgradeBeaconStep context contract validated beacon))
  let handle ← toolkit.contractAt contract beacon
  let handle ← .ofExcept (sealUnavailable handle)
  let transaction ← .ofExcept (transactionIdentity writeBack.transactionHash "upgradeBeacon")
  return ⟨handle, beacon, transaction, implementation⟩

end

end TronUpgrades.Tronbox
