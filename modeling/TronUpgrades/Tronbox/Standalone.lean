import TronUpgrades.Tronbox.Beacon

/-!
# Standalone operations

Validating, deploying a bare implementation, preparing an upgrade, moving the
authority over a proxy, and adopting what is already on chain.
-/

namespace TronUpgrades.Tronbox

open Effects Address

section
variable {E : Engine} {S : Signature}

structure ImplementationDeployment where
  address : String
  transaction : String

/-- What follows the fetch: a fresh deployment is confirmed, a replayed one
reports the transaction on record. -/
def settleImplementation (toolkit : OperationToolkit E S) (contract : ContractAbstraction E)
    (prior : PriorWriteBack) (fetched : Fetched WriteBack) : Task S (Option String) :=
  match fetched.deployed with
  | some fresh => do
    let verdict ← toolkit.confirm fresh.transactionHash
    match verdict with
    | .reverted verdict => do
      restoreWriteBack toolkit.entry contract prior
      throw (.transactionReverted verdict)
    | .indeterminate verdict => do
      let address ← .ofExcept (canonicalizeAddress toolkit.codec fresh.address)
      throw (.confirmationIndeterminate verdict (some ⟨address, fresh.transactionHash⟩))
    | .confirmedSuccessful _ => return fresh.transactionHash
  | none => readWriteBackHash toolkit.entry contract

def deployImplementationStep (context : OperationContext E S) (contract : ContractAbstraction E)
    (validated : ValidatedImplementation E) : Task S (String × Option String) := do
  let prior ← readWriteBack context.toolkit.entry contract
  let fetched ← fetchOrDeployThrough context contract validated
  let transactionHash ← settleImplementation context.toolkit contract prior fetched
  return (fetched.address, transactionHash)

def deployImplementationThroughQueue (context : OperationContext E S)
    (contract : ContractAbstraction E) (operation : String) : Task S ImplementationDeployment := do
  let { toolkit, resolved } := context
  let name ← .ofExcept (nameOf E contract operation)
  let validated ← toolkit.validateImplementation name resolved
  toolkit.requireDeployer
  let (address, transactionHash) ← toolkit.queue
    (deployImplementationStep context contract validated)
  let transaction ← .ofExcept (transactionIdentity transactionHash operation)
  return ⟨address, transaction⟩

def runDeployImplementation (context : OperationContext E S) (contract : ContractAbstraction E) :
    Task S ImplementationDeployment :=
  deployImplementationThroughQueue context contract "deployImplementation"

-- ---------------------------------------------------------------------------
-- prepareUpgrade
-- ---------------------------------------------------------------------------

/-- The kind is the record's; an option that contradicts it refuses. -/
def recordedKind (proxy : String) (record : Option ProxyKind) (option : Option ProxyKind) :
    Except Failure ProxyKind := do
  let some kind := record | throw (.error ("No recorded proxy at " ++ proxy ++
    ". Register the deployment first with forceImport."))
  refuseIf (kind = .beacon) (.error ("The recorded kind for " ++ proxy ++ " is beacon"))
  match option with
  | some requested =>
    refuseIf (requested ≠ kind) (.error ("Requested an upgrade of kind " ++
      ProxyKind.text requested ++ " but proxy is " ++ ProxyKind.text kind))
  | none => pure ()
  return kind

def narrowPrepareKind : Option ProxyKind → Except Failure Unit
  | some kind => requireProxyKind kind [.transparent, .uups] "prepareUpgrade"
  | none => .ok ()

def runPrepareUpgrade (context : OperationContext E S) (proxyAddress : String)
    (contract : ContractAbstraction E) : Task S ImplementationDeployment := do
  let { toolkit, resolved } := context
  let proxy ← .ofExcept (canonicalizeAddress toolkit.codec proxyAddress)
  .ofExcept (narrowPrepareKind resolved.kind)
  let slots ← toolkit.proxySlots proxy
  let (implementation, _) ← .ofExcept (upgradeableSlots proxy slots)
  let record ← toolkit.getProxyRecord proxy
  let kind ← .ofExcept (recordedKind proxy record resolved.kind)
  -- the second validation, inside the deployment, judges with the same kind
  let bound : OperationContext E S := { toolkit, resolved := { resolved with kind := some kind } }
  let name ← .ofExcept (nameOf E contract "prepareUpgrade")
  let validated ← toolkit.validateImplementation name bound.resolved
  toolkit.requireDeployer
  let currentLayout ← toolkit.storedLayoutFor implementation
  toolkit.assertStorageCompatible currentLayout validated bound.resolved
  deployImplementationThroughQueue bound contract "prepareUpgrade"

-- ---------------------------------------------------------------------------
-- transferProxyAdminOwnership
-- ---------------------------------------------------------------------------

structure AuthorityTransfer where
  proxy : String
  previousOwner : Option String
  newOwner : String
  transaction : Option String
  alreadyHeld : Bool

/-- What follows the transfer transaction. -/
def settleTransfer (toolkit : OperationToolkit E S) (proxyAddress adminAddress : String)
    (targetOwner : String) (writeBack : WriteBack) : Task S WriteBack := do
  confirmUpgrade toolkit writeBack.transactionHash
  let observed ← toolkit.ownerOf adminAddress
  .ofExcept (refuseIf (observed ≠ some targetOwner)
    (.authorityVerificationFailed proxyAddress targetOwner
      (observed.getD "nothing that answers owner()")))
  return writeBack

def transferStep (toolkit : OperationToolkit E S) (proxyAddress adminAddress targetOwner : String) :
    Task S WriteBack := do
  let writeBack ← toolkit.callThroughFacade
    ⟨"ProxyAdmin", adminAddress, "transferOwnership", [.str targetOwner]⟩
  settleTransfer toolkit proxyAddress adminAddress targetOwner writeBack

def adminOf (proxyAddress : String) : ProxySlotsRead → Except Failure String
  | .code _ (some admin) _ => .ok admin
  | _ => .error (.notTransparentProxy proxyAddress)

/-- Where the owner is known and is not the sender, the holder is named. -/
def assertHolds (codec : AddressCodec) (proxyAddress targetOwner : String)
    (currentOwner : Option String) (sender : EffectiveSender) : Except Failure Unit :=
  match currentOwner, sender with
  | some owner, .resolved address => do
    let address ← canonicalizeAddress codec address
    refuseIf (owner ≠ address) (.authorityAlreadyTransferred proxyAddress owner targetOwner)
  | _, _ => .ok ()

def sendTransfer (toolkit : OperationToolkit E S) (proxyAddress adminAddress targetOwner : String)
    (currentOwner : Option String) : Task S AuthorityTransfer := do
  let sender ← toolkit.resolveSender
  .ofExcept (assertHolds toolkit.codec proxyAddress targetOwner currentOwner sender)
  toolkit.requireDeployer
  let outcome ← toolkit.queue (transferStep toolkit proxyAddress adminAddress targetOwner)
  let transaction ← .ofExcept
    (transactionIdentity outcome.transactionHash "transferProxyAdminOwnership")
  return ⟨proxyAddress, currentOwner, targetOwner, transaction, false⟩

def runTransferProxyAdminOwnership (context : OperationContext E S) (proxy newOwner : String) :
    Task S AuthorityTransfer := do
  let { toolkit, .. } := context
  let proxyAddress ← .ofExcept (canonicalizeAddress toolkit.codec proxy)
  let targetOwner ← .ofExcept (canonicalizeAddress toolkit.codec newOwner)
  let slots ← toolkit.proxySlots proxyAddress
  let admin ← .ofExcept (adminOf proxyAddress slots)
  let adminAddress ← .ofExcept (canonicalizeAddress toolkit.codec admin)
  let currentOwner ← toolkit.ownerOf adminAddress
  if currentOwner = some targetOwner then
    return ⟨proxyAddress, currentOwner, targetOwner, none, true⟩
  else sendTransfer toolkit proxyAddress adminAddress targetOwner currentOwner

end

end TronUpgrades.Tronbox
