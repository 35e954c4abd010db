import TronUpgrades.Tronbox.Adopt

/-!
# The operations of the package

As one type, each with what it returns, and carried out on any toolkit.
-/

namespace TronUpgrades.Tronbox

open Effects

section
variable {E : Engine} {S : Signature}

inductive Operation (E : Engine)
  | deployProxy (resolved : ResolvedForProxyOps E) (contract : ContractAbstraction E)
      (args : List Json)
  | upgradeProxy (resolved : ResolvedForProxyOps E) (proxy : String)
      (contract : ContractAbstraction E)
  | deployBeacon (resolved : ResolvedForProxyOps E) (contract : ContractAbstraction E)
  | deployBeaconProxy (resolved : ResolvedForProxyOps E) (beacon : String)
      (contract : ContractAbstraction E) (args : List Json)
  | upgradeBeacon (resolved : ResolvedForProxyOps E) (beacon : String)
      (contract : ContractAbstraction E)
  | deployImplementation (resolved : ResolvedForProxyOps E) (contract : ContractAbstraction E)
  | prepareUpgrade (resolved : ResolvedForProxyOps E) (proxy : String)
      (contract : ContractAbstraction E)
  | forceImport (resolved : ResolvedForProxyOps E) (address : String)
      (contract : ContractAbstraction E)
  | transferProxyAdminOwnership (resolved : ResolvedForProxyOps E) (proxy newOwner : String)

@[reducible] def Operation.Reply : Operation E → Type
  | .deployProxy _ _ _ | .deployBeaconProxy _ _ _ _ => DeployedProxy
  | .upgradeProxy _ _ _ | .upgradeBeacon _ _ _ => UpgradedProxy
  | .deployBeacon _ _ => DeployedBeacon
  | .deployImplementation _ _ | .prepareUpgrade _ _ _ => ImplementationDeployment
  | .forceImport _ _ _ => AdoptionOutcome
  | .transferProxyAdminOwnership _ _ _ => AuthorityTransfer

@[reducible] def operationEffects (E : Engine) : Signature := ⟨Operation E, Operation.Reply⟩

def Operation.on (toolkit : OperationToolkit E S) : (op : Operation E) → Task S op.Reply
  | .deployProxy resolved contract args =>
    runDeployProxy ⟨toolkit, resolved⟩ contract args
  | .upgradeProxy resolved proxy contract =>
    runUpgradeProxy ⟨toolkit, resolved⟩ proxy contract
  | .deployBeacon resolved contract =>
    runDeployBeacon ⟨toolkit, resolved⟩ contract
  | .deployBeaconProxy resolved beacon contract args =>
    runDeployBeaconProxy ⟨toolkit, resolved⟩ beacon contract args
  | .upgradeBeacon resolved beacon contract =>
    runUpgradeBeacon ⟨toolkit, resolved⟩ beacon contract
  | .deployImplementation resolved contract =>
    runDeployImplementation ⟨toolkit, resolved⟩ contract
  | .prepareUpgrade resolved proxy contract =>
    runPrepareUpgrade ⟨toolkit, resolved⟩ proxy contract
  | .forceImport resolved address contract =>
    runForceImport ⟨toolkit, resolved⟩ address contract
  | .transferProxyAdminOwnership resolved proxy newOwner =>
    runTransferProxyAdminOwnership ⟨toolkit, resolved⟩ proxy newOwner

end

end TronUpgrades.Tronbox
