import TronUpgrades.Failure

/-!
# The engine and the values operations pass around

`Engine` is what is called of the upgrades engine and of the ABI coder: its
types, and its functions as they answer or throw. Everything the operations do
with them is the plugin's own code.
-/

namespace TronUpgrades.Tronbox

structure Engine where
  ValidationInput : Type
  Validations : Type
  Version : Type
  Layout : Type
  ValidationOptions : Type
  Abi : Type
  validate : ValidationInput → Except Thrown Validations
  getUnlinkedBytecode : Validations → String → Except Thrown String
  getVersion : String → String → String → Version
  /-- `version.linkedWithoutMetadata` -/
  linkedWithoutMetadata : Version → String
  inferProxyKind : Validations → Version → Except Thrown ProxyKind
  /-- The errors that no override of the options, under a kind, filters out. -/
  getErrors : Validations → Version → ValidationOptions → ProxyKind → Except Thrown (List String)
  getStorageLayout : Validations → Version → Except Thrown Layout
  /-- `getStorageUpgradeReport(…).ok` -/
  storageReportOk : Layout → Layout → ValidationOptions → Except Thrown Bool
  hashBytecodeWithoutMetadata : String → String
  -- the ABI coder's `Interface`
  encodeDeploy : Abi → List Json → Except Thrown String
  /-- `getFunction(name, args)` -/
  hasFunction : Abi → String → List Json → Except Thrown Bool
  /-- `getFunction(name)` -/
  hasFunctionNamed : Abi → String → Except Thrown Bool
  encodeFunctionData : Abi → String → List Json → Except Thrown String

inductive RedeployMode
  | always | never | onchange
  deriving DecidableEq, Repr

inductive InitializerOption
  | omitted | disabled | named (fn : String)
  deriving DecidableEq, Repr

inductive CallOption
  | omitted | text (call : String) | function (fn : String) (args : List Json)

/-- The caller's options as an operation reads them. -/
structure ResolvedForProxyOps (E : Engine) where
  kind : Option ProxyKind
  initializer : InitializerOption
  constructorArgs : List Json
  redeployImplementation : RedeployMode
  unsafeAllowLinkedLibraries : Bool
  unsafeSkipProxyAdminCheck : Bool
  initialOwner : Option String
  timeout : Nat
  pollingInterval : Nat
  call : CallOption
  engineOptions : E.ValidationOptions

structure ValidatedImplementation (E : Engine) where
  name : String
  input : E.ValidationInput
  validations : E.Validations
  version : E.Version
  layout : E.Layout
  encodedArgs : String

/-- A contract object as `artifacts.require` hands it out. Its per-network entry
is host state, reached through the object: `id` tells one from another. -/
structure ContractAbstraction (E : Engine) where
  id : Nat
  contractName : Option String
  abi : E.Abi
  unlinkedBinary : Option String
  bytecode : Option String
  /-- The linked form the host deploys. -/
  binary : Option String
  deployedBytecode : Option String
  hasNew : Bool
  hasAt : Bool
  hasIsDeployed : Bool

/-- `typeof name === 'string' && name !== ''` -/
def nameOf (E : Engine) (contract : ContractAbstraction E) (operation : String) :
    Except Failure String :=
  match contract.contractName with
  | some name =>
    if name = "" then
      .error (.error (operation ++ " needs the contract abstraction from artifacts.require(...)"))
    else .ok name
  | none =>
    .error (.error (operation ++ " needs the contract abstraction from artifacts.require(...)"))

structure WriteBack where
  address : String
  transactionHash : String
  deriving DecidableEq, Repr

/-- A deployment as a callback of the engine's reports it: adoption may know
no transaction. -/
structure EngineDeployment where
  address : String
  transactionHash : Option String
  deriving DecidableEq, Repr

def WriteBack.deployment (writeBack : WriteBack) : EngineDeployment :=
  ⟨writeBack.address, writeBack.transactionHash⟩

inductive ConfirmationVerdict
  | confirmedSuccessful (transactionHash : String)
  | reverted (verdict : ConfirmedReverted)
  | indeterminate (verdict : ConfirmationIndeterminate)
  deriving DecidableEq, Repr

inductive EffectiveSender
  | resolved (address : String)
  | unconfigured
  deriving DecidableEq, Repr

inductive ProxySlotsRead
  | noCode
  | code (implementation admin beacon : Option String)
  deriving DecidableEq, Repr

inductive BeaconRead
  | implementation (address : String)
  | noCodeAtBeacon
  | notABeacon
  deriving DecidableEq, Repr

structure ContractHandle where
  address : String
  /-- Whether the handle has the member `events`, which results seal off. -/
  hasEvents : Bool
  deriving DecidableEq, Repr

/-- `if (condition) throw error`, where nothing was done yet. -/
def refuseIf (condition : Prop) [Decidable condition] (error : Failure) : Except Failure Unit :=
  if condition then .error error else .ok ()

theorem refuseIf_ok {condition : Prop} [Decidable condition] {error : Failure}
    (h : refuseIf condition error = .ok ()) : ¬ condition := by
  intro hc
  simp [refuseIf, hc] at h

/-- `sealUnavailable`: the one sealed member must exist. -/
def sealUnavailable (handle : ContractHandle) : Except Failure ContractHandle :=
  if handle.hasEvents then .ok handle else .error (.unavailableMemberAbsent "events")

def transactionIdentity (hash : Option String) (operation : String) : Except Failure String :=
  match hash with
  | some hash => if hash = "" then .error (.transactionHashUnavailable operation) else .ok hash
  | none => .error (.transactionHashUnavailable operation)

-- ---------------------------------------------------------------------------
-- An engine to run things with
-- ---------------------------------------------------------------------------

/-- Candidates are known by whether they have the upgrade entry point, options
by whether they allow it to be missing. -/
def sampleEngine : Engine where
  ValidationInput := Bool
  Validations := Bool
  Version := String
  Layout := String
  ValidationOptions := Bool
  Abi := Unit
  validate input := .ok input
  getUnlinkedBytecode _ bytecode := .ok bytecode
  getVersion unlinked _ encodedArgs := unlinked ++ encodedArgs
  linkedWithoutMetadata version := version
  inferProxyKind hasEntry _ := .ok (if hasEntry then .uups else .transparent)
  getErrors hasEntry _ allowsMissing kind :=
    .ok (if kind = .uups ∧ !hasEntry ∧ !allowsMissing then ["missing-public-upgradeto"] else [])
  getStorageLayout _ version := .ok version
  storageReportOk _ _ _ := .ok true
  hashBytecodeWithoutMetadata bytecode := bytecode
  encodeDeploy _ _ := .ok ""
  hasFunction _ _ _ := .ok true
  hasFunctionNamed _ _ := .ok true
  encodeFunctionData _ fn _ := .ok ("0x" ++ fn)

def sampleOptions : ResolvedForProxyOps sampleEngine where
  kind := none
  initializer := .omitted
  constructorArgs := []
  redeployImplementation := .onchange
  unsafeAllowLinkedLibraries := false
  unsafeSkipProxyAdminCheck := false
  initialOwner := none
  timeout := 60000
  pollingInterval := 5000
  call := .omitted
  engineOptions := false

def sampleContract : ContractAbstraction sampleEngine where
  id := 0
  contractName := some "Box"
  abi := ()
  unlinkedBinary := none
  bytecode := some "0x6001"
  binary := none
  deployedBytecode := some "0x6002"
  hasNew := true
  hasAt := true
  hasIsDeployed := true

def sampleValidated : ValidatedImplementation sampleEngine where
  name := "Box"
  input := true
  validations := true
  version := "0x6001"
  layout := "0x6001"
  encodedArgs := ""

end TronUpgrades.Tronbox
