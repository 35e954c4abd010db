import TronUpgrades.Tronbox.Standalone

/-!
# Adopting what is on chain

`runForceImport`: what an address is by its slots, whether its code is the
artifact's, and what of it goes into the record.
-/

namespace TronUpgrades.Tronbox

open Effects Address

inductive AdoptedKind
  | proxy (kind : ProxyKind)
  | implementation
  deriving DecidableEq, Repr

def AdoptedKind.text : AdoptedKind → String
  | .proxy kind => ProxyKind.text kind
  | .implementation => "implementation"

structure AdoptionOutcome where
  kind : AdoptedKind
  address : String
  implementation : String
  contract : ContractHandle

section
variable {E : Engine} {S : Signature}

/-- By the slots, then by whether the address itself answers as a beacon. -/
def classify (toolkit : OperationToolkit E S) (address : String) :
    ProxySlotsRead → Task S (AdoptedKind × String)
  | .noCode => throw (.nothingToAdopt address "no code at all")
  | .code _ _ (some beacon) => do
    let viaBeacon ← toolkit.readBeaconImplementation beacon
    match viaBeacon with
    | .implementation implementation => return (.proxy .beacon, implementation)
    | _ => throw (.nothingToAdopt address
        "a beacon proxy whose beacon does not answer implementation()")
  | .code (some implementation) admin none =>
    return (.proxy (if admin.isNone then .uups else .transparent), implementation)
  | .code none _ none => do
    let beaconRead ← toolkit.readBeaconImplementation address
    match beaconRead with
    | .implementation implementation => return (.proxy .beacon, implementation)
    | _ => return (.implementation, address)

def assertExpectedKind (address : String) (found : AdoptedKind) : Option ProxyKind →
    Except Failure Unit
  | some kind =>
    refuseIf (found ≠ .proxy kind) (.adoptionKindMismatch address found.text (ProxyKind.text kind))
  | none => .ok ()

/-- The kind the candidate is judged under. -/
def judgedKind (found : AdoptedKind) (option : Option ProxyKind) : Option ProxyKind :=
  match found with
  | .implementation => option
  | .proxy kind => some kind

/-- `typeof expected === 'string'` with more than an empty `0x`. -/
def expectedBytecode (address : String) (contract : ContractAbstraction E) :
    Except Failure String :=
  match contract.deployedBytecode with
  | some expected =>
    if stripLowerHexPrefix expected.toList = [] then .error (.adoptionVerificationFailed address
      "the compiled artifact carries no deployedBytecode to verify against")
    else .ok expected
  | none => .error (.adoptionVerificationFailed address
      "the compiled artifact carries no deployedBytecode to verify against")

/-- Only a transparent or UUPS proxy has a record of its own. -/
def AdoptedKind.recordedAs : AdoptedKind → Option ProxyKind
  | .proxy .transparent => some .transparent
  | .proxy .uups => some .uups
  | _ => none

/-- Whether the proxy has no record yet; one of another kind refuses. -/
def proxyRecordAbsent (toolkit : OperationToolkit E S) (address : String) (found : AdoptedKind) :
    Option ProxyKind → Task S Bool
  | none => return false
  | some kind => do
    let existing ← toolkit.getProxyRecord address
    match existing with
    | some recorded => do
      .ofExcept (refuseIf (recorded ≠ kind)
        (.adoptionKindMismatch address found.text (ProxyKind.text recorded)))
      return false
    | none => return true

def assertVersionKey (key : String) : Except Failure Unit :=
  refuseIf (key = "") (.error "internal error: the validated contract carries no version key")

/-- The deploy callback of an adoption: the address that is already on chain. -/
def simulatedDeploy (toolkit : OperationToolkit E S) (contract : ContractAbstraction E)
    (implementation : String) : Task S EngineDeployment := do
  let transactionHash ← readWriteBackHash toolkit.entry contract
  return ⟨implementation, transactionHash⟩

def recordAdopted (toolkit : OperationToolkit E S) (address : String) (absent : Bool) :
    Option ProxyKind → Task S Unit
  | some kind => .when absent (toolkit.recordProxy address kind)
  | none => return ()

def runForceImport (context : OperationContext E S) (addressInput : String)
    (contract : ContractAbstraction E) : Task S AdoptionOutcome := do
  let { toolkit, resolved } := context
  let address ← .ofExcept (canonicalizeAddress toolkit.codec addressInput)
  let slots ← toolkit.proxySlots address
  let (found, implementationAddress) ← classify toolkit address slots
  .ofExcept (assertExpectedKind address found resolved.kind)
  let name ← .ofExcept (nameOf E contract "forceImport")
  let validated ← toolkit.validateImplementation name
    { resolved with kind := judgedKind found resolved.kind }
  let expected ← .ofExcept (expectedBytecode address contract)
  let onChain ← toolkit.getCode implementationAddress
  .ofExcept (refuseIf
    (E.hashBytecodeWithoutMetadata expected ≠ E.hashBytecodeWithoutMetadata onChain)
    (.adoptionVerificationFailed address ("the code at " ++ implementationAddress ++ " is not " ++
      name ++ " — recording it would make every later upgrade validate against the wrong baseline")))
  let absent ← proxyRecordAbsent toolkit address found found.recordedAs
  .ofExcept (assertVersionKey (E.linkedWithoutMetadata validated.version))
  let implementation ← .ofExcept (canonicalizeAddress toolkit.codec implementationAddress)
  let _ ← toolkit.fetchOrDeployImplementation validated
    { resolved with redeployImplementation := .always } id
    (simulatedDeploy toolkit contract implementation)
  recordAdopted toolkit address absent found.recordedAs
  let handle ← toolkit.contractAt contract address
  let handle ← .ofExcept (sealUnavailable handle)
  return ⟨found, address, implementationAddress, handle⟩

end

end TronUpgrades.Tronbox
