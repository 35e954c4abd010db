import TronUpgrades.Effects.History
import TronUpgrades.Tronbox.Deploy
import TronUpgrades.Tronbox.Toolkit

/-!
# The Hardhat plugin's upgrade operations

`upgradeProxy`, `prepareUpgrade` and the deployed-reference `validateUpgrade`,
and the implementation deployment they share, over what Hardhat, the node and
the same engine answer. The operations that deploy are in `Deployments`.
-/

namespace TronUpgrades.Hardhat

open Effects Tronbox

/-- The caller's options as these operations read them. -/
structure Options (E : Engine) where
  kind : Option ProxyKind
  unsafeSkipStorageCheck : Bool
  constructorArgs : List Json
  redeployImplementation : Option RedeployMode
  useDeployedImplementation : Bool
  /-- The keys of `txOverrides`. -/
  txOverrides : List String
  getTxResponse : Bool
  /-- The signer, by its name, where the deployer's key is not to sign. -/
  owner : Option String
  call : CallOption
  /-- `unsafeAllow` and `unsafeAllowRenames`, with the engine's defaults. -/
  engineOptions : E.ValidationOptions

structure Artifact (E : Engine) where
  sourceName : String
  contractName : String
  abi : E.Abi
  bytecode : String

structure Deployed where
  address : String
  txHash : Option String
  /-- Whether the transaction's response came with it, as from a fresh deployment. -/
  txResponse : Bool
  deriving DecidableEq, Repr

inductive Op (E : Engine)
  | resolveAddress (reference : String)
  -- artifacts
  | readArtifact (contractName : String)
  /-- The build-info and its namespaced recompile; a namespace collision rejects. -/
  | validationInput (fullyQualifiedName : String)
  | getAllFullyQualifiedNames
  | getContractAt (fullyQualifiedName address : String)
  /-- `contract.connect(signer)` of the contract attached at the address. -/
  | connect (address signer : String)
  | deployerAddress
  -- the record
  | getManifest
  | proxyRecordOf (address : String)
  | layoutForAddress (address : String)
  | addProxyToManifest (kind : ProxyKind) (address : String)
  /-- `recordImpl`: the manifest read, merged and written under its lock. -/
  | recordImpl (version : E.Version) (layout : E.Layout) (address : String)
  -- the node, through the engine's readers or directly
  | getSlot (address slot : String)
  | isTransparentOrUUPSProxy (address : String)
  | isBeaconProxy (address : String)
  | isBeacon (address : String)
  | getBeaconAddress (address : String)
  | getImplementationAddress (address : String)
  | getImplementationAddressFromBeacon (address : String)
  | getUpgradeInterfaceVersion (address : String)
  | getTransactionByHash (hash : String)
  | hasCode (address : String)
  | getImplementationAddressFromProxy (address : String)
  | inferProxyAdmin (address : String)
  /-- The beacon contract's own `implementation()`. -/
  | implementation (beacon : String)
  -- the engine
  | processProxyKind (address : String) (kind : Option ProxyKind) (validations : E.Validations)
      (version : E.Version)
  | engineStart (version : E.Version) (redeploy : Bool)
  | engineSettle (version : E.Version) (layout : E.Layout) (callback : Except Failure Deployed)
  -- what is sent
  | deployContract (contractName : String) (args : List Json)
  | transact (address method : String) (args : List Json)

@[reducible] def Op.Reply {E : Engine} : Op E → Type
  | .resolveAddress _ | .getSlot _ _ | .getBeaconAddress _ | .getImplementationAddress _
  | .getImplementationAddressFromBeacon _ | .deployerAddress | .implementation _ => String
  | .readArtifact _ => Artifact E
  | .validationInput _ => Option E.ValidationInput
  | .getAllFullyQualifiedNames => List String
  | .proxyRecordOf _ => Option ProxyKind
  | .layoutForAddress _ => E.Layout
  | .isTransparentOrUUPSProxy _ | .isBeaconProxy _ | .isBeacon _ | .getTransactionByHash _
  | .hasCode _ | .inferProxyAdmin _ => Bool
  | .getUpgradeInterfaceVersion _ | .getImplementationAddressFromProxy _ => Option String
  | .processProxyKind _ _ _ _ => ProxyKind
  | .engineStart _ _ => Option Deployed
  | .engineSettle _ _ _ | .deployContract _ _ => Deployed
  | .getManifest | .getContractAt _ _ | .connect _ _ | .addProxyToManifest _ _
  | .recordImpl _ _ _ | .transact _ _ _ => Unit

@[reducible] def effects (E : Engine) : Signature := ⟨Op E, Op.Reply⟩

abbrev HardhatTask (E : Engine) := Script (effects E) Failure

section
variable {E : Engine}

def ask (op : Op E) : HardhatTask E op.Reply := Script.perform (S := effects E) op

-- ---------------------------------------------------------------------------
-- Options and slots
-- ---------------------------------------------------------------------------

def checkKind (kind : ProxyKind) : Except Failure Unit :=
  refuseIf (kind = .beacon) (.error "kind \"beacon\" not supported")

def checkTxOverrides (opts : Options E) : Except Failure Unit :=
  refuseIf (opts.txOverrides.filter (fun key => !(["value", "gasLimit"].contains key)) ≠ [])
    (.error "Unsupported transaction overrides for TRON")

def implSlot := "0x360894a13ba1a3210667c828492db98dca3e2076cc3735a920a3ca505d382bbc"
def adminSlot := "0xb53127684a568b3173ae13b9f8a6016e243e63b6e8ee1178d6a717850b5d6103"
def beaconSlot := "0xa3f0ad74e5423aebfd80d3ef4346578335a9a72aeaee59ff6cb3582b35133d50"

def zeroAddress : String := "0x0000000000000000000000000000000000000000"

/-- `'0x' + slotValue.slice(-40)` -/
def slotToAddress (slotValue : String) : String :=
  .ofList ('0' :: 'x' :: slotValue.toList.drop (slotValue.toList.length - 40))

/-- The messages by which a node says that an optional call is not answered. -/
def isOptionalCallRevert : Failure → Bool
  | .foreign thrown =>
    let message := Text.toLowerCase thrown.message.toList
    ["revert", "invalid opcode", "execution error", "function selector was not recognized",
      "smart contract is not exist"].any fun text => Text.occursIn text.toList message
  | _ => false

-- ---------------------------------------------------------------------------
-- Validation
-- ---------------------------------------------------------------------------

structure UpgradeableContract (E : Engine) where
  artifact : Artifact E
  validations : E.Validations
  version : E.Version
  layout : E.Layout
  errors : List String

/-- What the build-info says of an artifact. An omitted kind is judged as
transparent. -/
def upgradeableContract (artifact : Artifact E) (input : E.ValidationInput) (opts : Options E) :
    Except Failure (UpgradeableContract E) := do
  let validations ← foreignError (E.validate input)
  let unlinked ← foreignError (E.getUnlinkedBytecode validations artifact.bytecode)
  let encodedArgs ← foreignError (E.encodeDeploy artifact.abi opts.constructorArgs)
  let version := E.getVersion unlinked artifact.bytecode encodedArgs
  let errors ← foreignError
    (E.getErrors validations version opts.engineOptions (opts.kind.getD .transparent))
  let layout ← foreignError (E.getStorageLayout validations version)
  return { artifact, validations, version, layout, errors }

def upgradeableContractFor (contractName : String) (opts : Options E) :
    HardhatTask E (UpgradeableContract E) := do
  let artifact ← ask (.readArtifact contractName)
  let input ← ask (.validationInput (artifact.sourceName ++ ":" ++ artifact.contractName))
  let input ← .ofExcept (match input with
    | some input => .ok input
    | none => .error (.error "No build-info. Run `hardhat compile` first."))
  .ofExcept (upgradeableContract artifact input opts)

def validateImplementation (contractName : String) (opts : Options E) :
    HardhatTask E (UpgradeableContract E) := do
  let data ← upgradeableContractFor contractName opts
  .ofExcept (refuseIf (data.errors ≠ []) (.error (contractName ++ " is not upgrade-safe")))
  return data

def assertStorageCompatible (current new : E.Layout) (opts : Options E) : Except Failure Unit :=
  if opts.unsafeSkipStorageCheck then .ok ()
  else do
    let ok ← foreignError (E.storageReportOk current new opts.engineOptions)
    refuseIf (!ok) (.error "the new storage layout is incompatible")

def isBeaconContract (address : String) : HardhatTask E Bool :=
  tryCatch (ask (.isBeacon address)) fun error =>
    if isOptionalCallRevert error then return false else throw error

structure ReferenceImpl where
  kind : ProxyKind
  currentImplAddress : String

/-- A 1967 proxy first, then a beacon proxy, then a beacon, then what the
option says. -/
def resolveReferenceImpl (referenceAddress contractName : String) (opts : Options E) :
    HardhatTask E ReferenceImpl := do
  let isProxy ← ask (.isTransparentOrUUPSProxy referenceAddress)
  if isProxy then do
    let draft ← upgradeableContractFor contractName opts
    let kind ← ask (.processProxyKind referenceAddress opts.kind draft.validations draft.version)
    let currentImplAddress ← ask (.getImplementationAddress referenceAddress)
    return ⟨kind, currentImplAddress⟩
  else do
    let isBeaconProxy ← ask (.isBeaconProxy referenceAddress)
    if isBeaconProxy then do
      let beacon ← ask (.getBeaconAddress referenceAddress)
      let currentImplAddress ← ask (.getImplementationAddressFromBeacon beacon)
      return ⟨.beacon, currentImplAddress⟩
    else do
      let isBeacon ← isBeaconContract referenceAddress
      if isBeacon then do
        let currentImplAddress ← ask (.getImplementationAddressFromBeacon referenceAddress)
        return ⟨.beacon, currentImplAddress⟩
      else
        match opts.kind with
        | some kind => return ⟨kind, referenceAddress⟩
        | none => throw (.error "Cannot determine the proxy kind")

/-- The layout of what is installed, the candidate under the resolved kind, the
two held against each other. -/
def judgeAgainst (contractName : String) (opts : Options E) (reference : ReferenceImpl) :
    HardhatTask E (UpgradeableContract E) := do
  let currentLayout ← ask (.layoutForAddress reference.currentImplAddress)
  let contract ← validateImplementation contractName { opts with kind := some reference.kind }
  .ofExcept (assertStorageCompatible currentLayout contract.layout opts)
  return contract

def validateUpgradeReference (reference contractName : String) (opts : Options E) :
    HardhatTask E Unit := do
  ask .getManifest
  let referenceAddress ← ask (.resolveAddress reference)
  let resolved ← resolveReferenceImpl referenceAddress contractName opts
  let _ ← judgeAgainst contractName opts resolved

-- ---------------------------------------------------------------------------
-- The implementation deployment
-- ---------------------------------------------------------------------------

def redeployMode (opts : Options E) : RedeployMode :=
  opts.redeployImplementation.getD (if opts.useDeployedImplementation then .never else .onchange)

def deployUnlessNever (contractName : String) (opts : Options E) : HardhatTask E Deployed :=
  if redeployMode opts = .never then
    .throw (.error ("The implementation contract " ++ contractName ++
      " was not previously deployed on this network"))
  else ask (.deployContract contractName opts.constructorArgs)

/-- One call of the engine's, with its deploy callback. -/
def engineCall (contractName : String) (opts : Options E) (contract : UpgradeableContract E) :
    HardhatTask E Deployed := do
  let started ← ask (.engineStart contract.version (redeployMode opts = .always))
  match started with
  | some deployment => return deployment
  | none => do
    let callback ← (deployUnlessNever contractName opts).attempt
    ask (.engineSettle contract.version contract.layout callback)

/-- One retry, where the engine has removed an entry it could not use. -/
def fetchOrDeploy (contractName : String) (opts : Options E) (contract : UpgradeableContract E) :
    HardhatTask E Deployed :=
  tryCatch (engineCall contractName opts contract) fun error =>
    if !error.isRemoved || redeployMode opts = .never then throw error
    else engineCall contractName opts contract

def resolveImplementation (contractName : String) (opts : Options E)
    (validated : Option (UpgradeableContract E)) : HardhatTask E Deployed := do
  .ofExcept (checkTxOverrides opts)
  .ofExcept (refuseIf (opts.useDeployedImplementation && opts.redeployImplementation.isSome)
    (.error "useDeployedImplementation and redeployImplementation cannot both be set"))
  ask .getManifest
  let contract ← (match validated with
    | some contract => pure contract
    | none => validateImplementation contractName opts)
  let deployment ← fetchOrDeploy contractName opts contract
  match deployment.txHash with
  | some hash =>
    if !deployment.txResponse && opts.getTxResponse && hash ≠ "" then do
      let txResponse ← ask (.getTransactionByHash hash)
      return { deployment with txResponse }
    else return deployment
  | none => return deployment

def prepareUpgrade (reference contractName : String) (opts : Options E) :
    HardhatTask E Deployed := do
  ask .getManifest
  let referenceAddress ← ask (.resolveAddress reference)
  let resolved ← resolveReferenceImpl referenceAddress contractName opts
  let contract ← judgeAgainst contractName opts resolved
  resolveImplementation contractName opts (some contract)

-- ---------------------------------------------------------------------------
-- upgradeProxy
-- ---------------------------------------------------------------------------

def encodeUpgradeCall (abi : E.Abi) : CallOption → Except Failure String
  | .omitted | .text "" => .ok "0x"
  | .text call =>
    match call.toList with
    | '0' :: 'x' :: _ => .ok call
    | _ => foreignError (E.encodeFunctionData abi call [])
  | .function fn args => foreignError (E.encodeFunctionData abi fn args)

/-- The plugin's interface, from whichever of the two sources was compiled. -/
def pluginInterfaceAt (interfaceName address : String) : HardhatTask E Unit := do
  let names ← ask .getAllFullyQualifiedNames
  let expected := ["contracts/Proxies.sol:" ++ interfaceName,
    "@openzeppelin/hardhat-tron-upgrades/contracts/Proxies.sol:" ++ interfaceName]
  match names.filter (expected.contains ·) with
  | [name] => ask (.getContractAt name address)
  | [] => throw (.error (interfaceName ++ " artifact not found"))
  | _ => throw (.error ("Multiple plugin " ++ interfaceName ++ " artifacts found"))

def upgradeInterfaceVersionOf (address : String) : HardhatTask E (Option String) :=
  tryCatch (ask (.getUpgradeInterfaceVersion address)) fun error =>
    if isOptionalCallRevert error then return none else throw error

/-- The entry point, and what it is called with for a new implementation. -/
structure UpgradeEntry where
  address : String
  method : String
  args : String → List Json

/-- Without an owner, calls are signed by the deployer's key. -/
def withOwner (opts : Options E) (address : String) : HardhatTask E Unit :=
  match opts.owner with
  | some signer => ask (.connect address signer)
  | none => return ()

def adminEntry (opts : Options E) (proxyAddress callData : String) :
    HardhatTask E UpgradeEntry := do
  let word ← ask (.getSlot proxyAddress adminSlot)
  let admin := slotToAddress word
  .ofExcept (refuseIf (admin = zeroAddress)
    (.error ("Proxy " ++ proxyAddress ++ " has no admin in the 1967 admin slot")))
  let version ← upgradeInterfaceVersionOf admin
  if version = some "5.0.0" then do
    ask (.getContractAt "@openzeppelin/tron-contracts/proxy/transparent/ProxyAdmin.sol:ProxyAdmin"
      admin)
    withOwner opts admin
    return ⟨admin, "upgradeAndCall", fun new => [.str proxyAddress, .str new, .str callData]⟩
  else do
    pluginInterfaceAt "ITronUpgradesProxyAdminV4" admin
    withOwner opts admin
    return if callData = "0x" then ⟨admin, "upgrade", fun new => [.str proxyAddress, .str new]⟩
      else ⟨admin, "upgradeAndCall", fun new => [.str proxyAddress, .str new, .str callData]⟩

def uupsEntry (opts : Options E) (proxyAddress callData : String) :
    HardhatTask E UpgradeEntry := do
  let version ← upgradeInterfaceVersionOf proxyAddress
  pluginInterfaceAt "ITronUpgradesUUPS" proxyAddress
  withOwner opts proxyAddress
  return if version = some "5.0.0" ∨ callData ≠ "0x" then
      ⟨proxyAddress, "upgradeToAndCall", fun new => [.str new, .str callData]⟩
    else ⟨proxyAddress, "upgradeTo", fun new => [.str new]⟩

/-- Everything before the new implementation is deployed. -/
structure UpgradePlan (E : Engine) where
  proxyAddress : String
  recorded : Bool
  kind : ProxyKind
  contract : UpgradeableContract E
  entry : UpgradeEntry

def planUpgrade (proxy contractName : String) (opts : Options E) :
    HardhatTask E (UpgradePlan E) := do
  let proxyAddress ← ask (.resolveAddress proxy)
  ask .getManifest
  let record ← ask (.proxyRecordOf proxyAddress)
  let beaconWord ← ask (.getSlot proxyAddress beaconSlot)
  .ofExcept (refuseIf (slotToAddress beaconWord ≠ zeroAddress)
    (.error ("Proxy " ++ proxyAddress ++ " is a beacon proxy")))
  let draft ← upgradeableContractFor contractName opts
  let kind ← ask (.processProxyKind proxyAddress opts.kind draft.validations draft.version)
  .ofExcept (checkKind kind)
  let currentImplAddress ← ask (.getImplementationAddress proxyAddress)
  let contract ← judgeAgainst contractName opts ⟨kind, currentImplAddress⟩
  let callData ← .ofExcept (encodeUpgradeCall contract.artifact.abi opts.call)
  .ofExcept (checkTxOverrides opts)
  let entry ← (if kind = .transparent then adminEntry opts proxyAddress callData
    else uupsEntry opts proxyAddress callData)
  return { proxyAddress, recorded := record.isSome, kind, contract, entry }

def upgradeProxy (proxy contractName : String) (opts : Options E) : HardhatTask E String := do
  let plan ← planUpgrade proxy contractName opts
  let deployment ← resolveImplementation contractName opts (some plan.contract)
  ask (.transact plan.entry.address plan.entry.method (plan.entry.args deployment.address))
  let word ← ask (.getSlot plan.proxyAddress implSlot)
  .ofExcept (refuseIf (Text.toLowerCase (slotToAddress word).toList ≠
      Text.toLowerCase deployment.address.toList)
    (.error "Upgrade transaction succeeded but the implementation slot holds another address"))
  .when (!plan.recorded) (ask (.addProxyToManifest plan.kind plan.proxyAddress))
  ask (.getContractAt contractName plan.proxyAddress)
  return plan.proxyAddress

end

end TronUpgrades.Hardhat
