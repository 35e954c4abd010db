import TronUpgrades.Hardhat.Operations

/-!
# The Hardhat plugin's deployments and imports

`deployProxy`, `deployBeacon`, `deployBeaconProxy`, `upgradeBeacon`,
`deployImplementation` and `forceImport`, over the same effects as the upgrade
operations.
-/

namespace TronUpgrades.Hardhat

open Effects Tronbox

/-- The further options of the deploying operations. -/
structure DeployOptions (E : Engine) extends Options E where
  initializer : InitializerOption
  initialOwner : Option String
  unsafeSkipProxyAdminCheck : Bool

namespace FQN

def transparent : String :=
  "@openzeppelin/tron-contracts/proxy/transparent/TransparentUpgradeableProxy.sol:" ++
    "TransparentUpgradeableProxy"
def trc1967 : String := "@openzeppelin/tron-contracts/proxy/TRC1967/TRC1967Proxy.sol:TRC1967Proxy"
def beacon : String :=
  "@openzeppelin/tron-contracts/proxy/beacon/UpgradeableBeacon.sol:UpgradeableBeacon"
def beaconProxy : String := "@openzeppelin/tron-contracts/proxy/beacon/BeaconProxy.sol:BeaconProxy"

end FQN

section
variable {E : Engine}

-- ---------------------------------------------------------------------------
-- Shared parts
-- ---------------------------------------------------------------------------

def deployContractWithOptions (contractName : String) (args : List Json) (opts : Options E) :
    HardhatTask E Deployed := do
  .ofExcept (checkTxOverrides opts)
  ask (.deployContract contractName args)

/-- The initializer call, or `0x` where it is skipped. A lookup that throws
finds no function. -/
def getInitializerData (abi : E.Abi) (args : List Json) (initializer : InitializerOption) :
    Except Failure String :=
  match initializer with
  | .disabled => .ok "0x"
  | .omitted =>
    if E.hasFunctionNamed abi "initialize" matches .ok true then
      foreignError (E.encodeFunctionData abi "initialize" args)
    else if args.isEmpty then .ok "0x"
    else .error (.error "The contract has no initializer function matching: initialize")
  | .named fn =>
    if E.hasFunctionNamed abi fn matches .ok true then
      foreignError (E.encodeFunctionData abi fn args)
    else .error (.error ("The contract has no initializer function matching: " ++ fn))

/-- The caller's owner, else the deployer. -/
def ownerOf (opts : DeployOptions E) : HardhatTask E String :=
  match opts.initialOwner with
  | some owner => ask (.resolveAddress owner)
  | none => ask .deployerAddress

/-- The `owner()` probe. An account without code answers with a revert, which
is no `ProxyAdmin`. -/
def ownerIsProxyAdmin (owner : String) : HardhatTask E Bool :=
  tryCatch (ask (.inferProxyAdmin owner)) fun error =>
    if isOptionalCallRevert error then return false else throw error

def assertIsBeacon (address : String) : HardhatTask E Unit := do
  let isBeacon ← isBeaconContract address
  .ofExcept (refuseIf (!isBeacon)
    (.error ("Contract at " ++ address ++ " is not an upgradeable beacon")))

-- ---------------------------------------------------------------------------
-- deployProxy
-- ---------------------------------------------------------------------------

/-- The kind of the caller's, else the one inferred from the contract. -/
def proxyKindOf (draft : UpgradeableContract E) (opts : Options E) : Except Failure ProxyKind :=
  match opts.kind with
  | some kind => .ok kind
  | none => foreignError (E.inferProxyKind draft.validations draft.version)

structure ProxyDraft (E : Engine) where
  kind : ProxyKind
  contract : UpgradeableContract E
  initData : String

/-- Everything before the implementation is deployed. -/
def planProxy (contractName : String) (args : List Json) (opts : DeployOptions E) :
    HardhatTask E (ProxyDraft E) := do
  let draft ← upgradeableContractFor contractName opts.toOptions
  let kind ← .ofExcept (proxyKindOf draft opts.toOptions)
  .ofExcept (checkKind kind)
  .ofExcept (checkTxOverrides opts.toOptions)
  .ofExcept (refuseIf (kind = .uups ∧ opts.initialOwner.isSome)
    (.error "initialOwner is not supported for kind \"uups\""))
  ask .getManifest
  let contract ← validateImplementation contractName { opts.toOptions with kind := some kind }
  let initData ← .ofExcept (getInitializerData contract.artifact.abi args opts.initializer)
  .ofExcept (refuseIf (initData = "0x")
    (.error "the ported TRC1967Proxy rejects empty initialization data"))
  return { kind, contract, initData }

def deployTransparent (implAddress initData : String) (opts : DeployOptions E) :
    HardhatTask E Deployed := do
  let owner ← ownerOf opts
  let isProxyAdmin ← (if opts.unsafeSkipProxyAdminCheck then pure false
    else ownerIsProxyAdmin owner)
  .ofExcept (refuseIf isProxyAdmin
    (.error "`initialOwner` must not be a ProxyAdmin contract"))
  deployContractWithOptions FQN.transparent [.str implAddress, .str owner, .str initData]
    opts.toOptions

def deployProxyOf (implAddress : String) (draft : ProxyDraft E) (opts : DeployOptions E) :
    HardhatTask E Deployed :=
  if draft.kind = .transparent then deployTransparent implAddress draft.initData opts
  else deployContractWithOptions FQN.trc1967 [.str implAddress, .str draft.initData] opts.toOptions

def deployProxy (contractName : String) (args : List Json) (opts : DeployOptions E) :
    HardhatTask E String := do
  let draft ← planProxy contractName args opts
  let implementation ← resolveImplementation contractName opts.toOptions (some draft.contract)
  let proxy ← deployProxyOf implementation.address draft opts
  ask (.addProxyToManifest draft.kind proxy.address)
  ask (.getContractAt contractName proxy.address)
  return proxy.address

-- ---------------------------------------------------------------------------
-- Beacons
-- ---------------------------------------------------------------------------

def deployBeacon (contractName : String) (opts : DeployOptions E) : HardhatTask E String := do
  .ofExcept (checkTxOverrides opts.toOptions)
  ask .getManifest
  let contract ← validateImplementation contractName { opts.toOptions with kind := some .beacon }
  let implementation ← resolveImplementation contractName opts.toOptions (some contract)
  let owner ← ownerOf opts
  let beacon ← deployContractWithOptions FQN.beacon [.str implementation.address, .str owner]
    opts.toOptions
  return beacon.address

def deployBeaconProxy (beacon contractName : String) (args : List Json) (opts : DeployOptions E) :
    HardhatTask E String := do
  .ofExcept (checkTxOverrides opts.toOptions)
  .ofExcept (refuseIf (opts.kind ≠ none ∧ opts.kind ≠ some .beacon)
    (.error "deployBeaconProxy deploys beacon proxies only"))
  let beaconAddress ← ask (.resolveAddress beacon)
  assertIsBeacon beaconAddress
  ask .getManifest
  let artifact ← ask (.readArtifact contractName)
  let initData ← .ofExcept (getInitializerData artifact.abi args opts.initializer)
  let proxy ← deployContractWithOptions FQN.beaconProxy [.str beaconAddress, .str initData]
    opts.toOptions
  ask (.addProxyToManifest .beacon proxy.address)
  ask (.getContractAt contractName proxy.address)
  return proxy.address

/-- Everything before the new implementation is deployed. -/
def planBeaconUpgrade (beacon contractName : String) (opts : Options E) :
    HardhatTask E (String × UpgradeableContract E) := do
  let beaconAddress ← ask (.resolveAddress beacon)
  assertIsBeacon beaconAddress
  ask .getManifest
  let currentImplAddress ← ask (.getImplementationAddressFromBeacon beaconAddress)
  let contract ← judgeAgainst contractName opts ⟨.beacon, currentImplAddress⟩
  ask (.getContractAt FQN.beacon beaconAddress)
  return (beaconAddress, contract)

def upgradeBeacon (beacon contractName : String) (opts : Options E) : HardhatTask E String := do
  let (beaconAddress, contract) ← planBeaconUpgrade beacon contractName opts
  let deployment ← resolveImplementation contractName opts (some contract)
  .ofExcept (checkTxOverrides opts)
  withOwner opts beaconAddress
  ask (.transact beaconAddress "upgradeTo" [.str deployment.address])
  let current ← ask (.implementation beaconAddress)
  .ofExcept (refuseIf (Text.toLowerCase current.toList ≠
      Text.toLowerCase deployment.address.toList)
    (.error "Beacon upgrade transaction succeeded but the beacon points at another address"))
  return beaconAddress

-- ---------------------------------------------------------------------------
-- Implementations on their own
-- ---------------------------------------------------------------------------

def deployImplementation (contractName : String) (opts : Options E) : HardhatTask E Deployed :=
  resolveImplementation contractName opts none

/-- The implementation of a proxy under the contract that the caller names. -/
def importProxy (address implAddress contractName : String) (opts : Options E) :
    HardhatTask E Unit := do
  let draft ← upgradeableContractFor contractName opts
  let kind ← (match opts.kind with
    | some kind => pure kind
    | none => do
      let isBeaconProxy ← ask (.isBeaconProxy address)
      if isBeaconProxy then return .beacon
      else .ofExcept (foreignError (E.inferProxyKind draft.validations draft.version)))
  if kind = .transparent then do
    let word ← ask (.getSlot address adminSlot)
    .ofExcept (refuseIf (slotToAddress word = zeroAddress)
      (.error ("Proxy at " ++ address ++ " doesn't look like a transparent proxy")))
  let contract ← validateImplementation contractName { opts with kind := some kind }
  ask (.recordImpl contract.version contract.layout implAddress)
  ask (.addProxyToManifest kind address)
  ask (.getContractAt contractName address)

/-- A proxy by what it points at, a beacon likewise, else the address itself. -/
def forceImport (addressOrInstance contractName : String) (opts : Options E) :
    HardhatTask E Unit := do
  ask .getManifest
  let address ← ask (.resolveAddress addressOrInstance)
  let hasCode ← ask (.hasCode address)
  .ofExcept (refuseIf (!hasCode) (.foreign { message := "Address has no contract: " ++ address }))
  let implAddress ← ask (.getImplementationAddressFromProxy address)
  match implAddress with
  | some implAddress => importProxy address implAddress contractName opts
  | none => do
    let isBeacon ← isBeaconContract address
    if isBeacon then do
      let implAddress ← ask (.getImplementationAddressFromBeacon address)
      let contract ← validateImplementation contractName { opts with kind := some .beacon }
      ask (.recordImpl contract.version contract.layout implAddress)
      ask (.getContractAt FQN.beacon address)
    else do
      let contract ← validateImplementation contractName opts
      ask (.recordImpl contract.version contract.layout address)
      ask (.getContractAt contractName address)

end

end TronUpgrades.Hardhat
