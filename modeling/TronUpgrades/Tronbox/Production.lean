import TronUpgrades.Record.Session
import TronUpgrades.Tronbox.AnyToolkit

/-!
# The production toolkit

`createOperationToolkit` as it is wired: the plugin's own code over what the
host, the node, the engine and the record's file answer. The engine's fetch is
one operation that says whether it has an address or calls back, and one, given
the callback's outcome, that says what it settles with.
-/

namespace TronUpgrades.Tronbox

open Effects Record Address Text

/-- `artifacts.resolve(name)` with the abstraction it carries. -/
inductive ArtifactResolution (E : Engine)
  | unique (contract : ContractAbstraction E)
  | ambiguous (contract : ContractAbstraction E) (candidates : List (String × String))
  | indeterminate (contract : ContractAbstraction E)

def ArtifactResolution.contract : ArtifactResolution E → ContractAbstraction E
  | .unique contract | .ambiguous contract _ | .indeterminate contract => contract

/-- `artifacts.record(abstraction)`, of which the creation bytecode is read. -/
inductive ArtifactRecord
  | complete (bytecode : String)
  | incomplete (status : String)

/-- What `contract.new(...)` resolves with. -/
structure HostInstance where
  address : Option String
  transactionHash : Option String
  deriving DecidableEq, Repr

inductive HostOp (E : Engine)
  | entry (access : EntryAccess) (contract : ContractAbstraction E)
  | say (text : String)
  | queueTurn
  -- artifacts
  | deriveValidationInput (name : String)
  | resolveArtifact (name : String)
  | artifactRecord (contract : ContractAbstraction E)
  -- what is sent
  | hostNew (contract : ContractAbstraction E) (args : List Json)
  | attach (contract : ContractAbstraction E) (address : String)
  | send (request : FacadeRequest)
  | waitForTransactionReceipt (transactionHash : String)
  -- the node
  | transactionSender (transactionHash : String)
  | looksLikeProxyAdmin (address : String)
  | callOwner (address : String)
  | readProxySlots (address : String)
  | readUpgradeInterfaceVersion (address : String)
  | readImplementationAddress (address : String)
  | readBeaconImplementation (address : String)
  | getCode (address : String)
  -- the engine
  /-- Answered with an address to use, or with nothing: then it calls back. -/
  | engineStart (version : E.Version) (redeploy : Bool)
  | engineSettle (version : E.Version) (layout : E.Layout)
      (callback : Except Failure EngineDeployment)
  | processProxyKind (address : String) (kind : Option ProxyKind) (validations : E.Validations)
      (version : E.Version)
  -- the record's file
  | proxyRecord (address : String)
  | implRecord (address : String)
  | addProxyRecord (address : String) (kind : ProxyKind)

@[reducible] def HostOp.Reply {E : Engine} : HostOp E → Type
  | .entry access _ => access.Reply
  | .say _ | .queueTurn | .addProxyRecord _ _ => Unit
  | .deriveValidationInput _ => Except (String × String) E.ValidationInput
  | .resolveArtifact _ => ArtifactResolution E
  | .artifactRecord _ => ArtifactRecord
  | .hostNew _ _ => HostInstance
  | .attach _ _ => AttachedInstance
  | .send _ | .waitForTransactionReceipt _ => Json
  | .transactionSender _ | .callOwner _ | .readUpgradeInterfaceVersion _
  | .engineStart _ _ => Option String
  | .looksLikeProxyAdmin _ => Bool
  | .readProxySlots _ => ProxySlotsRead
  | .readImplementationAddress _ | .getCode _ | .engineSettle _ _ _ => String
  | .readBeaconImplementation _ => BeaconRead
  | .processProxyKind _ _ _ _ => ProxyKind
  | .proxyRecord _ => Option ProxyKind
  | .implRecord _ => Option (Option E.Layout)

@[reducible] def hostEffects (E : Engine) : Signature := ⟨HostOp E, HostOp.Reply⟩

abbrev HostTask (E : Engine) := Task (hostEffects E)

abbrev HostHistory (E : Engine) := History (hostEffects E) Failure

/-- What is fixed once the toolkit is built. -/
structure Environment where
  codec : AddressCodec
  wildcardNetwork : Bool
  /-- `network.sender`, the configured `from`. -/
  sender : Option String
  hasScheduling : Bool
  manifestFile : String
  /-- The session's verdicts on the addresses the operation named. -/
  verdicts : List ProxyRecordVerdict
  /-- `Buffer.from(value, 'hex').toString('utf8')` -/
  utf8OfHex : String → String

section
variable {E : Engine}

def hostCall (op : HostOp E) : HostTask E op.Reply := Script.perform (S := hostEffects E) op

def hostEntry : HostEntry E (hostEffects E) where
  address contract := hostCall (.entry .address contract)
  setAddress contract address := hostCall (.entry (.setAddress address) contract)
  resetAddress contract := hostCall (.entry .resetAddress contract)
  transactionHash contract := hostCall (.entry .transactionHash contract)
  setTransactionHash contract hash := hostCall (.entry (.setTransactionHash hash) contract)
  deleteTransactionHash contract := hostCall (.entry .deleteTransactionHash contract)
  isDeployed contract := hostCall (.entry .isDeployed contract)

theorem hostEntry_asks {P : HostOp E → Prop} (hP : ∀ access contract, P (.entry access contract)) :
    (hostEntry (E := E)).Asks P := by
  constructor <;> intros <;> exact Script.Asks.perform (hP _ _)

-- ---------------------------------------------------------------------------
-- Artifacts
-- ---------------------------------------------------------------------------

/-- Several build records of one source are one contract. -/
def requireProxyArtifact (name : String) : HostTask E (ContractAbstraction E) := do
  let resolution ← (hostCall (.resolveArtifact name)).catching
    fun _ => .throw (.proxyArtifactMissing name)
  match resolution with
  | .unique contract => return contract
  | .ambiguous contract candidates =>
    if candidates.eraseDups.length ≤ 1 then return contract
    else throw (.proxyArtifactCollision name (candidates.map (·.1)).eraseDups)
  | .indeterminate _ => throw (.proxyArtifactMissing name)

/-- The kind the candidate is judged with: the caller's, else the engine's
inference from the candidate. -/
def kindForErrors (validations : E.Validations) (version : E.Version) :
    Option ProxyKind → Except Failure ProxyKind
  | some kind => .ok kind
  | none => foreignError (E.inferProxyKind validations version)

/-- What is judged of an artifact: its version, its errors under the kind, its
layout. -/
def judge (name : String) (resolved : ResolvedForProxyOps E) (input : E.ValidationInput)
    (validations : E.Validations) (abi : E.Abi) (bytecode : String) :
    Except Failure (ValidatedImplementation E) := do
  let unlinked ← foreignError (E.getUnlinkedBytecode validations bytecode)
  let encodedArgs ← foreignError (E.encodeDeploy abi resolved.constructorArgs)
  let version := E.getVersion unlinked bytecode encodedArgs
  let kind ← kindForErrors validations version resolved.kind
  let errors ← foreignError (E.getErrors validations version resolved.engineOptions kind)
  refuseIf (errors ≠ []) (.error (name ++ " is not upgrade-safe"))
  let layout ← foreignError (E.getStorageLayout validations version)
  return { name, input, validations, version, layout, encodedArgs }

def disclosesIndeterminate : ArtifactResolution E → Bool
  | .indeterminate _ => true
  | _ => false

def completeRecord (name : String) : ArtifactRecord → Except Failure String
  | .complete bytecode => .ok bytecode
  | .incomplete status => .error (.error ("the compiled artifact for " ++ name ++
      " is missing fields the deployment needs (" ++ status ++ ")"))

def validateImplementation (name : String) (resolved : ResolvedForProxyOps E) :
    HostTask E (ValidatedImplementation E) := do
  let outcome ← hostCall (.deriveValidationInput name)
  let input ← .ofExcept (outcome.mapError fun refused =>
    .validationInputRefused refused.1 refused.2)
  let validations ← .ofExcept (foreignError (E.validate input))
  let resolution ← hostCall (.resolveArtifact name)
  .when (disclosesIndeterminate resolution) (hostCall (.say (name ++ ": artifact-name-indeterminate")))
  let record ← hostCall (.artifactRecord resolution.contract)
  let bytecode ← .ofExcept (completeRecord name record)
  .ofExcept (judge name resolved input validations resolution.contract.abi bytecode)

-- ---------------------------------------------------------------------------
-- Deploying and sending
-- ---------------------------------------------------------------------------

/-- The exact field the host deploys. -/
def ContractAbstraction.deployableBytecode (contract : ContractAbstraction E) : String :=
  contract.binary.getD (contract.bytecode.getD "")

def writeBackOf : HostInstance → Except Failure WriteBack
  | ⟨some address, some transactionHash⟩ => .ok ⟨address, transactionHash⟩
  | _ => .error (.error "the host deploy resolved without an address and transaction hash")

def hostDeploy (contract : ContractAbstraction E) (args : List Json) : HostTask E WriteBack := do
  .ofExcept (refuseIf (!contract.hasNew)
    (.error "the abstraction has no deployable surface in this context"))
  .ofExcept (assertFullyLinked contract.deployableBytecode)
  .ofExcept (assertNoCheatcodeCollision args)
  let deployed ← hostCall (.hostNew contract args)
  let writeBack ← .ofExcept (writeBackOf deployed)
  -- the assignment creates the entry the host persists
  hostEntry.setAddress contract writeBack.address
  hostEntry.setTransactionHash contract writeBack.transactionHash
  return writeBack

/-- One call of the engine's: what it settles with, and what its callback
returned where it ran. -/
def engineCall (validated : ValidatedImplementation E) (resolved : ResolvedForProxyOps E)
    (toDeployment : α → EngineDeployment) (deploy : HostTask E α) :
    HostTask E (Except Failure String × Option α) := do
  let started ← (hostCall (.engineStart validated.version
    (resolved.redeployImplementation = .always))).attempt
  match started with
  | .error error => return (.error error, none)
  | .ok (some address) => return (.ok address, none)
  | .ok none => do
    let callback ← Script.attempt
      (if resolved.redeployImplementation = .never then
        .throw (.implementationNotPreviouslyDeployed validated.name)
      else deploy)
    let settled ← (hostCall (.engineSettle validated.version validated.layout
      (callback.map toDeployment))).attempt
    return (settled, callback.toOption)

/-- One retry, where the engine has removed an entry it could not use. -/
def fetchOrDeployImplementation (env : Environment) (validated : ValidatedImplementation E)
    (resolved : ResolvedForProxyOps E) (toDeployment : α → EngineDeployment)
    (deploy : HostTask E α) : HostTask E (Fetched α) :=
  throughRecordLock env.manifestFile do
    let (first, deployed) ← engineCall validated resolved toDeployment deploy
    match first with
    | .ok address => return ⟨address, deployed⟩
    | .error error =>
      if !error.isRemoved || resolved.redeployImplementation = .never then throw error
      else do
        let (second, redeployed) ← engineCall validated resolved toDeployment deploy
        let address ← .ofExcept second
        return ⟨address, redeployed.or deployed⟩

/-- Some nodes hand the message back already decoded. -/
def decodeHexMessage (utf8OfHex : String → String) : Option Json → Option String
  | some (.str value) =>
    if value = "" then none
    else if isBareHex value.toList then some (utf8OfHex value)
    else some value
  | _ => none

/-- `receipt.result` decides; its absence decides nothing. -/
def classifyReceipt (utf8OfHex : String → String) (transactionHash : String) (info : Json) :
    ConfirmationVerdict :=
  let record := match info with | .obj fields => fields | _ => []
  let receipt := match Json.get? record "receipt" with | some (.obj fields) => fields | _ => []
  match Json.get? receipt "result" with
  | some (.str vmResult) =>
    if vmResult = "SUCCESS" then .confirmedSuccessful transactionHash
    else if vmResult ≠ "" then
      .reverted ⟨transactionHash, vmResult,
        decodeHexMessage utf8OfHex (Json.get? record "resMessage")⟩
    else .indeterminate ⟨transactionHash, .receiptFieldAbsent, none⟩
  | _ => .indeterminate ⟨transactionHash, .receiptFieldAbsent, none⟩

/-- The host's own bounds, interval times retries. -/
def hostConfirmationMs : Nat := 500 * 240

def confirmTransaction (env : Environment) (transactionHash : String) :
    HostTask E ConfirmationVerdict := do
  let info ← (hostCall (.waitForTransactionReceipt transactionHash)).attempt
  match info with
  | .ok info => return classifyReceipt env.utf8OfHex transactionHash info
  | .error _ => return .indeterminate ⟨transactionHash, .waitExhausted, some hostConfirmationMs⟩

def hostFacade : FacadeHost E (hostEffects E) where
  proxyArtifact := requireProxyArtifact
  attach facade address := hostCall (.attach facade address)
  send request := hostCall (.send request)

-- ---------------------------------------------------------------------------
-- Reading
-- ---------------------------------------------------------------------------

def contractAt (contract : ContractAbstraction E) (address : String) : HostTask E ContractHandle := do
  .ofExcept (refuseIf (!contract.hasAt)
    (.error "the contract abstraction has no `.at` surface in this context"))
  let attached ← hostCall (.attach contract address)
  return ⟨attached.address, attached.hasEvents⟩

/-- Whatever fails here, the sender is not known. -/
def signerOf (env : Environment) (transactionHash : String) : HostTask E (Option String) :=
  tryCatch (do
    let sender ← hostCall (.transactionSender transactionHash)
    match sender with
    | some sender =>
      if sender = "" then return none
      else do
        let signer ← .ofExcept (canonicalizeAddress env.codec sender)
        return some signer
    | none => return none) fun _ => return none

/-- The last twenty bytes of the word `owner()` answers. -/
def ownerOfWord (codec : AddressCodec) : Option String → Except Failure (Option String)
  | none => .ok none
  | some data =>
    let word := stripLowerHexPrefix data.toList
    if word.length < evmHexDigits ∨ word.all (· == '0') then .ok none
    else (canonicalizeAddress codec
      (.ofList ('0' :: 'x' :: word.drop (word.length - evmHexDigits)))).map some

def processProxyKind (address : String) (validated : ValidatedImplementation E)
    (resolved : ResolvedForProxyOps E) : HostTask E ProxyKind := do
  let kind ← hostCall (.processProxyKind address resolved.kind validated.validations
    validated.version)
  .ofExcept (refuseIf (kind = .beacon)
    (.error "unsupported proxy kind for this operation: beacon"))
  return kind

section
variable (env : Environment)

def sessionProxyRecord (address : String) : HostTask E (Option ProxyKind) := do
  let key ← .ofExcept (canonicalizeAddress env.codec address)
  throughRecordRead env.manifestFile (hostCall (.proxyRecord key))

def sessionImplRecord (address : String) : HostTask E (Option (Option E.Layout)) := do
  let key ← .ofExcept (canonicalizeAddress env.codec address)
  throughRecordRead env.manifestFile (hostCall (.implRecord key))

def sessionAddProxyRecord (address : String) (kind : ProxyKind) : HostTask E Unit := do
  let key ← .ofExcept (canonicalizeAddress env.codec address)
  throughRecordRead env.manifestFile (hostCall (.addProxyRecord key kind))

def storedLayoutFor (address : String) : HostTask E E.Layout := do
  let record ← sessionImplRecord env address
  match record with
  | some (some layout) => return layout
  | _ => throw (.error ("No stored storage layout for the implementation at " ++ address ++
      ". Register the deployment first with forceImport, or upgrade from the plugin that " ++
      "deployed it."))

def productionToolkit : OperationToolkit E (hostEffects E) where
  codec := env.codec
  wildcardNetwork := env.wildcardNetwork
  entry := hostEntry
  note text := hostCall (.say text)
  warn text := hostCall (.say text)
  contractAt := contractAt
  validateImplementation := validateImplementation
  requireDeployer := .ofExcept (refuseIf (!env.hasScheduling) (.deployerAbsent "scheduling"))
  queue step := do
    let () ← hostCall .queueTurn
    step
  priorDeployedAddress := readPriorDeployedAddress hostEntry
  replayVerdicts := return env.verdicts
  resolveSender := .ofExcept (resolveEffectiveSender env.codec env.sender)
  signerOf := signerOf env
  proxyArtifact := requireProxyArtifact
  looksLikeProxyAdmin address := hostCall (.looksLikeProxyAdmin address)
  fetchOrDeployImplementation := fetchOrDeployImplementation env
  hostDeploy := hostDeploy
  confirm := confirmTransaction env
  inferKind validated := .ofExcept
    (foreignError (E.inferProxyKind validated.validations validated.version))
  processProxyKind := processProxyKind
  storedLayoutFor := storedLayoutFor env
  assertStorageCompatible current validated resolved := do
    let ok ← .ofExcept (foreignError
      (E.storageReportOk current validated.layout resolved.engineOptions))
    .ofExcept (refuseIf (!ok) (.error
      "The new implementation is not storage-compatible with the current one"))
  callThroughFacade := callThroughFacade hostFacade
  ownerOf address := do
    let word ← hostCall (.callOwner address)
    .ofExcept (ownerOfWord env.codec word)
  proxySlots address := hostCall (.readProxySlots address)
  sendUpgradeCall := sendUpgradeCall (callThroughFacade hostFacade)
  recordProxy := sessionAddProxyRecord env
  readUpgradeInterfaceVersion address := hostCall (.readUpgradeInterfaceVersion address)
  readImplementationAddress address := hostCall (.readImplementationAddress address)
  readBeaconImplementation address := hostCall (.readBeaconImplementation address)
  getCode address := hostCall (.getCode address)
  getProxyRecord := sessionProxyRecord env
  getImplRecord address := do
    let record ← sessionImplRecord env address
    return record.isSome

end

end

/-- A network with a sending account and no record. Sample addresses have no
letters, so each is its own EIP-55 spelling. -/
def sampleEnvironment : Environment where
  codec := ⟨fun _ => false, id, id, id⟩
  wildcardNetwork := false
  sender := some "0x0000000000000000000000000000000000000060"
  hasScheduling := true
  manifestFile := "manifest.json"
  verdicts := []
  utf8OfHex := id

end TronUpgrades.Tronbox
