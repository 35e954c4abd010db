import TronUpgrades.Effects.History
import TronUpgrades.Tronbox.Adopt

/-!
# A toolkit that may do anything

Every capability of the toolkit is one operation that may answer any value of
its type or reject. The fetch may call back as often as it likes before it
settles, the queue may skip its step, and the facade calls are the plugin's own
over whatever the host resolves, attaches and sends.
-/

namespace TronUpgrades.Tronbox

open Effects Record

/-- The accesses to a contract object's per-network entry. -/
inductive EntryAccess
  | address | setAddress (address : String) | resetAddress
  | transactionHash | setTransactionHash (hash : String) | deleteTransactionHash
  | isDeployed

@[reducible] def EntryAccess.Reply : EntryAccess → Type
  | .address | .transactionHash => Option String
  | .isDeployed => Bool
  | _ => Unit

inductive ToolkitOp (E : Engine)
  | entry (access : EntryAccess) (contract : ContractAbstraction E)
  | note (text : String)
  | warn (text : String)
  | contractAt (contract : ContractAbstraction E) (address : String)
  | validateImplementation (name : String) (resolved : ResolvedForProxyOps E)
  | requireDeployer
  | queueTurn
  | replayVerdicts
  | resolveSender
  | signerOf (transactionHash : String)
  | proxyArtifact (name : String)
  | looksLikeProxyAdmin (address : String)
  /-- Answered with how often the fetch calls back before it settles. -/
  | fetchStarts (validated : ValidatedImplementation E) (resolved : ResolvedForProxyOps E)
  | fetchSettles (validated : ValidatedImplementation E) (resolved : ResolvedForProxyOps E)
  | hostDeploy (contract : ContractAbstraction E) (args : List Json)
  | confirm (transactionHash : String)
  | inferKind (validated : ValidatedImplementation E)
  | processProxyKind (address : String) (validated : ValidatedImplementation E)
      (resolved : ResolvedForProxyOps E)
  | storedLayoutFor (address : String)
  | assertStorageCompatible (current : E.Layout) (validated : ValidatedImplementation E)
      (resolved : ResolvedForProxyOps E)
  | attach (facade : ContractAbstraction E) (address : String)
  | send (request : FacadeRequest)
  | ownerOf (address : String)
  | proxySlots (address : String)
  | recordProxy (address : String) (kind : ProxyKind)
  | readUpgradeInterfaceVersion (address : String)
  | readImplementationAddress (address : String)
  | readBeaconImplementation (address : String)
  | getCode (address : String)
  | getProxyRecord (address : String)
  | getImplRecord (address : String)

@[reducible] def ToolkitOp.Reply {E : Engine} : ToolkitOp E → Type
  | .entry access _ => access.Reply
  | .contractAt _ _ => ContractHandle
  | .validateImplementation _ _ => ValidatedImplementation E
  | .replayVerdicts => List ProxyRecordVerdict
  | .resolveSender => EffectiveSender
  | .signerOf _ | .ownerOf _ | .readUpgradeInterfaceVersion _ => Option String
  | .proxyArtifact _ => ContractAbstraction E
  | .looksLikeProxyAdmin _ | .getImplRecord _ => Bool
  | .fetchStarts _ _ => Nat
  | .fetchSettles _ _ | .readImplementationAddress _ | .getCode _ => String
  | .hostDeploy _ _ => WriteBack
  | .confirm _ => ConfirmationVerdict
  | .inferKind _ | .processProxyKind _ _ _ => ProxyKind
  | .storedLayoutFor _ => E.Layout
  | .attach _ _ => AttachedInstance
  | .send _ => Json
  | .proxySlots _ => ProxySlotsRead
  | .readBeaconImplementation _ => BeaconRead
  | .getProxyRecord _ => Option ProxyKind
  | .note _ | .warn _ | .requireDeployer | .queueTurn | .assertStorageCompatible _ _ _
  | .recordProxy _ _ => Unit

@[reducible] def toolkitEffects (E : Engine) : Signature := ⟨ToolkitOp E, ToolkitOp.Reply⟩

abbrev ToolkitHistory (E : Engine) := History (toolkitEffects E) Failure

section
variable {E : Engine}

def toolkitCall (op : ToolkitOp E) : Task (toolkitEffects E) op.Reply :=
  Script.perform (S := toolkitEffects E) op

/-- What the deploy callback returned last, over so many calls. -/
def callBack {S : Signature} (deploy : Task S α) : Nat → Option α → Task S (Option α)
  | 0, last => return last
  | turns + 1, last => do
    let outcome ← deploy.attempt
    callBack deploy turns (match outcome with | .ok deployed => some deployed | .error _ => last)

def anyEntry : HostEntry E (toolkitEffects E) where
  address contract := toolkitCall (.entry .address contract)
  setAddress contract address := toolkitCall (.entry (.setAddress address) contract)
  resetAddress contract := toolkitCall (.entry .resetAddress contract)
  transactionHash contract := toolkitCall (.entry .transactionHash contract)
  setTransactionHash contract hash := toolkitCall (.entry (.setTransactionHash hash) contract)
  deleteTransactionHash contract := toolkitCall (.entry .deleteTransactionHash contract)
  isDeployed contract := toolkitCall (.entry .isDeployed contract)

def anyFacadeHost : FacadeHost E (toolkitEffects E) where
  proxyArtifact name := toolkitCall (.proxyArtifact name)
  attach facade address := toolkitCall (.attach facade address)
  send request := toolkitCall (.send request)

def anyToolkit (codec : AddressCodec) (wildcardNetwork : Bool) :
    OperationToolkit E (toolkitEffects E) where
  codec := codec
  wildcardNetwork := wildcardNetwork
  entry := anyEntry
  note text := toolkitCall (.note text)
  warn text := toolkitCall (.warn text)
  contractAt contract address := toolkitCall (.contractAt contract address)
  validateImplementation name resolved := toolkitCall (.validateImplementation name resolved)
  requireDeployer := toolkitCall .requireDeployer
  queue step := do
    let () ← toolkitCall .queueTurn
    step
  priorDeployedAddress := readPriorDeployedAddress anyEntry
  replayVerdicts := toolkitCall .replayVerdicts
  resolveSender := toolkitCall .resolveSender
  signerOf transactionHash := toolkitCall (.signerOf transactionHash)
  proxyArtifact name := toolkitCall (.proxyArtifact name)
  looksLikeProxyAdmin address := toolkitCall (.looksLikeProxyAdmin address)
  fetchOrDeployImplementation validated resolved _ deploy := do
    let turns ← toolkitCall (.fetchStarts validated resolved)
    let deployed ← callBack deploy turns none
    let address ← toolkitCall (.fetchSettles validated resolved)
    return ⟨address, deployed⟩
  hostDeploy contract args := toolkitCall (.hostDeploy contract args)
  confirm transactionHash := toolkitCall (.confirm transactionHash)
  inferKind validated := toolkitCall (.inferKind validated)
  processProxyKind address validated resolved :=
    toolkitCall (.processProxyKind address validated resolved)
  storedLayoutFor address := toolkitCall (.storedLayoutFor address)
  assertStorageCompatible current validated resolved :=
    toolkitCall (.assertStorageCompatible current validated resolved)
  callThroughFacade := callThroughFacade anyFacadeHost
  ownerOf address := toolkitCall (.ownerOf address)
  proxySlots address := toolkitCall (.proxySlots address)
  sendUpgradeCall := sendUpgradeCall (callThroughFacade anyFacadeHost)
  recordProxy address kind := toolkitCall (.recordProxy address kind)
  readUpgradeInterfaceVersion address := toolkitCall (.readUpgradeInterfaceVersion address)
  readImplementationAddress address := toolkitCall (.readImplementationAddress address)
  readBeaconImplementation address := toolkitCall (.readBeaconImplementation address)
  getCode address := toolkitCall (.getCode address)
  getProxyRecord address := toolkitCall (.getProxyRecord address)
  getImplRecord address := toolkitCall (.getImplRecord address)

end

end TronUpgrades.Tronbox
