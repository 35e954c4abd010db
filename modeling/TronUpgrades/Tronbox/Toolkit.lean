import TronUpgrades.Effects.World
import TronUpgrades.Record.Reconcile
import TronUpgrades.Tronbox.Deploy

/-!
# The operation toolkit

What every operation script is written against, as a record of scripts over
any surroundings, and the part of it that is the same in all of them: the
write-back of the user's artifact, the facade calls, the initializer.
-/

namespace TronUpgrades.Tronbox

open Effects Record Address

abbrev Task (S : Signature) (α : Type) := Script S Failure α

/-- The per-network entry of a contract object. Getters and setters are the
host's own and may throw; a getter answers a string or something else. -/
structure HostEntry (E : Engine) (S : Signature) where
  address : ContractAbstraction E → Task S (Option String)
  setAddress : ContractAbstraction E → String → Task S Unit
  resetAddress : ContractAbstraction E → Task S Unit
  transactionHash : ContractAbstraction E → Task S (Option String)
  setTransactionHash : ContractAbstraction E → String → Task S Unit
  deleteTransactionHash : ContractAbstraction E → Task S Unit
  isDeployed : ContractAbstraction E → Task S Bool

/-- An abstraction attached to an address, with the methods it exposes. -/
structure AttachedInstance where
  address : String
  methods : List String
  hasEvents : Bool
  deriving DecidableEq, Repr

structure FacadeRequest where
  facadeName : String
  target : String
  method : String
  args : List Json

inductive UpgradeRoute
  | adminV5 | adminV4 | uupsV5 | uupsPre5
  deriving DecidableEq, Repr

inductive UpgradeCallName
  | upgradeAndCall | upgrade | upgradeToAndCall | upgradeTo
  deriving DecidableEq, Repr

def UpgradeCallName.text : UpgradeCallName → String
  | .upgradeAndCall => "upgradeAndCall"
  | .upgrade => "upgrade"
  | .upgradeToAndCall => "upgradeToAndCall"
  | .upgradeTo => "upgradeTo"

structure UpgradeCallRequest where
  route : UpgradeRoute
  call : UpgradeCallName
  proxyAddress : String
  adminAddress : Option String
  implementationAddress : String
  data : String

/-- What a fetch ends with: the engine's address, and what the deploy callback
returned last where it ran (the operations that look assign it to a variable). -/
structure Fetched (α : Type) where
  address : String
  deployed : Option α

structure OperationToolkit (E : Engine) (S : Signature) where
  codec : AddressCodec
  /-- `network.configuredId.syntax === 'wildcard'` -/
  wildcardNetwork : Bool
  entry : HostEntry E S
  note : String → Task S Unit
  warn : String → Task S Unit
  contractAt : ContractAbstraction E → String → Task S ContractHandle
  validateImplementation : String → ResolvedForProxyOps E → Task S (ValidatedImplementation E)
  requireDeployer : Task S Unit
  queue : {α : Type} → Task S α → Task S α
  priorDeployedAddress : ContractAbstraction E → Task S (Option String)
  replayVerdicts : Task S (List ProxyRecordVerdict)
  resolveSender : Task S EffectiveSender
  signerOf : String → Task S (Option String)
  proxyArtifact : String → Task S (ContractAbstraction E)
  looksLikeProxyAdmin : String → Task S Bool
  fetchOrDeployImplementation : {α : Type} → ValidatedImplementation E →
    ResolvedForProxyOps E → (α → EngineDeployment) → Task S α → Task S (Fetched α)
  hostDeploy : ContractAbstraction E → List Json → Task S WriteBack
  confirm : String → Task S ConfirmationVerdict
  inferKind : ValidatedImplementation E → Task S ProxyKind
  processProxyKind : String → ValidatedImplementation E → ResolvedForProxyOps E → Task S ProxyKind
  storedLayoutFor : String → Task S E.Layout
  assertStorageCompatible : E.Layout → ValidatedImplementation E → ResolvedForProxyOps E →
    Task S Unit
  callThroughFacade : FacadeRequest → Task S WriteBack
  ownerOf : String → Task S (Option String)
  proxySlots : String → Task S ProxySlotsRead
  sendUpgradeCall : UpgradeCallRequest → Task S WriteBack
  recordProxy : String → ProxyKind → Task S Unit
  -- the chain's readers and the record session
  readUpgradeInterfaceVersion : String → Task S (Option String)
  readImplementationAddress : String → Task S String
  readBeaconImplementation : String → Task S BeaconRead
  getCode : String → Task S String
  getProxyRecord : String → Task S (Option ProxyKind)
  getImplRecord : String → Task S Bool

structure OperationContext (E : Engine) (S : Signature) where
  toolkit : OperationToolkit E S
  resolved : ResolvedForProxyOps E

section
variable {E : Engine} {S : Signature}

-- ---------------------------------------------------------------------------
-- The write-back
-- ---------------------------------------------------------------------------

structure PriorWriteBack where
  address : Option String
  transactionHash : Option String
  deriving DecidableEq, Repr

def readWriteBackHash (entry : HostEntry E S) (contract : ContractAbstraction E) :
    Task S (Option String) :=
  tryCatch (do return (← entry.transactionHash contract).filter (· ≠ "")) fun _ => return none

def readWriteBack (entry : HostEntry E S) (contract : ContractAbstraction E) :
    Task S PriorWriteBack := do
  let address ← tryCatch (do return (← entry.address contract).filter (· ≠ ""))
    fun _ => return none
  let transactionHash ← readWriteBackHash entry contract
  return ⟨address, transactionHash⟩

/-- An entry that cannot be written is already in the state to restore. -/
def restoreWriteBack (entry : HostEntry E S) (contract : ContractAbstraction E)
    (prior : PriorWriteBack) : Task S Unit := do
  tryCatch
    (match prior.address with
      | none => entry.resetAddress contract
      | some address => entry.setAddress contract address)
    fun _ => return ()
  tryCatch
    (match prior.transactionHash with
      | none => entry.deleteTransactionHash contract
      | some hash => entry.setTransactionHash contract hash)
    fun _ => return ()

def restoringWriteBackOnFailure (entry : HostEntry E S) (contract : ContractAbstraction E)
    (step : Task S α) : Task S α := do
  let prior ← readWriteBack entry contract
  tryCatch step fun error => do
    restoreWriteBack entry contract prior
    throw error

def readPriorDeployedAddress (entry : HostEntry E S) (contract : ContractAbstraction E) :
    Task S (Option String) := do
  if !contract.hasIsDeployed then return none
  let deployed ← tryCatch (entry.isDeployed contract) fun _ => return false
  if deployed then entry.address contract else return none

/-- Whatever the entry's accesses ask for is in `P`. -/
structure HostEntry.Asks (entry : HostEntry E S) (P : S.Op → Prop) : Prop where
  address : ∀ contract, (entry.address contract).Asks P
  setAddress : ∀ contract address, (entry.setAddress contract address).Asks P
  resetAddress : ∀ contract, (entry.resetAddress contract).Asks P
  transactionHash : ∀ contract, (entry.transactionHash contract).Asks P
  setTransactionHash : ∀ contract hash, (entry.setTransactionHash contract hash).Asks P
  deleteTransactionHash : ∀ contract, (entry.deleteTransactionHash contract).Asks P
  isDeployed : ∀ contract, (entry.isDeployed contract).Asks P

section
variable {entry : HostEntry E S} {P : S.Op → Prop} (he : entry.Asks P)
  (contract : ContractAbstraction E)
include he

theorem readWriteBackHash_asks : (readWriteBackHash entry contract).Asks P := by
  refine Script.Asks.catching ?_ fun _ => trivial
  exact (he.transactionHash contract).bind fun _ => trivial

theorem readWriteBack_asks : (readWriteBack entry contract).Asks P := by
  refine Script.Asks.bind (Script.Asks.catching ?_ fun _ => trivial) fun _ => ?_
  · exact (he.address contract).bind fun _ => trivial
  · exact (readWriteBackHash_asks he contract).bind fun _ => trivial

theorem restoreWriteBack_asks (prior : PriorWriteBack) :
    (restoreWriteBack entry contract prior).Asks P := by
  refine Script.Asks.bind (Script.Asks.catching ?_ fun _ => trivial) fun _ =>
    Script.Asks.catching ?_ fun _ => trivial
  · cases prior.address with
    | none => exact he.resetAddress contract
    | some address => exact he.setAddress contract address
  · cases prior.transactionHash with
    | none => exact he.deleteTransactionHash contract
    | some hash => exact he.setTransactionHash contract hash

end

section
variable {entry : HostEntry E S} {P : S.Op → Prop} (he : entry.Asks P) {σ : Type}
  {W : World S Failure σ} {G : σ → S.Op → Prop} {rel : σ → σ → Prop} (m : Moves W G P rel)
  (contract : ContractAbstraction E) {s : σ}
include he m

theorem readWriteBackHash_wp :
    wp W G (readWriteBackHash entry contract) (fun o t => (∃ a, o = .ok a) ∧ rel s t) s := by
  refine m.guarded ?_ none s
  exact (he.transactionHash contract).bind fun _ => trivial

theorem readWriteBack_wp :
    wp W G (readWriteBack entry contract) (fun o t => (∃ a, o = .ok a) ∧ rel s t) s := by
  apply wp.bind (R := fun o t => (∃ a, o = .ok a) ∧ rel s t)
  · refine m.guarded ?_ none s
    exact (he.address contract).bind fun _ => trivial
  · rintro address t ⟨-, hst⟩
    apply wp.bind (readWriteBackHash_wp he m contract)
    · rintro hash u ⟨-, htu⟩
      exact ⟨⟨_, rfl⟩, m.trans s t u hst htu⟩
    · rintro e u ⟨⟨_, h⟩, -⟩
      cases h
  · rintro e t ⟨⟨_, h⟩, -⟩
    cases h

theorem restoreWriteBack_wp (prior : PriorWriteBack) :
    wp W G (restoreWriteBack entry contract prior) (fun o t => o = .ok () ∧ rel s t) s := by
  apply wp.bind (R := fun o t => (∃ a, o = .ok a) ∧ rel s t)
  · refine m.guarded ?_ () s
    cases prior.address with
    | none => exact he.resetAddress contract
    | some address => exact he.setAddress contract address
  · rintro _ t ⟨-, hst⟩
    apply wp_mono (Q := fun o u => (∃ a, o = .ok a) ∧ rel t u)
    · rintro o u ⟨⟨_, rfl⟩, htu⟩
      exact ⟨rfl, m.trans s t u hst htu⟩
    · refine m.guarded ?_ () t
      cases prior.transactionHash with
      | none => exact he.deleteTransactionHash contract
      | some hash => exact he.setTransactionHash contract hash
  · rintro e t ⟨⟨_, h⟩, -⟩
    cases h

/-- What the step is proved to do from any state the reads lead to, the whole
does, as far as its failures survive the restoring. -/
theorem restoringWriteBackOnFailure_wp {step : Task S α} {Q : Except Failure α → σ → Prop}
    (hstep : ∀ t, rel s t → wp W G step Q t)
    (failed : ∀ e t u, Q (.error e) t → rel t u → Q (.error e) u) :
    wp W G (restoringWriteBackOnFailure entry contract step) Q s := by
  apply wp.bind (readWriteBack_wp he m contract)
  · rintro prior t ⟨-, hst⟩
    apply wp.catching (hstep t hst)
    · exact fun _ _ h => h
    · intro e u hQ
      apply wp.bind (restoreWriteBack_wp he m contract prior)
      · rintro _ v ⟨-, huv⟩
        exact failed e u v hQ huv
      · rintro _ v ⟨h, -⟩
        cases h
  · rintro e t ⟨⟨_, h⟩, -⟩
    cases h

end

-- ---------------------------------------------------------------------------
-- Calls through a facade
-- ---------------------------------------------------------------------------

/-- The id as a string, or under `txID`, or under `transactionHash`. -/
def callTransactionHash : Json → Option String
  | .str hash => some hash
  | .obj fields =>
    match Json.get? fields "txID", Json.get? fields "transactionHash" with
    | some (.str hash), _ => some hash
    | _, some (.str hash) => some hash
    | _, _ => none
  | _ => none

/-- What a facade call asks of the host. -/
structure FacadeHost (E : Engine) (S : Signature) where
  proxyArtifact : String → Task S (ContractAbstraction E)
  attach : ContractAbstraction E → String → Task S AttachedInstance
  /-- Sends the transaction. -/
  send : FacadeRequest → Task S Json

def callThroughFacade (host : FacadeHost E S) (request : FacadeRequest) : Task S WriteBack := do
  let facade ← host.proxyArtifact request.facadeName
  if !facade.hasAt then
    throw (.error (request.facadeName ++ ": no attachable surface in this context"))
  else do
    let attached ← host.attach facade request.target
    if !attached.methods.contains request.method then
      throw (.error (request.facadeName ++ " at " ++ request.target ++ " exposes no method " ++
        request.method))
    else do
      let result ← host.send request
      match callTransactionHash result with
      | some transactionHash => return ⟨request.target, transactionHash⟩
      | none => throw (.error ("the call returned no recognisable transaction id: " ++
          request.method))

def UpgradeCallRequest.facadeName (request : UpgradeCallRequest) : String :=
  match request.route with
  | .adminV5 => "ProxyAdmin"
  | .adminV4 => "ITronUpgradesProxyAdminV4"
  | .uupsV5 | .uupsPre5 => "ITronUpgradesUUPS"

def UpgradeCallRequest.callArgs (request : UpgradeCallRequest) : List Json :=
  match request.route with
  | .adminV5 | .adminV4 =>
    if request.call = .upgrade then
      [.str request.proxyAddress, .str request.implementationAddress]
    else [.str request.proxyAddress, .str request.implementationAddress, .str request.data]
  | .uupsV5 | .uupsPre5 =>
    if request.call = .upgradeTo then [.str request.implementationAddress]
    else [.str request.implementationAddress, .str request.data]

/-- To the admin where there is one, else to the proxy itself. -/
def UpgradeCallRequest.toFacade (request : UpgradeCallRequest) : FacadeRequest where
  facadeName := request.facadeName
  target := request.adminAddress.getD request.proxyAddress
  method := request.call.text
  args := request.callArgs

def sendUpgradeCall (call : FacadeRequest → Task S WriteBack) (request : UpgradeCallRequest) :
    Task S WriteBack := do
  let writeBack ← call request.toFacade
  return ⟨request.proxyAddress, writeBack.transactionHash⟩

-- ---------------------------------------------------------------------------
-- Call data
-- ---------------------------------------------------------------------------

def foreignError (result : Except Thrown α) : Except Failure α := result.mapError .foreign

@[simp] theorem ok_bind {ε : Type} {f : α → Except ε β} (a : α) :
    (Except.ok a >>= f) = f a := rfl

theorem bind_ok {ε : Type} {x : Except ε α} {f : α → Except ε β} {b : β}
    (h : (x >>= f) = .ok b) : ∃ a, x = .ok a ∧ f a = .ok b := by
  cases x with
  | error e => cases h
  | ok a => exact ⟨a, rfl, h⟩

theorem mapError_ok {ε ε' : Type} {result : Except ε α} {f : ε → ε'} {a : α}
    (h : result.mapError f = .ok a) : result = .ok a := by
  cases result with
  | error e => cases h
  | ok b =>
    cases h
    rfl

def ProxyKind.text : ProxyKind → String
  | .transparent => "transparent"
  | .uups => "uups"
  | .beacon => "beacon"

def encodeInitializer (abi : E.Abi) (kind : String) (args : List Json)
    (initializer : InitializerOption) : Except Failure String := do
  let name ← match initializer with
    | .disabled => throw (.emptyInitializerRefused kind .initializerFalse)
    | .omitted => pure "initialize"
    | .named fn => pure fn
  if !(← foreignError (E.hasFunction abi name args)) then
    throw (.emptyInitializerRefused kind .noDefaultInitializer)
  let data ← foreignError (E.encodeFunctionData abi name args)
  if data = "0x" then throw (.emptyInitializerRefused kind .noDefaultInitializer)
  return data

/-- The caller's `call` option as call data: raw where it starts with `0x`. -/
def encodeCall (abi : E.Abi) : CallOption → Except Failure String
  | .omitted => .ok "0x"
  | .text call =>
    match call.toList with
    | '0' :: 'x' :: _ => .ok call
    | _ => foreignError (E.encodeFunctionData abi call [])
  | .function fn args => foreignError (E.encodeFunctionData abi fn args)

/-- A write that fails after the proxy is live is thrown with the proxy's
address and transaction. -/
def recordingLiveProxy (live : SpentDeployment) (write : Task S α) : Task S α :=
  tryCatch write fun cause =>
    throw (.proxyRecordWriteFailed live.address live.transactionHash cause)

def requireProxyKind (kind : ProxyKind) (allowed : List ProxyKind) (operation : String) :
    Except Failure Unit :=
  if allowed.contains kind then .ok ()
  else .error (.optionValue "kind" (ProxyKind.text kind) (allowed.map ProxyKind.text) operation)

end

end TronUpgrades.Tronbox
