import TronUpgrades.Effects.Readiness
import TronUpgrades.Tronbox.Judged

/-!
# What an operation needs after its first transaction

The five operations that send, in surroundings of which the artifacts, the record
and the chain at the start are known. `Call.Ready` is what an operation asks for
only once it may have sent something, and its start has settled all the same:
`Call.needs_ready` finds it in every success.
-/

namespace TronUpgrades.Tronbox

open Effects Address

section
variable {E : Engine}

-- ---------------------------------------------------------------------------
-- Surroundings
-- ---------------------------------------------------------------------------

/-- What no transaction changes: the compiled artifacts. -/
def HostOp.isSettled : HostOp E → Bool
  | .deriveValidationInput _ | .resolveArtifact _ | .artifactRecord _ => true
  | _ => false

/-- What is as at the start until something is sent: the artifacts, and what is
read of the chain and the record while an operation plans. -/
def HostOp.isLasting : HostOp E → Bool
  | .readProxySlots _ | .processProxyKind _ _ _ _ | .readUpgradeInterfaceVersion _ => true
  | op => op.isSettled

/-- The implementation that the engine answers with. -/
def implementationOf : Event (hostEffects E) Failure → Option String
  | ⟨.engineStart _ _, .ok (some address)⟩ => some address
  | ⟨.engineSettle _ _ _, .ok address⟩ => some address
  | _ => none

def IsAddress (codec : AddressCodec) (address : String) : Prop :=
  ∃ canonical, canonicalizeAddress codec address = .ok canonical

/-- An attached artifact has the members of its interface; the engine answers
with an address. -/
def Lawful (codec : AddressCodec) (methods : ContractAbstraction E → List String)
    (hasEvents : ContractAbstraction E → Bool) : Event (hostEffects E) Failure → Prop
  | ⟨.attach contract _, .ok attached⟩ =>
    attached.methods = methods contract ∧ attached.hasEvents = hasEvents contract
  | event => ∀ address, implementationOf event = some address → IsAddress codec address

/-- What a call finds. -/
structure Surroundings (E : Engine) (env : Environment) where
  methods : ContractAbstraction E → List String
  hasEvents : ContractAbstraction E → Bool
  answer : HostHistory E → (op : HostOp E) → Except Failure op.Reply
  lasting : ∀ h op, op.isLasting = true → answer h op = answer [] op
  lawful : ∀ h op, Lawful env.codec methods hasEvents ⟨op, answer h op⟩

theorem HostOp.lasting_of_settled {op : HostOp E} (hop : op.isSettled = true) :
    op.isLasting = true := by
  cases op <;> first | rfl | cases hop

variable {env : Environment}

def Surroundings.start (s : Surroundings E env) : Start (hostEffects E) Failure where
  commits := HostOp.spends
  settled := HostOp.isSettled
  uncommitting op hop := by cases op <;> first | rfl | cases hop
  answer := s.answer
  constant h op hop := s.lasting h op (HostOp.lasting_of_settled hop)
  possible := Lawful env.codec s.methods s.hasEvents

-- ---------------------------------------------------------------------------
-- Calls, and what each needs once it has spent
-- ---------------------------------------------------------------------------

inductive Call (E : Engine)
  | deployProxy (contract : ContractAbstraction E) (args : List Json)
  | upgradeProxy (proxy : String) (contract : ContractAbstraction E)
  | deployBeacon (contract : ContractAbstraction E)
  | upgradeBeacon (beacon : String) (contract : ContractAbstraction E)
  | deployBeaconProxy (beacon : String) (contract : ContractAbstraction E) (args : List Json)

/-- The call, by the address it returns. -/
def Call.script (env : Environment) (resolved : ResolvedForProxyOps E) : Call E → HostTask E String
  | .deployProxy contract args => do
    return (← runDeployProxy ⟨productionToolkit env, resolved⟩ contract args).address
  | .upgradeProxy proxy contract => do
    return (← runUpgradeProxy ⟨productionToolkit env, resolved⟩ proxy contract).address
  | .deployBeacon contract => do
    return (← runDeployBeacon ⟨productionToolkit env, resolved⟩ contract).address
  | .upgradeBeacon beacon contract => do
    return (← runUpgradeBeacon ⟨productionToolkit env, resolved⟩ beacon contract).address
  | .deployBeaconProxy beacon contract args => do
    return (← runDeployBeaconProxy ⟨productionToolkit env, resolved⟩ beacon contract args).address

/-- The artifact that a resolution settles on. -/
def ArtifactResolution.Names : ArtifactResolution E → ContractAbstraction E → Prop
  | .unique found, contract => found = contract
  | .ambiguous found candidates, contract =>
    found = contract ∧ candidates.eraseDups.length ≤ 1
  | .indeterminate _, _ => False

/-- What the host's `new` is asked for: a surface, and every library linked. -/
def ContractAbstraction.Deployable (contract : ContractAbstraction E) : Prop :=
  contract.hasNew = true ∧ assertFullyLinked contract.deployableBytecode = .ok ()

namespace Surroundings

variable (s : Surroundings E env)

def Artifact (name : String) (contract : ContractAbstraction E) : Prop :=
  ∃ resolution : ArtifactResolution E, s.answer [] (.resolveArtifact name) = .ok resolution ∧
    resolution.Names contract

/-- The candidate as it is compiled, under the options. -/
def validated (name : String) (resolved : ResolvedForProxyOps E) :
    Except Failure (ValidatedImplementation E) := do
  let outcome ← s.answer [] (.deriveValidationInput name)
  let input ← outcome.mapError fun refused => .validationInputRefused refused.1 refused.2
  let validations ← foreignError (E.validate input)
  let resolution ← s.answer [] (.resolveArtifact name)
  let record ← s.answer [] (.artifactRecord resolution.contract)
  let bytecode ← completeRecord name record
  judge name resolved input validations resolution.contract.abi bytecode

def kind (name : String) (resolved : ResolvedForProxyOps E) : Except Failure ProxyKind :=
  match resolved.kind with
  | some kind => .ok kind
  | none => do
    let validated ← s.validated name resolved
    foreignError (E.inferProxyKind validated.validations validated.version)

/-- How the chain, the record and the arguments have a proxy upgraded. -/
def dispatch (resolved : ResolvedForProxyOps E) (proxy : String)
    (contract : ContractAbstraction E) : Except Failure UpgradePlan := do
  let name ← nameOf E contract "upgradeProxy"
  let proxyAddress ← canonicalizeAddress env.codec proxy
  let validated ← s.validated name resolved
  let slots ← s.answer [] (.readProxySlots proxyAddress)
  let (_, admin) ← upgradeableSlots proxyAddress slots
  let kind ← s.answer [] (.processProxyKind proxyAddress resolved.kind validated.validations
    validated.version)
  let callData ← encodeCall contract.abi resolved.call
  let adminAddress ← upgradeAdmin proxyAddress kind admin
  let interfaceVersion ← s.answer []
    (.readUpgradeInterfaceVersion (adminAddress.getD proxyAddress))
  planUpgradeDispatch kind interfaceVersion (callData ≠ "0x")

end Surroundings

variable {s : Surroundings E env} {α β : Type} {f : α → HostTask E β} {C : β → Prop}
  {resolved : ResolvedForProxyOps E} {contract : ContractAbstraction E}

abbrev Needs (s : Surroundings E env) (x : HostTask E α) (D : α → Prop) : Prop := s.start.Needs x D

theorem HostOp.unspent_of_reads {op : HostOp E} (hop : op.reads = true) : op.spends = false := by
  cases op <;> first | rfl | cases hop

/-- The script never asks for anything that sends. -/
abbrev Unspent (x : HostTask E α) : Prop := x.Asks fun op => HostOp.spends op = false

theorem Reads.unspent {x : HostTask E α} (hx : Reads x) : Unspent x :=
  hx.mono fun _ => HostOp.unspent_of_reads

end

end TronUpgrades.Tronbox
