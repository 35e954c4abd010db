import TronUpgrades.Effects.Readiness
import TronUpgrades.Hardhat.Deployments
import TronUpgrades.Hardhat.Refusal

/-!
# Refusal before spend

Whether a Hardhat operation that its arguments, the artifacts, the manifest and
the chain have already doomed sends nothing. `Call.Ready` is what an operation
still asks for after its first transaction, and settled all the same:
`refusesFirst_iff_ready` says that this is where the order of the checks
matters. `deployProxy` and `deployBeacon` look at the owner only then.
-/

namespace TronUpgrades.Hardhat

open Effects Tronbox

section

-- A slot word stays a word: no step of these proofs reads the address in it.
attribute [local irreducible] slotToAddress

variable {E : Engine}

-- ---------------------------------------------------------------------------
-- Surroundings
-- ---------------------------------------------------------------------------

/-- `/^0x[0-9a-fA-F]{40}$/` -/
def isEvmAddress (address : String) : Bool :=
  match address.toList with
  | '0' :: 'x' :: rest => rest.all Text.isHexDigit && rest.length == 40
  | _ => false

/-- What nothing sent by the same call changes the answer of: artifacts, local
keys, spellings, and the owner's code. -/
def Op.isSettled : Op E → Bool
  | .resolveAddress _ | .readArtifact _ | .validationInput _ | .getAllFullyQualifiedNames
  | .connect _ _ | .deployerAddress | .inferProxyAdmin _ => true
  | _ => false

/-- The implementation that the engine answers with. -/
def implementationOf : Event (effects E) Failure → Option String
  | ⟨.engineStart _ _, .ok (some deployment)⟩ => some deployment.address
  | ⟨.engineSettle _ _ _, .ok deployment⟩ => some deployment.address
  | _ => none

/-- What a call finds. The index by which contracts are attached and deployed
is the bridge's own; the engine answers with what holds code. -/
structure Surroundings (E : Engine) where
  artifactIndex : String → Except Failure Unit
  answer : History (effects E) Failure → (op : Op E) → Except Failure op.Reply
  constant : ∀ h op, op.isSettled = true → answer h op = answer [] op
  attaches : ∀ h name address, answer h (.getContractAt name address) = artifactIndex name
  unindexed : ∀ h name args e, artifactIndex name = .error e →
    answer h (.deployContract name args) = .error e
  implementations : ∀ h op address, implementationOf ⟨op, answer h op⟩ = some address →
    isEvmAddress address = true

def indexed (index : String → Except Failure Unit) (name : String) : Bool :=
  match index name with
  | .ok _ => true
  | .error _ => false

namespace Surroundings

/-- What is sent: a contract of the index, or a transaction. -/
def commits (s : Surroundings E) : Op E → Bool
  | .deployContract name _ => indexed s.artifactIndex name
  | .transact _ _ _ => true
  | _ => false

def settled (s : Surroundings E) : Op E → Bool
  | .deployContract name _ => !indexed s.artifactIndex name
  | .getContractAt _ _ => true
  | op => op.isSettled

def start (s : Surroundings E) : Start (effects E) Failure where
  commits := s.commits
  settled := s.settled
  uncommitting op hop := by
    cases op with
    | deployContract name args => simpa [settled, commits] using hop
    | transact => cases hop
    | _ => rfl
  answer := s.answer
  constant h op hop := by
    cases op with
    | deployContract name args =>
      cases hname : s.artifactIndex name with
      | ok _ => simp [settled, indexed, hname] at hop
      | error e => rw [s.unindexed h name args e hname, s.unindexed [] name args e hname]
    | getContractAt name address => rw [s.attaches, s.attaches]
    | _ => exact s.constant h _ hop
  possible event := ∀ address, implementationOf event = some address → isEvmAddress address = true

end Surroundings

-- ---------------------------------------------------------------------------
-- Calls, and what each needs once it has spent
-- ---------------------------------------------------------------------------

/-- The six operations. -/
inductive Call (E : Engine)
  | deployProxy (contractName : String) (args : List Json) (opts : DeployOptions E)
  | upgradeProxy (proxy contractName : String) (opts : Options E)
  | deployBeacon (contractName : String) (opts : DeployOptions E)
  | upgradeBeacon (beacon contractName : String) (opts : Options E)
  | deployBeaconProxy (beacon contractName : String) (args : List Json) (opts : DeployOptions E)
  | prepareUpgrade (reference contractName : String) (opts : Options E)

/-- The call, by the address it returns. -/
def Call.script : Call E → HardhatTask E String
  | .deployProxy contractName args opts => Hardhat.deployProxy contractName args opts
  | .upgradeProxy proxy contractName opts => Hardhat.upgradeProxy proxy contractName opts
  | .deployBeacon contractName opts => Hardhat.deployBeacon contractName opts
  | .upgradeBeacon beacon contractName opts => Hardhat.upgradeBeacon beacon contractName opts
  | .deployBeaconProxy beacon contractName args opts =>
    Hardhat.deployBeaconProxy beacon contractName args opts
  | .prepareUpgrade reference contractName opts => do
    let deployment ← Hardhat.prepareUpgrade reference contractName opts
    return deployment.address

variable {s : Surroundings E}

/-- The contract as it is compiled, under the options. -/
def Surroundings.draft (s : Surroundings E) (contractName : String) (opts : Options E) :
    Except Failure (UpgradeableContract E) := do
  let artifact ← s.answer [] (.readArtifact contractName)
  let input ← s.answer [] (.validationInput (artifact.sourceName ++ ":" ++ artifact.contractName))
  match input with
  | some input => upgradeableContract artifact input opts
  | none => .error (.error "No build-info. Run `hardhat compile` first.")

def Surroundings.owner (s : Surroundings E) (opts : DeployOptions E) : Except Failure String :=
  match opts.initialOwner with
  | some owner => s.answer [] (.resolveAddress owner)
  | none => s.answer [] .deployerAddress

variable {α β : Type} {x : HardhatTask E α} {f : α → HardhatTask E β} {C : β → Prop} {D : α → Prop}
  {contractName : String}

abbrev Needs (s : Surroundings E) (x : HardhatTask E α) (C : α → Prop) : Prop := s.start.Needs x C

/-- The script never asks for anything that sends. -/
abbrev Quiet (x : HardhatTask E α) : Prop := x.Asks fun op => Op.spends op = false

theorem ask_quiet {op : Op E} (hop : op.spends = false) : Quiet (ask op) :=
  Script.Asks.perform hop

theorem upgradeableContractFor_quiet {opts : Options E} :
    Quiet (upgradeableContractFor contractName opts) := by
  unfold upgradeableContractFor
  refine (ask_quiet rfl).bind fun artifact => (ask_quiet rfl).bind fun input => ?_
  exact Script.Asks.ofExcept.bind fun _ => .ofExcept

theorem validateImplementation_quiet {opts : Options E} :
    Quiet (validateImplementation contractName opts) :=
  upgradeableContractFor_quiet.bind fun _ => Script.Asks.ofExcept.bind fun _ => trivial

theorem pluginInterfaceAt_quiet {interfaceName address : String} :
    Quiet (E := E) (pluginInterfaceAt interfaceName address) := by
  refine (ask_quiet rfl).bind fun names => ?_
  dsimp only
  split
  · exact ask_quiet rfl
  · trivial
  · trivial

theorem withOwner_quiet {opts : Options E} {address : String} : Quiet (withOwner opts address) := by
  unfold withOwner
  split
  · exact ask_quiet rfl
  · trivial

def latestImplementation (h : History (effects E) Failure) : String :=
  (h.findSome? implementationOf).getD ""

def freshDeployment : Deployed := ⟨"0x00000000000000000000000000000000000000a1", none, true⟩

/-- The word of a slot that holds the address. -/
def wordOf (address : String) : String :=
  .ofList ('0' :: 'x' :: List.replicate 24 '0' ++ address.toList.drop 2)

/-- Everything works, and the chain shows the latest implementation. -/
def helpful (h : History (effects E) Failure) : (op : Op E) → Except Failure op.Reply
  | .getManifest | .addProxyToManifest _ _ | .transact _ _ _ => .ok ()
  | .deployContract _ _ | .engineSettle _ _ _ => .ok freshDeployment
  | .getSlot _ _ => .ok (wordOf (latestImplementation h))
  | .implementation _ => .ok (latestImplementation h)
  | .getTransactionByHash _ => .ok false
  | _ => .error (.error "not asked for")

def Surroundings.help (s : Surroundings E) : s.start.Help where
  answer := helpful
  possible h op _ := by
    intro address haddress
    cases op with
    | engineSettle version layout callback =>
      obtain rfl := Option.some.inj haddress
      decide
    | _ => cases haddress

variable {h t : History (effects E) Failure} {K : α → History (effects E) Failure → Prop}
  {L : β → History (effects E) Failure → Prop}

/-- Helped along from here, the script fails only where nothing was sent. -/
abbrev Carries (s : Surroundings E) (x : HardhatTask E α)
    (K : α → History (effects E) Failure → Prop) (h : History (effects E) Failure) : Prop :=
  Start.Carries s.help x K h

theorem commits_of_spends {op : Op E} (hop : op.spends = false) : s.commits op = false := by
  cases op with
  | deployContract | transact => cases hop
  | _ => rfl

theorem Quiet.asks (hx : Quiet x) : x.Asks fun op => s.start.commits op = false :=
  hx.mono fun _ => commits_of_spends

theorem Quiet.carries (hx : Quiet x) (hneeds : Needs s x D) (hh : committed s.commits h = false) :
    Carries s x (fun a t => committed s.commits t = false ∧ D a) h :=
  (Start.Prepares.of_asks hx.asks hneeds).carries hh

-- ---------------------------------------------------------------------------
-- The implementation
-- ---------------------------------------------------------------------------

end

-- ---------------------------------------------------------------------------
-- A ProxyAdmin for an owner
-- ---------------------------------------------------------------------------

end TronUpgrades.Hardhat
