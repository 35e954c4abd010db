import TronUpgrades.Hardhat.Operations
import TronUpgrades.Tronbox.Production

/-!
# One implementation deployment for each operation

Both plugins retry the engine's whole call once, on an error that carries
`removed`, and hand it the same deploy callback again. The engine may raise
that error after its callback has deployed, and call back once more.
-/

namespace TronUpgrades

open Effects Record Tronbox

-- ---------------------------------------------------------------------------
-- TronBox
-- ---------------------------------------------------------------------------

namespace Tronbox

section
variable {E : Engine}

def HostOp.deploys : HostOp E → Bool
  | .hostNew _ _ => true
  | _ => false

def deployments (h : HostHistory E) : Nat := asked (S := hostEffects E) HostOp.deploys h

/-- Once a callback has sent its transaction, the engine does not call back. -/
def CallsBackUnsent (h : HostHistory E) : Event (hostEffects E) Failure → Prop
  | ⟨.engineStart _ _, .ok none⟩ => deployments h = 0
  | _ => True

def deploysBelow (n : Nat) (h : HostHistory E) (op : HostOp E) : Prop :=
  op.deploys → deployments h < n

variable {allowed : HostHistory E → Event (hostEffects E) Failure → Prop} {n : Nat}
  {h : HostHistory E}

theorem deployments_cons {op : HostOp E} {r : Except Failure op.Reply} (hop : op.deploys = false) :
    deployments (⟨op, r⟩ :: h) = deployments h :=
  asked_cons_of_neg hop

theorem deployments_le {α : Type} {x y : HostTask E α} {Q : Except Failure α → HostHistory E → Prop}
    (hx : wp (.recorded allowed) (deploysBelow n) x Q [])
    (hr : Script.Reaches (.recorded allowed) (x, []) (y, h)) : deployments h ≤ n := by
  unfold deployments
  exact hx.atMost (fun _ _ hG hop => hG hop) (Nat.zero_le n) hr

theorem hostCall_asks {op : HostOp E} (hop : op.deploys = false) :
    (hostCall op).Asks fun op => HostOp.deploys op = false :=
  Script.Asks.perform hop

theorem hostDeploy_wp {contract : ContractAbstraction E} {args : List Json}
    (h0 : deployments h = 0) :
    wp (.recorded allowed) (deploysBelow 1) (hostDeploy contract args)
      (fun _ h' => deployments h' ≤ 1) h := by
  have unsent : deployments h ≤ 1 := by omega
  unfold hostDeploy
  simp only [Script.bind_eq, Script.pure_eq]
  refine wp.ofExcept_bind (fun _ _ => ?_) fun _ _ => unsent
  refine wp.ofExcept_bind (fun _ _ => ?_) fun _ _ => unsent
  refine wp.ofExcept_bind (fun _ _ => ?_) fun _ _ => unsent
  have sent : ∀ r, deployments (⟨.hostNew contract args, r⟩ :: h) ≤ 1 := by
    intro r
    rw [deployments, asked_cons_of_pos rfl]
    exact Nat.succ_le_succ (Nat.le_of_eq h0)
  refine wp.ask (fun _ => by omega) (fun deployed _ => ?_) fun e _ => sent _
  refine wp.ofExcept_bind (fun writeBack _ => ?_) fun _ _ => sent _
  have writes : (do
      let () ← hostEntry.setAddress contract writeBack.address
      let () ← hostEntry.setTransactionHash contract writeBack.transactionHash
      return writeBack : HostTask E WriteBack).Asks fun op => HostOp.deploys op = false := by
    have entry : (hostEntry (E := E)).Asks fun op => HostOp.deploys op = false :=
      hostEntry_asks fun _ _ => rfl
    apply Script.Asks.bind (entry.setAddress contract _)
    intro _
    exact (entry.setTransactionHash contract _).bind fun _ => trivial
  refine wp_mono (fun _ h' hh => ?_) (unasked_moves.along writes _)
  have hle := sent (.ok deployed)
  unfold deployments at hle ⊢
  omega

variable {validated : ValidatedImplementation E} {resolved : ResolvedForProxyOps E}
  {contract : ContractAbstraction E} {args : List Json} {env : Environment}

theorem engineCall_wp (h1 : deployments h ≤ 1) :
    wp (.recorded CallsBackUnsent) (deploysBelow 1)
      (engineCall validated resolved WriteBack.deployment (hostDeploy contract args))
      (fun _ h' => deployments h' ≤ 1) h := by
  unfold engineCall
  simp only [Script.bind_eq, Script.pure_eq]
  refine wp.askAttempt nofun fun started hallowed => ?_
  have started_le : ∀ r, deployments (⟨.engineStart validated.version
      (decide (resolved.redeployImplementation = .always)), r⟩ :: h) ≤ 1 := by
    intro r
    rw [deployments_cons rfl]
    exact h1
  match started with
  | .error e => exact started_le _
  | .ok (some address) => exact started_le _
  | .ok none =>
    have unsent : deployments h = 0 := hallowed
    have called : wp (.recorded CallsBackUnsent) (deploysBelow 1)
        (if resolved.redeployImplementation = .never then
          .throw (.implementationNotPreviouslyDeployed validated.name)
        else hostDeploy contract args) (fun _ h' => deployments h' ≤ 1)
        (⟨.engineStart validated.version (decide (resolved.redeployImplementation = .always)),
          .ok none⟩ :: h) := by
      split
      · exact started_le _
      · apply hostDeploy_wp
        rw [deployments_cons rfl]
        exact unsent
    refine wp.bind (R := fun _ h' => deployments h' ≤ 1) (wp_attempt.mpr called) ?_
      fun _ _ hle => hle
    intro callback h' hle
    refine wp.askAttempt nofun fun settled _ => ?_
    rw [wp_pure, deployments_cons rfl]
    exact hle

theorem fetchOrDeployImplementation_wp (h0 : deployments h = 0) :
    wp (.recorded CallsBackUnsent) (deploysBelow 1)
      (fetchOrDeployImplementation env validated resolved WriteBack.deployment
        (hostDeploy contract args)) (fun _ h' => deployments h' ≤ 1) h := by
  unfold fetchOrDeployImplementation throughRecordLock
  simp only [Script.bind_eq, Script.pure_eq]
  refine wp.catching (R := fun _ h' => deployments h' ≤ 1) ?_ (fun _ _ hle => hle) ?_
  · refine wp.bind (engineCall_wp (Nat.le_one_iff_eq_zero_or_eq_one.mpr (.inl h0))) ?_
      fun _ _ hle => hle
    rintro ⟨first, deployed⟩ h' hle
    cases first with
    | ok address => exact hle
    | error e =>
      dsimp only
      split
      · exact hle
      · refine wp.bind (engineCall_wp hle) ?_ fun _ _ hle => hle
        rintro ⟨second, redeployed⟩ h'' hle
        exact wp.ofExcept_bind (fun _ _ => hle) fun _ _ => hle
  · intro e h' hle
    split <;> exact hle

/-- Under `never` the callback throws where it would deploy. -/
theorem engineCall_asks (hnever : resolved.redeployImplementation = .never) :
    (engineCall validated resolved WriteBack.deployment (hostDeploy contract args)).Asks
      fun op => HostOp.deploys op = false := by
  unfold engineCall
  simp only [Script.bind_eq, Script.pure_eq, if_pos hnever]
  apply Script.Asks.bind (hostCall_asks rfl).attempt
  intro started
  match started with
  | .error e => trivial
  | .ok (some address) => trivial
  | .ok none =>
    refine Script.Asks.bind (Script.Asks.attempt trivial) fun callback => ?_
    exact (hostCall_asks rfl).attempt.bind fun _ => trivial

theorem fetchOrDeployImplementation_asks (hnever : resolved.redeployImplementation = .never) :
    (fetchOrDeployImplementation env validated resolved WriteBack.deployment
      (hostDeploy contract args)).Asks fun op => HostOp.deploys op = false := by
  unfold fetchOrDeployImplementation throughRecordLock
  simp only [Script.bind_eq, Script.pure_eq]
  apply Script.Asks.catching
  · apply Script.Asks.bind (engineCall_asks hnever)
    rintro ⟨first, deployed⟩
    cases first with
    | ok address => trivial
    | error e =>
      dsimp only
      split
      · trivial
      · apply Script.Asks.bind (engineCall_asks hnever)
        rintro ⟨second, redeployed⟩
        exact Script.Asks.ofExcept.bind fun _ => trivial
  · intro e
    split <;> trivial

theorem fetchOrDeployImplementation_never (hnever : resolved.redeployImplementation = .never) :
    wp .free (deploysBelow 0)
      (fetchOrDeployImplementation env validated resolved WriteBack.deployment
        (hostDeploy contract args)) (fun _ h' => deployments h' = deployments h) h :=
  unasked_moves.along (fetchOrDeployImplementation_asks hnever) h

end

end Tronbox

-- ---------------------------------------------------------------------------
-- Hardhat
-- ---------------------------------------------------------------------------

namespace Hardhat

section
variable {E : Engine}

def Op.deploys : Op E → Bool
  | .deployContract _ _ => true
  | _ => false

def deployments (h : History (effects E) Failure) : Nat := asked (S := effects E) Op.deploys h

/-- Once a callback has sent its transaction, the engine does not call back. -/
def CallsBackUnsent (h : History (effects E) Failure) : Event (effects E) Failure → Prop
  | ⟨.engineStart _ _, .ok none⟩ => deployments h = 0
  | _ => True

def deploysBelow (n : Nat) (h : History (effects E) Failure) (op : Op E) : Prop :=
  op.deploys → deployments h < n

variable {allowed : History (effects E) Failure → Event (effects E) Failure → Prop} {n : Nat}
  {h : History (effects E) Failure} {contractName : String} {opts : Options E}
  {contract : UpgradeableContract E}

theorem deployments_cons {op : Op E} {r : Except Failure op.Reply} (hop : op.deploys = false) :
    deployments (⟨op, r⟩ :: h) = deployments h :=
  asked_cons_of_neg hop

theorem deployments_le {α : Type} {x y : HardhatTask E α}
    {Q : Except Failure α → History (effects E) Failure → Prop}
    (hx : wp (.recorded allowed) (deploysBelow n) x Q [])
    (hr : Script.Reaches (.recorded allowed) (x, []) (y, h)) : deployments h ≤ n := by
  unfold deployments
  exact hx.atMost (fun _ _ hG hop => hG hop) (Nat.zero_le n) hr

theorem ask_asks {op : Op E} (hop : op.deploys = false) :
    (ask op).Asks fun op => Op.deploys op = false :=
  Script.Asks.perform hop

theorem upgradeableContractFor_asks :
    (upgradeableContractFor contractName opts).Asks fun op => Op.deploys op = false := by
  refine Script.Asks.bind (ask_asks rfl) fun artifact => ?_
  refine Script.Asks.bind (ask_asks rfl) fun input => ?_
  exact Script.Asks.ofExcept.bind fun _ => Script.Asks.ofExcept

theorem validateImplementation_asks :
    (validateImplementation contractName opts).Asks fun op => Op.deploys op = false := by
  refine Script.Asks.bind upgradeableContractFor_asks fun data => ?_
  exact Script.Asks.ofExcept.bind fun _ => trivial

theorem engineCall_wp (h1 : deployments h ≤ 1) :
    wp (.recorded CallsBackUnsent) (deploysBelow 1) (engineCall contractName opts contract)
      (fun _ h' => deployments h' ≤ 1) h := by
  have started_le : ∀ r, deployments
      (⟨.engineStart contract.version (decide (redeployMode opts = .always)), r⟩ :: h) ≤ 1 := by
    intro r
    rw [deployments_cons rfl]
    exact h1
  unfold engineCall
  simp only [Script.bind_eq, Script.pure_eq]
  refine wp.ask nofun (fun started hallowed => ?_) fun e _ => started_le _
  cases started with
  | some deployment => exact started_le _
  | none =>
    have unsent : deployments h = 0 := hallowed
    have called : wp (.recorded CallsBackUnsent) (deploysBelow 1) (deployUnlessNever contractName opts)
        (fun _ h' => deployments h' ≤ 1)
        (⟨.engineStart contract.version (decide (redeployMode opts = .always)), .ok none⟩ :: h) := by
      unfold deployUnlessNever
      split
      · exact started_le _
      · have started : deployments (⟨.engineStart contract.version
            (decide (redeployMode opts = .always)), .ok none⟩ :: h) = 0 := by
          rw [deployments_cons rfl, unsent]
        apply wp_perform.mpr
        refine ⟨fun _ => by omega, ?_⟩
        rintro r t ⟨-, rfl⟩
        rw [deployments, asked_cons_of_pos rfl]
        exact Nat.succ_le_succ (Nat.le_of_eq started)
    refine wp.bind (R := fun _ h' => deployments h' ≤ 1) (wp_attempt.mpr called) ?_
      fun _ _ hle => hle
    intro callback h' hle
    apply wp_perform.mpr
    refine ⟨nofun, ?_⟩
    rintro r t ⟨-, rfl⟩
    rw [deployments_cons rfl]
    exact hle

theorem fetchOrDeploy_wp (h0 : deployments h = 0) :
    wp (.recorded CallsBackUnsent) (deploysBelow 1) (fetchOrDeploy contractName opts contract)
      (fun _ h' => deployments h' ≤ 1) h := by
  refine wp.catching (engineCall_wp (by omega)) (fun _ _ hle => hle) ?_
  intro e h' hle
  split
  · exact hle
  · exact engineCall_wp hle

/-- The fetch, with what the operation asks for before and after it. -/
theorem resolveImplementation_wp {validated : Option (UpgradeableContract E)}
    {Q : History (effects E) Failure → Prop}
    (quiet : ∀ a b, deployments b = deployments a → Q a → Q b)
    (fetch : ∀ h' contract, deployments h' = deployments h → wp (.recorded allowed)
      (deploysBelow n) (fetchOrDeploy contractName opts contract) (fun _ t => Q t) h')
    (start : Q h) :
    wp (.recorded allowed) (deploysBelow n) (resolveImplementation contractName opts validated)
      (fun _ t => Q t) h := by
  have stay : ∀ t, deployments t = deployments h → Q t := fun t ht => quiet h t ht start
  unfold resolveImplementation
  simp only [Script.bind_eq, Script.pure_eq]
  refine wp.ofExcept_bind (fun _ _ => ?_) fun _ _ => start
  refine wp.ofExcept_bind (fun _ _ => ?_) fun _ _ => start
  refine wp.ask nofun (fun _ _ => ?_) fun _ _ => stay _ (deployments_cons rfl)
  refine wp.bind (unasked_moves.along ?_ _) ?_ ?_
  · cases validated with
    | some contract => trivial
    | none => exact validateImplementation_asks
  · intro contract h' hsame
    have hsame : deployments h' = deployments h := hsame.trans (deployments_cons rfl)
    refine wp.bind (fetch h' contract hsame) (fun deployment t hQ => ?_) fun _ _ hQ => hQ
    refine wp_mono (fun _ u hu => quiet t u hu hQ) (unasked_moves.along ?_ t)
    -- the transaction is looked up only where it is asked for
    split
    · split
      · exact (ask_asks rfl).bind fun _ => trivial
      · trivial
    · trivial
  · exact fun _ t ht => stay t (ht.trans (deployments_cons rfl))

/-- Under `never` the callback throws where it would deploy. -/
theorem engineCall_asks (hnever : redeployMode opts = .never) :
    (engineCall contractName opts contract).Asks fun op => Op.deploys op = false := by
  unfold engineCall deployUnlessNever
  simp only [Script.bind_eq, Script.pure_eq, if_pos hnever]
  refine Script.Asks.bind (ask_asks rfl) fun started => ?_
  cases started with
  | some deployment => trivial
  | none => exact ask_asks rfl

theorem fetchOrDeploy_asks (hnever : redeployMode opts = .never) :
    (fetchOrDeploy contractName opts contract).Asks fun op => Op.deploys op = false := by
  refine Script.Asks.catching (engineCall_asks hnever) fun e => ?_
  split
  · trivial
  · exact engineCall_asks hnever

variable {validated : Option (UpgradeableContract E)}

theorem resolveImplementation_once (h0 : deployments h = 0) :
    wp (.recorded CallsBackUnsent) (deploysBelow 1)
      (resolveImplementation contractName opts validated) (fun _ h' => deployments h' ≤ 1) h := by
  apply resolveImplementation_wp (Q := fun t => deployments t ≤ 1)
  · intro a b hab ha
    rwa [hab]
  · exact fun h' contract hh => fetchOrDeploy_wp (hh.trans h0)
  · omega

theorem resolveImplementation_never (hnever : redeployMode opts = .never) :
    wp .free (deploysBelow 0) (resolveImplementation contractName opts validated)
      (fun _ h' => deployments h' = deployments h) h := by
  apply resolveImplementation_wp (Q := fun t => deployments t = deployments h)
  · intro a b hab ha
    rwa [hab]
  · intro h' contract hh
    refine wp_mono (fun _ t ht => ?_) (unasked_moves.along (fetchOrDeploy_asks hnever) h')
    exact ht.trans hh
  · rfl

end

end Hardhat

-- ---------------------------------------------------------------------------
-- Both
-- ---------------------------------------------------------------------------

/-- One implementation fetch, in either plugin, from its first operation. -/
structure DeployedOnce (E : Engine) : Prop where
  tronbox : ∀ env validated resolved contract args x h,
    Script.Reaches (.recorded Tronbox.CallsBackUnsent)
      (Tronbox.fetchOrDeployImplementation (E := E) env validated resolved WriteBack.deployment
        (Tronbox.hostDeploy contract args), []) (x, h) → Tronbox.deployments h ≤ 1
  hardhat : ∀ contractName opts validated x h,
    Script.Reaches (.recorded Hardhat.CallsBackUnsent)
      (Hardhat.resolveImplementation (E := E) contractName opts validated, []) (x, h) →
      Hardhat.deployments h ≤ 1
  tronboxNever : ∀ env validated resolved contract args x h,
    resolved.redeployImplementation = .never →
    Script.Reaches .free
      (Tronbox.fetchOrDeployImplementation (E := E) env validated resolved WriteBack.deployment
        (Tronbox.hostDeploy contract args), []) (x, h) → Tronbox.deployments h = 0
  hardhatNever : ∀ contractName opts validated x h, Hardhat.redeployMode opts = .never →
    Script.Reaches .free
      (Hardhat.resolveImplementation (E := E) contractName opts validated, []) (x, h) →
      Hardhat.deployments h = 0

/-- Where the engine does not call back once a callback has sent, one
implementation deployment at most; under `never` none, whatever it does. -/
theorem deployedOnce (E : Engine) : DeployedOnce E where
  tronbox _ _ _ _ _ _ _ hr :=
    Tronbox.deployments_le (Tronbox.fetchOrDeployImplementation_wp rfl) hr
  hardhat _ _ _ _ _ hr := Hardhat.deployments_le (Hardhat.resolveImplementation_once rfl) hr
  tronboxNever _ _ _ _ _ _ _ hnever hr :=
    Nat.le_zero.mp (Tronbox.deployments_le
      (Tronbox.fetchOrDeployImplementation_never hnever) hr)
  hardhatNever _ _ _ _ _ hnever hr :=
    Nat.le_zero.mp (Hardhat.deployments_le (Hardhat.resolveImplementation_never hnever) hr)

/-- The mined deployment left no code: the engine removes the entry it has just
written and rejects; asked again, it finds nothing and calls back. -/
def removingEngine (h : HostHistory sampleEngine) :
    (op : HostOp sampleEngine) → Except Failure op.Reply
  | .engineStart _ _ => .ok none
  | .hostNew _ _ =>
    .ok ⟨some "0x0000000000000000000000000000000000000041", some "0xd1"⟩
  | .entry (.setAddress _) _ | .entry (.setTransactionHash _) _ => .ok ()
  | .engineSettle _ _ _ =>
    if Tronbox.deployments h < 2 then
      .error (.foreign { message := "No contract at address", code := none, removed := true })
    else .ok "0x0000000000000000000000000000000000000041"
  | _ => .error (.error "not asked for")

theorem redeployed_after_removal : ∃ x h,
    Script.Reaches .free
      (Tronbox.fetchOrDeployImplementation sampleEnvironment sampleValidated sampleOptions
        WriteBack.deployment (Tronbox.hostDeploy sampleContract []), []) (x, h) ∧
      Tronbox.deployments h = 2 :=
  ⟨_, _, reaches_answering removingEngine (fun _ _ => trivial) _ _, rfl⟩

end TronUpgrades
