import TronUpgrades.Address.Identity
import TronUpgrades.Effects.Testimony
import TronUpgrades.Tronbox.DeployOrder
import TronUpgrades.Tronbox.Operation

/-!
# Nothing recorded is made up

Any number of migrations, each any program of the operations, against one
chain and one record. A proxy gets into the record through `deployProxy`,
`deployBeaconProxy`, `upgradeProxy` and `forceImport` alone, and only on what
the chain answered in that very run: its creation confirmed, or its slots
shown. So whatever the interleaving, each recorded proxy is backed by the
chain, under a kind that its artifact, its slots or the engine answered for.
-/

namespace TronUpgrades.Tronbox

open Effects Address

section
variable {E : Engine}

-- ---------------------------------------------------------------------------
-- Who writes what
-- ---------------------------------------------------------------------------

def ToolkitOp.records : ToolkitOp E → Bool
  | .recordProxy _ _ => true
  | _ => false

/-- Neither a transaction nor a write to the record. -/
def ToolkitOp.isPlain (op : ToolkitOp E) : Bool := !op.sends && !op.records

section
variable {P : ToolkitOp E → Prop} (plain : ∀ op : ToolkitOp E, op.isPlain = true → P op)
  {codec : AddressCodec} {wildcard : Bool} {resolved : ResolvedForProxyOps E}
  {contract : ContractAbstraction E} {validated : ValidatedImplementation E}
include plain

theorem toolkitCall_asks {op : ToolkitOp E} (hop : op.isPlain = true) : (toolkitCall op).Asks P :=
  Script.Asks.perform (plain op hop)

theorem anyEntry_plain : (anyEntry (E := E)).Asks P := by
  constructor <;> intros <;> exact toolkitCall_asks plain rfl

omit plain in
theorem callBack_asks {deploy : Task (toolkitEffects E) α} (hdeploy : deploy.Asks P) (turns : Nat)
    (last : Option α) : (callBack deploy turns last).Asks P := by
  induction turns generalizing last with
  | zero => trivial
  | succ turns ih => exact hdeploy.attempt.bind fun _ => ih _

theorem fetch_asks {deploy : Task (toolkitEffects E) α} {toEngine : α → EngineDeployment}
    (hdeploy : deploy.Asks P) :
    ((anyToolkit codec wildcard).fetchOrDeployImplementation validated resolved toEngine
      deploy).Asks P :=
  (toolkitCall_asks plain rfl).bind fun _ => (callBack_asks hdeploy _ _).bind fun _ =>
    (toolkitCall_asks plain rfl).bind fun _ => trivial

theorem fetchOrDeployThrough_asks :
    (fetchOrDeployThrough ⟨anyToolkit codec wildcard, resolved⟩ contract validated).Asks P :=
  fetch_asks plain (toolkitCall_asks plain rfl)

theorem callThroughFacade_asks {request : FacadeRequest} (hsend : P (.send request)) :
    (callThroughFacade (anyFacadeHost (E := E)) request).Asks P := by
  unfold callThroughFacade
  refine (toolkitCall_asks plain rfl).bind fun facade => ?_
  split
  · trivial
  · refine (toolkitCall_asks plain rfl).bind fun attached => ?_
    split
    · trivial
    · refine Script.Asks.bind (Script.Asks.perform hsend) fun reply => ?_
      cases callTransactionHash reply <;> trivial

theorem restoring_asks {step : Task (toolkitEffects E) α} (hstep : step.Asks P) :
    (restoringWriteBackOnFailure anyEntry contract step).Asks P :=
  (readWriteBack_asks (anyEntry_plain plain) contract).bind fun _ => hstep.catching fun _ =>
    (restoreWriteBack_asks (anyEntry_plain plain) contract _).bind fun _ => trivial

theorem queue_asks {step : Task (toolkitEffects E) α} (hstep : step.Asks P) :
    ((anyToolkit codec wildcard).queue step).Asks P :=
  (toolkitCall_asks plain rfl).bind fun _ => hstep

theorem confirmUpgrade_asks (codec : AddressCodec) (wildcard : Bool) {hash : String} :
    (confirmUpgrade (anyToolkit (E := E) codec wildcard) hash).Asks P := by
  refine (toolkitCall_asks plain rfl).bind fun verdict => ?_
  cases verdict <;> trivial

theorem requireBeacon_asks {beacon : String} :
    (requireBeacon (anyToolkit (E := E) codec wildcard) beacon).Asks P := by
  refine (toolkitCall_asks plain rfl).bind fun read => ?_
  cases read <;> trivial

theorem confirmOrRefuse_asks {hash : String} {deploy : Option (PendingDeploy E)} :
    (confirmOrRefuse (anyToolkit codec wildcard) hash deploy).Asks P := by
  refine (toolkitCall_asks plain rfl).bind fun verdict => ?_
  cases verdict with
  | confirmedSuccessful hash => trivial
  | indeterminate verdict => trivial
  | reverted verdict =>
    cases deploy with
    | none => trivial
    | some deploy =>
      exact (restoreWriteBack_asks (anyEntry_plain plain) _ _).bind fun _ => trivial

-- ---------------------------------------------------------------------------
-- Operations that record no proxy
-- ---------------------------------------------------------------------------

theorem runUpgradeBeacon_asks {beaconAddress : String} (sends : ∀ request, P (.send request)) :
    (runUpgradeBeacon (E := E) ⟨anyToolkit codec wildcard, resolved⟩ beaconAddress
      contract).Asks P := by
  refine Script.Asks.ofExcept.bind fun beacon => (requireBeacon_asks plain).bind fun _ =>
    Script.Asks.ofExcept.bind fun name => (toolkitCall_asks plain rfl).bind fun validated =>
    (toolkitCall_asks plain rfl).bind fun _ => (toolkitCall_asks plain rfl).bind fun _ =>
    (toolkitCall_asks plain rfl).bind fun _ => Script.Asks.bind ?_ fun _ =>
    (toolkitCall_asks plain rfl).bind fun _ => Script.Asks.ofExcept.bind fun _ =>
    Script.Asks.ofExcept.bind fun _ => trivial
  refine queue_asks plain (restoring_asks plain ?_)
  refine (fetchOrDeployThrough_asks plain).bind fun _ =>
    (callThroughFacade_asks plain (sends _)).bind fun _ => ?_
  exact (confirmOrRefuse_asks plain).bind fun _ => (requireBeacon_asks plain).bind fun _ =>
    Script.Asks.ofExcept.bind fun _ => Script.Asks.ofExcept.bind fun _ => trivial

theorem deployImplementationThroughQueue_asks {operation : String} :
    (deployImplementationThroughQueue (E := E) ⟨anyToolkit codec wildcard, resolved⟩ contract
      operation).Asks P := by
  refine Script.Asks.ofExcept.bind fun name => (toolkitCall_asks plain rfl).bind fun _ =>
    (toolkitCall_asks plain rfl).bind fun _ => (queue_asks plain ?_).bind fun _ =>
    Script.Asks.ofExcept.bind fun _ => trivial
  refine (readWriteBack_asks (anyEntry_plain plain) contract).bind fun prior =>
    (fetchOrDeployThrough_asks plain).bind fun fetched => Script.Asks.bind ?_ fun _ => trivial
  unfold settleImplementation
  cases fetched.deployed with
  | none => exact readWriteBackHash_asks (anyEntry_plain plain) contract
  | some fresh =>
    refine (toolkitCall_asks plain rfl).bind fun verdict => ?_
    cases verdict with
    | confirmedSuccessful hash => trivial
    | indeterminate verdict => exact Script.Asks.ofExcept.bind fun _ => trivial
    | reverted verdict =>
      exact (restoreWriteBack_asks (anyEntry_plain plain) contract _).bind fun _ => trivial

theorem runPrepareUpgrade_asks {proxy : String} :
    (runPrepareUpgrade (E := E) ⟨anyToolkit codec wildcard, resolved⟩ proxy contract).Asks P :=
  Script.Asks.ofExcept.bind fun _ => Script.Asks.ofExcept.bind fun _ =>
    (toolkitCall_asks plain rfl).bind fun _ => Script.Asks.ofExcept.bind fun _ =>
    (toolkitCall_asks plain rfl).bind fun _ => Script.Asks.ofExcept.bind fun _ =>
    Script.Asks.ofExcept.bind fun _ => (toolkitCall_asks plain rfl).bind fun _ =>
    (toolkitCall_asks plain rfl).bind fun _ => (toolkitCall_asks plain rfl).bind fun _ =>
    (toolkitCall_asks plain rfl).bind fun _ => deployImplementationThroughQueue_asks plain

theorem transferStep_asks {proxy admin newOwner : String} (sends : ∀ request, P (.send request)) :
    (transferStep (anyToolkit (E := E) codec wildcard) proxy admin newOwner).Asks P :=
  (callThroughFacade_asks plain (sends _)).bind fun _ =>
    (confirmUpgrade_asks plain codec wildcard).bind fun _ =>
    (toolkitCall_asks plain rfl).bind fun _ => Script.Asks.ofExcept.bind fun _ => trivial

theorem runTransferProxyAdminOwnership_asks (resolved : ResolvedForProxyOps E)
    {proxy newOwner : String} (sends : ∀ request, P (.send request)) :
    (runTransferProxyAdminOwnership (E := E) ⟨anyToolkit codec wildcard, resolved⟩ proxy
      newOwner).Asks P := by
  refine Script.Asks.ofExcept.bind fun proxyAddress => Script.Asks.ofExcept.bind fun target =>
    (toolkitCall_asks plain rfl).bind fun _ => Script.Asks.ofExcept.bind fun _ =>
    Script.Asks.ofExcept.bind fun _ => (toolkitCall_asks plain rfl).bind fun owner => ?_
  split
  · trivial
  · exact (toolkitCall_asks plain rfl).bind fun _ => Script.Asks.ofExcept.bind fun _ =>
      (toolkitCall_asks plain rfl).bind fun _ =>
      (queue_asks plain (transferStep_asks plain sends)).bind fun _ =>
      Script.Asks.ofExcept.bind fun _ => trivial

end

-- ---------------------------------------------------------------------------
-- What a write rests on
-- ---------------------------------------------------------------------------

section
variable {L : String → ProxyKind → Prop} {codec : AddressCodec} {wildcard : Bool}
  {resolved : ResolvedForProxyOps E} {contract : ContractAbstraction E}

/-- A write to the record is one the licence covers. -/
def Licensed (L : String → ProxyKind → Prop) (op : ToolkitOp E) : Prop :=
  ∀ address kind, op = .recordProxy address kind → L address kind

theorem Licensed.of_records_eq_false {op : ToolkitOp E} (hop : op.records = false) :
    Licensed L op := by
  rintro address kind rfl
  cases hop

theorem Licensed.plain (op : ToolkitOp E) (hop : op.isPlain = true) : Licensed L op := by
  rintro address kind rfl
  cases hop

theorem Licensed.sends (request : FacadeRequest) : Licensed (E := E) L (.send request) :=
  .of_records_eq_false rfl

/-- The package's own artifact that a proxy of a kind is created from. -/
def proxyArtifactOf : ProxyKind → String
  | .transparent => "TransparentUpgradeableProxy"
  | .uups => "TRC1967Proxy"
  | .beacon => "BeaconProxy"

/-- What a run has been answered that makes an address a proxy of a kind. -/
inductive Evidence (codec : AddressCodec) (h : ToolkitHistory E) (address : String) :
    ProxyKind → Prop
  | created {kind : ProxyKind} {abstraction : ContractAbstraction E} {args : List Json}
      {reply : WriteBack} {hash : String}
      (artifact : Answered h (.proxyArtifact (proxyArtifactOf kind)) abstraction)
      (deployed : Answered h (.hostDeploy abstraction args) reply)
      (spelled : canonicalizeAddress codec reply.address = .ok address)
      (confirmed : Answered h (.confirm reply.transactionHash) (.confirmedSuccessful hash)) :
      Evidence codec h address kind
  | adopted {implementation : String} {admin : Option String}
      (slots : Answered h (.proxySlots address) (.code (some implementation) admin none)) :
      Evidence codec h address (if admin.isNone then .uups else .transparent)
  | upgraded {kind : ProxyKind} {implementation : String} {admin : Option String}
      {validated : ValidatedImplementation E} {resolved : ResolvedForProxyOps E}
      (slots : Answered h (.proxySlots address) (.code (some implementation) admin none))
      (judged : Answered h (.processProxyKind address validated resolved) kind)
      (held : kind = .transparent → admin.isSome = true) : Evidence codec h address kind

theorem Evidence.later {address : String} {kind : ProxyKind} {h h' : ToolkitHistory E}
    (e : Evidence codec h address kind) (hh : ∀ event ∈ h, event ∈ h') :
    Evidence codec h' address kind := by
  cases e with
  | created artifact deployed spelled confirmed =>
    exact .created (hh _ artifact) (hh _ deployed) spelled (hh _ confirmed)
  | adopted slots => exact .adopted (hh _ slots)
  | upgraded slots judged held => exact .upgraded (hh _ slots) (hh _ judged) held

/-- Every write to the record rests on what the run was answered. -/
def evidenced (codec : AddressCodec) (h : ToolkitHistory E) (op : ToolkitOp E) : Prop :=
  Licensed (Evidence codec h) op

/-- What there is evidence for, a run may record from then on. -/
theorem evidenced_of_licensed {x : Task (toolkitEffects E) α} {h : ToolkitHistory E}
    (e : ∀ address kind, L address kind → Evidence codec h address kind)
    (hx : x.Asks (Licensed L)) : wp .free (evidenced codec) x (fun _ _ => True) h := by
  induction x generalizing h with
  | pure a => trivial
  | throw e => trivial
  | call op next ih =>
    refine ⟨fun address kind hrecords => e address kind (hx.1 address kind hrecords), ?_⟩
    rintro r h' ⟨-, rfl⟩
    refine ih r (fun address kind hlicence => ?_) (hx.2 r)
    exact (e address kind hlicence).later fun _ => List.mem_cons_of_mem _

theorem evidenced_of_unrecorded {x : Task (toolkitEffects E) α} {h : ToolkitHistory E}
    (hx : x.Asks (Licensed fun _ _ => False)) :
    wp .free (evidenced codec) x (fun _ _ => True) h :=
  evidenced_of_licensed (fun _ _ hno => hno.elim) hx

theorem unrecorded_evidenced {op : ToolkitOp E} {h : ToolkitHistory E}
    (hop : Licensed (fun _ _ => False) op) : evidenced codec h op :=
  fun address kind hrecords => (hop address kind hrecords).elim

theorem runDeployProxy_evidenced {args : List Json} :
    wp .free (evidenced codec)
      (runDeployProxy ⟨anyToolkit codec wildcard, resolved⟩ contract args)
      (fun _ _ => True) [] := by
  refine wp_mono (fun _ _ _ => trivial) (wp_guard_mono ?_ runDeployProxy_commits)
  rintro h op hcommits address kind rfl
  obtain ⟨plan, hcleared, ⟨-, hop⟩ | ⟨implementation, ⟨-, hop⟩ | ⟨before, reply, _, live, hop⟩⟩⟩ :=
    hcommits rfl
  · rcases hop with hop | hop <;> cases hop
  · cases hop
  cases hop
  obtain ⟨hash, hconfirmed⟩ := live.created.confirmed
  have hartifact := hcleared.artifact
  have hname : proxyArtifactOf plan.kind =
      if plan.kind = .transparent then "TransparentUpgradeableProxy" else "TRC1967Proxy" := by
    cases hkind : plan.kind with
    | transparent => rfl
    | uups => rfl
    | beacon => exact absurd hkind hcleared.notBeacon
  rw [← hname] at hartifact
  exact .created hartifact (live.created.last.1.mem List.mem_cons_self) live.created.address
    hconfirmed.answered

theorem runDeployBeaconProxy_evidenced {beaconAddress : String} {args : List Json} :
    wp .free (evidenced codec)
      (runDeployBeaconProxy ⟨anyToolkit codec wildcard, resolved⟩ beaconAddress contract args)
      (fun _ _ => True) [] := by
  refine wp_mono (fun _ _ _ => trivial) (wp_guard_mono ?_ runDeployBeaconProxy_commits)
  rintro h op hcommits address kind rfl
  obtain ⟨beacon, initData, abstraction, hcleared, ⟨-, hop⟩ |
    ⟨before, reply, _, -, hcreated, hop⟩⟩ := hcommits rfl
  · cases hop
  cases hop
  obtain ⟨hash, hconfirmed⟩ := hcreated.confirmed
  exact .created hcleared.artifact (hcreated.last.1.mem List.mem_cons_self) hcreated.address
    hconfirmed.answered

theorem runDeployBeacon_evidenced :
    wp .free (evidenced codec) (runDeployBeacon ⟨anyToolkit codec wildcard, resolved⟩ contract)
      (fun _ _ => True) [] := by
  refine wp_mono (fun _ _ _ => trivial) (wp_guard_mono ?_ runDeployBeacon_commits)
  rintro h op hcommits address kind rfl
  obtain ⟨_, _, _, -, ⟨-, hop⟩ | ⟨_, -, hop⟩⟩ := hcommits rfl
  · rcases hop with hop | hop <;> cases hop
  · cases hop

theorem planProxyUpgrade_licensed {proxy : String} :
    (planProxyUpgrade (E := E) ⟨anyToolkit codec wildcard, resolved⟩ proxy contract).Asks
      (Licensed L) :=
  Script.Asks.ofExcept.bind fun _ => Script.Asks.ofExcept.bind fun _ =>
    (toolkitCall_asks Licensed.plain rfl).bind fun _ => Script.Asks.ofExcept.bind fun _ =>
    (toolkitCall_asks Licensed.plain rfl).bind fun _ => (toolkitCall_asks Licensed.plain rfl).bind fun _ =>
    Script.Asks.ofExcept.bind fun _ => (toolkitCall_asks Licensed.plain rfl).bind fun _ =>
    (toolkitCall_asks Licensed.plain rfl).bind fun _ => (toolkitCall_asks Licensed.plain rfl).bind fun _ =>
    Script.Asks.ofExcept.bind fun _ => Script.Asks.ofExcept.bind fun _ =>
    (toolkitCall_asks Licensed.plain rfl).bind fun _ => Script.Asks.ofExcept.bind fun _ => trivial

theorem upgradeProxyStep_licensed {plan : ProxyUpgradePlan E}
    (hlicence : L plan.proxyAddress plan.kind) :
    (upgradeProxyStep ⟨anyToolkit codec wildcard, resolved⟩ plan).Asks (Licensed L) := by
  refine (fetchOrDeployThrough_asks Licensed.plain).bind fun fetched => Script.Asks.bind ?_ fun writeBack => ?_
  · exact (callThroughFacade_asks Licensed.plain (Licensed.sends _)).bind fun _ => trivial
  refine (confirmUpgrade_asks Licensed.plain codec wildcard).bind fun _ => (toolkitCall_asks Licensed.plain rfl).bind fun _ =>
    Script.Asks.ofExcept.bind fun _ => Script.Asks.ofExcept.bind fun _ =>
    (toolkitCall_asks Licensed.plain rfl).bind fun _ => Script.Asks.bind ?_ fun _ => trivial
  refine Script.Asks.when (Script.Asks.catching (Script.Asks.perform ?_) fun _ => trivial)
  rintro address kind ⟨⟩
  exact hlicence

/-- The slots of an upgraded proxy were read, and its kind judged, before. -/
theorem ProxyUpgradeCleared.evidence {proxy : String} {plan : ProxyUpgradePlan E}
    {h : ToolkitHistory E} (c : ProxyUpgradeCleared codec resolved proxy contract plan h) :
    Evidence codec h plan.proxyAddress plan.kind := by
  obtain ⟨implementation, admin, -, hslots, -, -, hadmin⟩ := c.compared
  refine .upgraded hslots c.kind fun htransparent => ?_
  cases admin with
  | some admin => rfl
  | none => simp [upgradeAdmin, htransparent] at hadmin

theorem runUpgradeProxy_evidenced {proxy : String} :
    wp .free (evidenced codec)
      (runUpgradeProxy (E := E) ⟨anyToolkit codec wildcard, resolved⟩ proxy contract)
      (fun _ _ => True) [] := by
  unfold runUpgradeProxy
  simp only [Script.bind_eq, Script.pure_eq]
  have hplan : wp .free (evidenced codec)
      (planProxyUpgrade ⟨anyToolkit codec wildcard, resolved⟩ proxy contract)
      (fun o h => ∀ plan, o = .ok plan →
        ProxyUpgradeCleared codec resolved proxy contract plan h) [] :=
    wp_mono (fun _ _ hQ => hQ.2)
      (wp.of_asks (planProxyUpgrade_wp (P := fun _ _ => True)) planProxyUpgrade_licensed
        fun _ _ => unrecorded_evidenced)
  refine wp.bind hplan ?_ fun _ _ _ => trivial
  intro plan h hcleared
  refine evidenced_of_licensed (L := fun address kind =>
    address = plan.proxyAddress ∧ kind = plan.kind) ?_ (Script.Asks.bind ?_ ?_)
  · rintro _ _ ⟨rfl, rfl⟩
    exact (hcleared plan rfl).evidence
  · exact queue_asks Licensed.plain (restoring_asks Licensed.plain (upgradeProxyStep_licensed ⟨rfl, rfl⟩))
  · rintro ⟨writeBack, implementation⟩
    refine Script.Asks.bind (Script.Asks.when (toolkitCall_asks Licensed.plain rfl)) fun _ => ?_
    exact (toolkitCall_asks Licensed.plain rfl).bind fun _ => Script.Asks.ofExcept.bind fun _ =>
      Script.Asks.ofExcept.bind fun _ => trivial

/-- What `classify` finds to be a proxy of its own record, the slots show. -/
theorem classify_evidence {address : String} {slots : ProxySlotsRead} {h : ToolkitHistory E}
    (hslots : Answered h (.proxySlots address) slots) :
    wp .free (evidenced codec) (classify (anyToolkit (E := E) codec wildcard) address slots)
      (fun o h' => h <:+ h' ∧ ∀ found implementation, o = .ok (found, implementation) →
        ∀ kind, found.recordedAs = some kind → Evidence codec h address kind) h := by
  have stay : h <:+ h := List.suffix_rfl
  have failed : ∀ (e : Failure) h', h <:+ h' → h <:+ h' ∧ ∀ found implementation,
      (.error e : Except Failure (AdoptedKind × String)) = .ok (found, implementation) →
        ∀ kind, found.recordedAs = some kind → Evidence codec h address kind :=
    fun e h' hh => ⟨hh, fun _ _ ho => by cases ho⟩
  have unread : ∀ op : ToolkitOp E, op.records = false → evidenced codec h op :=
    fun op hop => unrecorded_evidenced (.of_records_eq_false hop)
  have pass : ∀ {h'} {found : AdoptedKind} {implementation : String}, h <:+ h' →
      found.recordedAs = none → h <:+ h' ∧ ∀ found' implementation',
        (Except.ok (found, implementation) : Except Failure _) = .ok (found', implementation') →
        ∀ kind, found'.recordedAs = some kind → Evidence codec h address kind := by
    rintro h' found implementation hh hnone
    refine ⟨hh, ?_⟩
    rintro _ _ ⟨⟩ kind hkind
    rw [hnone] at hkind
    cases hkind
  cases slots with
  | noCode => exact failed _ _ stay
  | code implementation admin beacon =>
    cases beacon with
    | some beacon =>
      refine wp.askFree (unread _ rfl) (fun read => ?_) fun e => failed e _ (List.suffix_cons ..)
      cases read with
      | implementation implementation => exact pass (List.suffix_cons ..) rfl
      | noCodeAtBeacon => exact failed _ _ (List.suffix_cons ..)
      | notABeacon => exact failed _ _ (List.suffix_cons ..)
    | none =>
      cases implementation with
      | none =>
        refine wp.askFree (unread _ rfl) (fun read => ?_) fun e => failed e _ (List.suffix_cons ..)
        cases read <;> exact pass (List.suffix_cons ..) rfl
      | some implementation =>
        refine ⟨stay, ?_⟩
        rintro _ _ ⟨⟩ kind hkind
        cases admin <;> cases hkind <;> exact .adopted hslots

theorem runForceImport_evidenced {addressInput : String} :
    wp .free (evidenced codec)
      (runForceImport (E := E) ⟨anyToolkit codec wildcard, resolved⟩ addressInput contract)
      (fun _ _ => True) [] := by
  unfold runForceImport
  simp only [Script.bind_eq, Script.pure_eq]
  refine wp.ofExcept_bind (fun address _ => ?_) fun _ _ => trivial
  refine wp.askFree (unrecorded_evidenced (.of_records_eq_false rfl)) (fun slots => ?_)
    fun _ => trivial
  refine wp.bind (classify_evidence .head) ?_ fun _ _ _ => trivial
  rintro ⟨found, implementation⟩ h ⟨hh, hevidence⟩
  have hevidence := hevidence found implementation rfl
  refine evidenced_of_licensed (L := fun address' kind =>
    address' = address ∧ found.recordedAs = some kind) ?_ ?_
  · rintro _ kind ⟨rfl, hkind⟩
    exact (hevidence kind hkind).later fun _ => hh.mem
  refine Script.Asks.ofExcept.bind fun _ => Script.Asks.ofExcept.bind fun _ =>
    (toolkitCall_asks Licensed.plain rfl).bind fun _ => Script.Asks.ofExcept.bind fun _ =>
    (toolkitCall_asks Licensed.plain rfl).bind fun _ => Script.Asks.ofExcept.bind fun _ =>
    Script.Asks.bind ?_ fun absent => Script.Asks.ofExcept.bind fun _ =>
    Script.Asks.ofExcept.bind fun _ => (fetch_asks Licensed.plain ?_).bind fun _ =>
    Script.Asks.bind ?_ fun _ => (toolkitCall_asks Licensed.plain rfl).bind fun _ =>
    Script.Asks.ofExcept.bind fun _ => trivial
  · cases found.recordedAs with
    | none => trivial
    | some kind =>
      refine (toolkitCall_asks Licensed.plain rfl).bind fun existing => ?_
      cases existing with
      | none => trivial
      | some recorded => exact Script.Asks.ofExcept.bind fun _ => trivial
  · exact (readWriteBackHash_asks (anyEntry_plain Licensed.plain) contract).bind fun _ => trivial
  · unfold recordAdopted
    split
    · rename_i kind hkind
      refine Script.Asks.when (Script.Asks.perform ?_)
      rintro _ _ ⟨⟩
      exact ⟨rfl, hkind⟩
    · trivial

end

-- ---------------------------------------------------------------------------
-- Migrations on one chain
-- ---------------------------------------------------------------------------

/-- A program of operations, which may look at their outcomes. -/
abbrev Migration (E : Engine) (α : Type) := Task (operationEffects E) α

section
variable (codec : AddressCodec) (wildcard : Bool)

def Operation.run (op : Operation E) : Task (toolkitEffects E) op.Reply :=
  op.on (anyToolkit codec wildcard)

variable {codec wildcard}

theorem Operation.run_evidenced (op : Operation E) :
    wp .free (evidenced codec) (op.run codec wildcard) (fun _ _ => True) [] := by
  cases op with
  | deployProxy resolved contract args => exact runDeployProxy_evidenced
  | upgradeProxy resolved proxy contract => exact runUpgradeProxy_evidenced
  | deployBeacon resolved contract => exact runDeployBeacon_evidenced
  | deployBeaconProxy resolved beacon contract args => exact runDeployBeaconProxy_evidenced
  | upgradeBeacon resolved beacon contract =>
    exact evidenced_of_unrecorded (runUpgradeBeacon_asks Licensed.plain Licensed.sends)
  | deployImplementation resolved contract =>
    exact evidenced_of_unrecorded (deployImplementationThroughQueue_asks Licensed.plain)
  | prepareUpgrade resolved proxy contract =>
    exact evidenced_of_unrecorded (runPrepareUpgrade_asks Licensed.plain)
  | forceImport resolved address contract => exact runForceImport_evidenced
  | transferProxyAdminOwnership resolved proxy newOwner =>
    exact evidenced_of_unrecorded
      (runTransferProxyAdminOwnership_asks Licensed.plain resolved Licensed.sends)

/-- A migration records only what one of its own runs has evidence for. -/
theorem migration_evidenced (migration : Migration E α) :
    wp .free (evidenced codec) (migration.implemented (Operation.run codec wildcard))
      (fun _ _ => True) [] := by
  refine wp.implemented (fun op h => ?_) migration []
  refine wp.onward (h := []) op.run_evidenced fun h₁ op hop => ?_
  exact fun address kind hrecords => (hop address kind hrecords).later fun _ =>
    List.mem_append_left h

end

/-- What has happened on the chain, and what the record holds. -/
structure Ledger (E : Engine) where
  /-- The contracts the host created, with what it answered. -/
  created : Set (ContractAbstraction E × WriteBack)
  /-- The transactions that were confirmed. -/
  confirmed : Set String
  /-- What the 1967 slots of addresses have shown. -/
  shown : Set (String × ProxySlotsRead)
  /-- The kinds the engine has judged addresses to be proxies of. -/
  judged : Set (String × ProxyKind)
  record : Set (String × ProxyKind)

/-- An answer that is the case. -/
def Ledger.Holds (artifacts : String → ContractAbstraction E → Prop) (s : Ledger E) :
    Event (toolkitEffects E) Failure → Prop
  | ⟨.proxyArtifact name, .ok contract⟩ => artifacts name contract
  | ⟨.hostDeploy contract _, .ok reply⟩ => (contract, reply) ∈ s.created
  | ⟨.confirm hash, .ok (.confirmedSuccessful _)⟩ => hash ∈ s.confirmed
  | ⟨.proxySlots address, .ok slots⟩ => (address, slots) ∈ s.shown
  | ⟨.processProxyKind address _ _, .ok kind⟩ => (address, kind) ∈ s.judged
  | _ => True

/-- Any operation at any time: what has happened stays so, what is answered is
so, and the record is written by `recordProxy` alone. -/
structure LedgerStep (artifacts : String → ContractAbstraction E → Prop) (s : Ledger E)
    (op : ToolkitOp E) (r : Except Failure op.Reply) (t : Ledger E) : Prop where
  created : s.created ⊆ t.created
  confirmed : s.confirmed ⊆ t.confirmed
  shown : s.shown ⊆ t.shown
  judged : s.judged ⊆ t.judged
  holds : t.Holds artifacts ⟨op, r⟩
  /-- A write may go through and its call still fail. -/
  record : ∀ address kind, (address, kind) ∈ t.record →
    (address, kind) ∈ s.record ∨ op = .recordProxy address kind

def ledgerWorld (artifacts : String → ContractAbstraction E → Prop) :
    World (toolkitEffects E) Failure (Ledger E) where
  step := LedgerStep artifacts

/-- The chain has made the address a proxy of the kind: created from the kind's
artifact in a confirmed transaction, or shown by its slots, as the kind its
admin slot says or as one with an admin that the engine judged. -/
def Ledger.Backs (artifacts : String → ContractAbstraction E → Prop) (codec : AddressCodec)
    (s : Ledger E) (address : String) (kind : ProxyKind) : Prop :=
  (∃ contract reply, artifacts (proxyArtifactOf kind) contract ∧ (contract, reply) ∈ s.created ∧
    canonicalizeAddress codec reply.address = .ok address ∧ reply.transactionHash ∈ s.confirmed) ∨
  ∃ implementation admin, (address, .code (some implementation) admin none) ∈ s.shown ∧
    (kind = (if admin.isNone then .uups else .transparent) ∨
      (address, kind) ∈ s.judged ∧ (kind = .transparent → admin.isSome = true))

section
variable {artifacts : String → ContractAbstraction E → Prop} {codec : AddressCodec}

theorem Ledger.Backs.later {s t : Ledger E} {op : ToolkitOp E} {r : Except Failure op.Reply}
    {address : String} {kind : ProxyKind} (b : s.Backs artifacts codec address kind)
    (step : LedgerStep artifacts s op r t) : t.Backs artifacts codec address kind := by
  obtain ⟨contract, reply, hartifact, hcreated, hspelled, hconfirmed⟩ |
    ⟨implementation, admin, hshown, hkind⟩ := b
  · exact .inl ⟨contract, reply, hartifact, step.created hcreated, hspelled,
      step.confirmed hconfirmed⟩
  · exact .inr ⟨implementation, admin, step.shown hshown,
      hkind.imp_right (And.imp_left fun hjudged => step.judged hjudged)⟩

/-- Evidence whose every answer is the case backs the proxy. -/
theorem Evidence.backs {s : Ledger E} {h : ToolkitHistory E} {address : String} {kind : ProxyKind}
    (e : Evidence codec h address kind) (hso : ∀ event ∈ h, s.Holds artifacts event) :
    s.Backs artifacts codec address kind := by
  cases e with
  | created artifact deployed spelled confirmed =>
    exact .inl ⟨_, _, hso _ artifact, hso _ deployed, spelled, hso _ confirmed⟩
  | adopted slots => exact .inr ⟨_, _, hso _ slots, .inl rfl⟩
  | upgraded slots judged held => exact .inr ⟨_, _, hso _ slots, .inr ⟨hso _ judged, held⟩⟩

theorem ledger_attests {ι : Type} :
    Attests (fun _ : ι => ledgerWorld artifacts) (Ledger.Holds (E := E) artifacts) where
  answered _ _ _ _ _ hs := hs.holds
  stays i s op r t event hs hso := by
    unfold Ledger.Holds at hso ⊢
    split at hso
    · exact hso
    · exact hs.created hso
    · exact hs.confirmed hso
    · exact hs.shown hso
    · exact hs.judged hso
    · trivial

end

end

/-- Whatever migrations run side by side on one chain and one record, and
however their operations interleave, every recorded proxy is one the chain
backs. -/
theorem recorded_backed {E : Engine} {ι : Type} [DecidableEq ι]
    (artifacts : String → ContractAbstraction E → Prop) (codec : AddressCodec)
    (wildcard : ι → Bool) (migrations : ι → Migration E α) (start s : Ledger E)
    (xs : ι → Task (toolkitEffects E) α)
    (backed : ∀ address kind, (address, kind) ∈ start.record →
      start.Backs artifacts codec address kind)
    (run : Pool.Reaches (fun _ => ledgerWorld artifacts)
      (fun i => (migrations i).implemented (Operation.run codec (wildcard i)), start) (xs, s)) :
    ∀ address kind, (address, kind) ∈ s.record → s.Backs artifacts codec address kind := by
  refine Pool.attested (J := fun s : Ledger E => ∀ address kind, (address, kind) ∈ s.record →
    s.Backs artifacts codec address kind) ledger_attests (G := evidenced codec) ?_ backed
    (fun i => migration_evidenced (migrations i)) run
  intro i s op r t h hJ hso hguard hs address kind hrecord
  obtain hbefore | rfl := hs.record address kind hrecord
  · exact (hJ address kind hbefore).later hs
  · have hevidence : Evidence codec h address kind := hguard address kind rfl
    exact (hevidence.backs hso).later hs

-- One process adopts a UUPS proxy while another deploys a proxy behind a
-- beacon.

def adoptedAddress : String := "0x1111111111111111111111111111111111111111"

def behindBeacon : WriteBack := ⟨"0x2222222222222222222222222222222222222222", "0xd2"⟩

def sampleBeacon : String := "0x3333333333333333333333333333333333333333"

def sampleSlots : ProxySlotsRead := .code (some sampleBeacon) none none

def ledgerReply : (op : ToolkitOp sampleEngine) → Except Failure op.Reply
  | .proxySlots _ => .ok sampleSlots
  | .validateImplementation _ _ => .ok sampleValidated
  | .getCode _ => .ok "0x6002"
  | .getProxyRecord _ => .ok none
  | .fetchStarts _ _ => .ok 0
  | .fetchSettles _ _ => .ok sampleBeacon
  | .readBeaconImplementation _ => .ok (.implementation sampleBeacon)
  | .requireDeployer | .queueTurn | .recordProxy _ _ => .ok ()
  | .proxyArtifact _ => .ok sampleContract
  | .hostDeploy _ _ => .ok behindBeacon
  | .confirm hash => .ok (.confirmedSuccessful hash)
  | .contractAt _ address => .ok ⟨address, true⟩
  | _ => .error (.error "not asked for")

def ledgerAfter (s : Ledger sampleEngine) : ToolkitOp sampleEngine → Ledger sampleEngine
  | .proxySlots address => { s with shown := insert (address, sampleSlots) s.shown }
  | .hostDeploy contract _ => { s with created := insert (contract, behindBeacon) s.created }
  | .confirm hash => { s with confirmed := insert hash s.confirmed }
  | .recordProxy address kind => { s with record := insert (address, kind) s.record }
  | _ => s

def sampleArtifacts (_ : String) (contract : ContractAbstraction sampleEngine) : Prop :=
  contract = sampleContract

theorem ledgerAnswers_allowed : (ledgerWorld sampleArtifacts).Allows
    fun s op => (ledgerReply op, ledgerAfter s op) := by
  intro s op
  have same : ∀ {op : ToolkitOp sampleEngine} {r}, s.Holds sampleArtifacts ⟨op, r⟩ →
      LedgerStep sampleArtifacts s op r s := fun holds =>
    ⟨subset_rfl, subset_rfl, subset_rfl, subset_rfl, holds, fun _ _ h => .inl h⟩
  cases op with
  | proxySlots address =>
    exact ⟨subset_rfl, subset_rfl, Set.subset_insert .., subset_rfl, .inl rfl, fun _ _ h => .inl h⟩
  | hostDeploy contract args =>
    exact ⟨Set.subset_insert .., subset_rfl, subset_rfl, subset_rfl, .inl rfl, fun _ _ h => .inl h⟩
  | confirm hash =>
    exact ⟨subset_rfl, Set.subset_insert .., subset_rfl, subset_rfl, .inl rfl, fun _ _ h => .inl h⟩
  | recordProxy address kind =>
    refine ⟨subset_rfl, subset_rfl, subset_rfl, subset_rfl, trivial, ?_⟩
    rintro _ _ (⟨⟨⟩⟩ | h)
    · exact .inr rfl
    · exact .inl h
  | proxyArtifact name => exact same rfl
  | _ => exact same trivial

def sideBySide : Bool → Migration sampleEngine Unit
  | false => do
    let _ ← Script.perform (S := operationEffects sampleEngine)
      (.forceImport sampleOptions adoptedAddress sampleContract)
  | true => do
    let _ ← Script.perform (S := operationEffects sampleEngine)
      (.deployBeaconProxy sampleOptions sampleBeacon sampleContract [])

def emptyLedger : Ledger sampleEngine := ⟨∅, ∅, ∅, ∅, ∅⟩

def sampleLedgers : (Bool → Task (toolkitEffects sampleEngine) Unit) × Ledger sampleEngine :=
  Pool.schedule (fun _ s op => (ledgerReply op, ledgerAfter s op))
    [(false, 4), (true, 20), (false, 20)]
    (fun i => (sideBySide i).implemented (Operation.run (base58CheckCodec zeroChecksum) false),
      emptyLedger)

theorem recorded_backed_beside :
    sampleLedgers.2.Backs sampleArtifacts (base58CheckCodec zeroChecksum) adoptedAddress .uups ∧
      sampleLedgers.2.Backs sampleArtifacts (base58CheckCodec zeroChecksum) behindBeacon.address
        .beacon := by
  have hbacked := recorded_backed sampleArtifacts (base58CheckCodec zeroChecksum) (fun _ => false)
    sideBySide emptyLedger sampleLedgers.2 sampleLedgers.1
    (fun _ _ h => absurd h (Set.notMem_empty _))
    (Pool.reaches_schedule (fun _ => ledgerAnswers_allowed) _ _)
  exact ⟨hbacked _ _ (.inl rfl), hbacked _ _ (.inr (.inl rfl))⟩

end TronUpgrades.Tronbox
