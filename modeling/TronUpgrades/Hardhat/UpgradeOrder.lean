import TronUpgrades.Effects.Spending
import TronUpgrades.Hardhat.BeforeSpend
import TronUpgrades.Retry

/-!
# The order of a Hardhat upgrade

Whatever Hardhat, the node and the engine answer, `upgradeProxy` and
`upgradeBeacon` deploy and send only after the candidate was judged safe and
held against the layout recorded for the implementation that the chain shows,
send one transaction at most, and succeed only on what the chain shows after
it.
-/

namespace TronUpgrades.Hardhat

open Effects Tronbox

section

-- A slot word stays a word: no step of these proofs reads the address in it.
attribute [local irreducible] slotToAddress

variable {E : Engine}

abbrev Seen (E : Engine) := History (effects E) Failure

def Op.transacts : Op E → Bool
  | .transact _ _ _ => true
  | _ => false

/-- How many transactions a run has sent besides its deployments. -/
def sendCount (h : Seen E) : Nat := asked (S := effects E) Op.transacts h

theorem Op.transacts_of_spends_eq_false (op : Op E) (h : op.spends = false) :
    op.transacts = false := by
  cases op <;> first | rfl | cases h

theorem Op.deploys_of_spends_eq_false (op : Op E) (h : op.spends = false) :
    op.deploys = false := by
  cases op <;> first | rfl | cases h

-- ---------------------------------------------------------------------------
-- What is known
-- ---------------------------------------------------------------------------

/-- The contract is what its artifact and build-info say under the options. -/
def Compiled (contractName : String) (opts : Options E) (contract : UpgradeableContract E)
    (h : Seen E) : Prop :=
  ∃ artifact input, Answered h (.readArtifact contractName) artifact ∧
    Answered h (.validationInput (artifact.sourceName ++ ":" ++ artifact.contractName))
      (some input) ∧ upgradeableContract artifact input opts = .ok contract

/-- The candidate was compiled under the kind without an error, and its layout
was held against the one recorded for the installed implementation. -/
structure Judged (contractName : String) (opts : Options E) (kind : ProxyKind) (current : String)
    (contract : UpgradeableContract E) (h : Seen E) : Prop where
  compiled : Compiled contractName { opts with kind := some kind } contract h
  safe : contract.errors = []
  compatible : ∃ layout, Answered h (.layoutForAddress current) layout ∧
    assertStorageCompatible layout contract.layout opts = .ok ()

/-- What the interface version probe was answered; a revert is no version. -/
def VersionSeen (h : Seen E) (address : String) (version : Option String) : Prop :=
  Answered h (.getUpgradeInterfaceVersion address) version ∨
    version = none ∧ ∃ e, ⟨.getUpgradeInterfaceVersion address, .error e⟩ ∈ h ∧
      isOptionalCallRevert e = true

/-- The entry point of a live generation. A v4 `ProxyAdmin` and a UUPS
implementation before v5 have another one where there is no call data. -/
def entryOf (kind : ProxyKind) (proxy admin callData : String) (version : Option String) :
    UpgradeEntry :=
  if kind = .transparent then
    if version = some "5.0.0" ∨ callData ≠ "0x" then
      ⟨admin, "upgradeAndCall", fun new => [.str proxy, .str new, .str callData]⟩
    else ⟨admin, "upgrade", fun new => [.str proxy, .str new]⟩
  else if version = some "5.0.0" ∨ callData ≠ "0x" then
    ⟨proxy, "upgradeToAndCall", fun new => [.str new, .str callData]⟩
  else ⟨proxy, "upgradeTo", fun new => [.str new]⟩

/-- The entry is the one that the chain shows: of the admin in the slot, or of
the proxy itself. -/
def EntrySeen (h : Seen E) (kind : ProxyKind) (proxy callData : String) (entry : UpgradeEntry) :
    Prop :=
  ∃ admin version, entry = entryOf kind proxy admin callData version ∧
    if kind = .transparent then
      (∃ word, Answered h (.getSlot proxy adminSlot) word ∧ slotToAddress word = admin ∧
        admin ≠ zeroAddress) ∧ VersionSeen h admin version
    else VersionSeen h proxy version

structure ProxyCleared (proxy contractName : String) (opts : Options E) (plan : UpgradePlan E)
    (h : Seen E) : Prop where
  target : Answered h (.resolveAddress proxy) plan.proxyAddress
  recorded : ∃ record, Answered h (.proxyRecordOf plan.proxyAddress) record ∧
    plan.recorded = record.isSome
  noBeacon : ∃ word, Answered h (.getSlot plan.proxyAddress beaconSlot) word ∧
    slotToAddress word = zeroAddress
  kind : plan.kind ≠ .beacon ∧ ∃ draft : UpgradeableContract E,
    Answered h (.processProxyKind plan.proxyAddress opts.kind draft.validations draft.version)
      plan.kind
  judged : ∃ current, Answered h (.getImplementationAddress plan.proxyAddress) current ∧
    Judged contractName opts plan.kind current plan.contract h
  entry : ∃ callData, encodeUpgradeCall plan.contract.artifact.abi opts.call = .ok callData ∧
    EntrySeen h plan.kind plan.proxyAddress callData plan.entry

structure BeaconCleared (beacon contractName : String) (opts : Options E) (address : String)
    (contract : UpgradeableContract E) (h : Seen E) : Prop where
  target : Answered h (.resolveAddress beacon) address
  beacon : Answered h (.isBeacon address) true
  judged : ∃ current, Answered h (.getImplementationAddressFromBeacon address) current ∧
    Judged contractName opts .beacon current contract h

/-- The engine answered with this address for the candidate. -/
def FromEngine (contract : UpgradeableContract E) (h : Seen E) (address : String) : Prop :=
  (∃ redeploy deployment, Answered h (.engineStart contract.version redeploy) (some deployment) ∧
    deployment.address = address) ∨
  ∃ callback deployment, Answered h (.engineSettle contract.version contract.layout callback)
    deployment ∧ deployment.address = address

/-- The engine took out an entry that it could not use, once it had been given
a deployment. -/
def Removed (contract : UpgradeableContract E) (h : Seen E) : Prop :=
  ∃ callback e, ⟨.engineSettle contract.version contract.layout callback, .error e⟩ ∈ h ∧
    e.isRemoved = true

/-- A deployment is the candidate's, and a second one follows an entry that the
engine took out. -/
def DeploysOnce (contractName : String) (opts : Options E) (contract : UpgradeableContract E)
    (h : Seen E) (op : Op E) : Prop :=
  op = .deployContract contractName opts.constructorArgs ∧ redeployMode opts ≠ .never ∧
    (deployments h = 0 ∨ deployments h = 1 ∧ Removed contract h)

def Transaction (op : Op E) (h : Seen E) (contract : UpgradeableContract E)
    (address method : String) (args : String → List Json) : Prop :=
  sendCount h = 0 ∧ ∃ implementation, FromEngine contract h implementation ∧
    op = .transact address method (args implementation)

/-- What holds wherever `upgradeProxy` spends. -/
def ProxySpends (proxy contractName : String) (opts : Options E) (h : Seen E) (op : Op E) : Prop :=
  ∃ plan, ProxyCleared proxy contractName opts plan h ∧
    (DeploysOnce contractName opts plan.contract h op ∨
      Transaction op h plan.contract plan.entry.address plan.entry.method plan.entry.args)

def BeaconSpends (beacon contractName : String) (opts : Options E) (h : Seen E) (op : Op E) :
    Prop :=
  ∃ address contract, BeaconCleared beacon contractName opts address contract h ∧
    (DeploysOnce contractName opts contract h op ∨
      Transaction op h contract address "upgradeTo" fun new => [.str new])

section
variable {h h' : Seen E} {contractName proxy beacon callData current address : String}
  {opts : Options E} {kind : ProxyKind} {contract : UpgradeableContract E}

theorem Compiled.later (c : Compiled contractName opts contract h) (hh : h <:+ h') :
    Compiled contractName opts contract h' := by
  obtain ⟨artifact, input, hartifact, hinput, hcontract⟩ := c
  exact ⟨artifact, input, hartifact.later hh, hinput.later hh, hcontract⟩

theorem Judged.later (j : Judged contractName opts kind current contract h) (hh : h <:+ h') :
    Judged contractName opts kind current contract h' := by
  obtain ⟨layout, hlayout, hcompatible⟩ := j.compatible
  exact ⟨j.compiled.later hh, j.safe, layout, hlayout.later hh, hcompatible⟩

theorem VersionSeen.later {version : Option String} (v : VersionSeen h address version)
    (hh : h <:+ h') : VersionSeen h' address version := by
  rcases v with hv | ⟨hnone, e, he, hrevert⟩
  · exact .inl (hv.later hh)
  · exact .inr ⟨hnone, e, hh.mem he, hrevert⟩

theorem EntrySeen.later {entry : UpgradeEntry} (v : EntrySeen h kind proxy callData entry)
    (hh : h <:+ h') : EntrySeen h' kind proxy callData entry := by
  obtain ⟨admin, version, hentry, hseen⟩ := v
  refine ⟨admin, version, hentry, ?_⟩
  split at hseen
  · obtain ⟨⟨word, hword, hadmin⟩, hversion⟩ := hseen
    rw [if_pos ‹_›]
    exact ⟨⟨word, hword.later hh, hadmin⟩, hversion.later hh⟩
  · rw [if_neg ‹_›]
    exact hseen.later hh

theorem ProxyCleared.later {plan : UpgradePlan E}
    (c : ProxyCleared proxy contractName opts plan h) (hh : h <:+ h') :
    ProxyCleared proxy contractName opts plan h' := by
  obtain ⟨record, hrecord, hrecorded⟩ := c.recorded
  obtain ⟨word, hword, hzero⟩ := c.noBeacon
  obtain ⟨hkind, draft, hdraft⟩ := c.kind
  obtain ⟨current, hcurrent, hjudged⟩ := c.judged
  obtain ⟨callData, hcall, hentry⟩ := c.entry
  exact {
    target := c.target.later hh
    recorded := ⟨record, hrecord.later hh, hrecorded⟩
    noBeacon := ⟨word, hword.later hh, hzero⟩
    kind := ⟨hkind, draft, hdraft.later hh⟩
    judged := ⟨current, hcurrent.later hh, hjudged.later hh⟩
    entry := ⟨callData, hcall, hentry.later hh⟩ }

theorem BeaconCleared.later (c : BeaconCleared beacon contractName opts address contract h)
    (hh : h <:+ h') : BeaconCleared beacon contractName opts address contract h' := by
  obtain ⟨current, hcurrent, hjudged⟩ := c.judged
  exact ⟨c.target.later hh, c.beacon.later hh, current, hcurrent.later hh, hjudged.later hh⟩

theorem FromEngine.later (f : FromEngine contract h address) (hh : h <:+ h') :
    FromEngine contract h' address := by
  rcases f with ⟨redeploy, deployment, hf, ha⟩ | ⟨callback, deployment, hf, ha⟩
  · exact .inl ⟨redeploy, deployment, hf.later hh, ha⟩
  · exact .inr ⟨callback, deployment, hf.later hh, ha⟩

end

-- ---------------------------------------------------------------------------
-- Planning
-- ---------------------------------------------------------------------------

section
variable {P : Seen E → Op E → Prop} {h : Seen E} {contractName proxy beacon callData : String}
  {opts : Options E} {kind : ProxyKind} {α β : Type} {x : HardhatTask E α} {f : α → HardhatTask E β}

/-- What a part that spends nothing knows when it succeeds. -/
abbrev Knows (P : Seen E → Op E → Prop) (x : HardhatTask E α) (C : α → Seen E → Prop)
    (h : Seen E) : Prop :=
  Learns (S := effects E) Op.spends P x C h

section
variable {counted : Op E → Bool} (artifacts : ∀ name, counted (.readArtifact name) = false)
  (inputs : ∀ name, counted (.validationInput name) = false)
include artifacts inputs

theorem upgradeableContractFor_learns :
    Learns (S := effects E) counted P (upgradeableContractFor contractName opts)
      (Compiled contractName opts) h := by
  unfold upgradeableContractFor
  refine .ask (artifacts _) fun artifact => .ask (inputs _) fun input =>
    .ofExcept_bind fun found hfound => ?_
  cases input with
  | none => cases hfound
  | some input =>
    cases hfound
    refine wp_ofExcept.mpr ⟨Without.refl _ _, fun contract hcontract => ?_⟩
    exact ⟨artifact, found, by simp [Answered], by simp [Answered], hcontract⟩

theorem validateImplementation_learns :
    Learns (S := effects E) counted P (validateImplementation contractName opts)
      (fun contract h' => Compiled contractName opts contract h' ∧ contract.errors = []) h := by
  refine .bind (upgradeableContractFor_learns artifacts inputs) fun contract h' _ hcompiled => ?_
  refine .ofExcept_bind fun _ hrefused => .pure ⟨hcompiled, ?_⟩
  simpa using refuseIf_ok hrefused

end

theorem judgeAgainst_knows {reference : ReferenceImpl} :
    Knows P (judgeAgainst contractName opts reference)
      (Judged contractName opts reference.kind reference.currentImplAddress) h := by
  refine .ask rfl fun layout => .bind (validateImplementation_learns (fun _ => rfl) fun _ => rfl) ?_
  rintro contract h' hh ⟨hcompiled, hsafe⟩
  refine .ofExcept_bind fun _ hcompatible => .pure ⟨hcompiled, hsafe, layout, ?_, hcompatible⟩
  exact .later .head hh

theorem upgradeInterfaceVersionOf_knows {address : String} :
    Knows P (upgradeInterfaceVersionOf address)
      (fun version h' => VersionSeen h' address version) h := by
  refine wp_catching.mpr (wp_perform.mpr ⟨unguarded rfl, ?_⟩)
  rintro (e | version) h' ⟨-, rfl⟩
  · have stay : Without Op.spends h (⟨.getUpgradeInterfaceVersion address, .error e⟩ :: h) :=
      (Without.refl (S := effects E) Op.spends h).cons rfl
    simp only
    split
    · refine ⟨stay, ?_⟩
      rintro _ ⟨⟩
      exact .inr ⟨rfl, e, List.mem_cons_self, ‹_›⟩
    · exact ⟨stay, error_returns⟩
  · refine ⟨(Without.refl _ h).cons rfl, ?_⟩
    rintro _ ⟨⟩
    exact .inl .head

theorem adminEntry_knows :
    Knows P (adminEntry opts proxy callData) (fun entry h' =>
      EntrySeen h' .transparent proxy callData entry) h := by
  refine .ask rfl fun word => .ofExcept_bind fun _ hrefused => ?_
  refine .bind upgradeInterfaceVersionOf_knows fun version h₁ hh hversion => ?_
  have hadmin : slotToAddress word ≠ zeroAddress := by simpa using refuseIf_ok hrefused
  have seen : ∀ h', h₁ <:+ h' → EntrySeen h' .transparent proxy callData
      (entryOf .transparent proxy (slotToAddress word) callData version) := by
    intro h' hh'
    refine ⟨slotToAddress word, version, rfl, ?_⟩
    exact ⟨⟨word, .later .head (hh.trans hh'), rfl, hadmin⟩, hversion.later hh'⟩
  split
  · rename_i hv
    refine .ask rfl fun _ => .bind (.of_asks withOwner_quiet) fun _ h₂ hh₂ _ => .pure ?_
    have := seen h₂ ((List.suffix_cons ..).trans hh₂)
    simpa [entryOf, hv] using this
  · rename_i hv
    refine .bind (.of_asks pluginInterfaceAt_quiet) fun _ h₂ hh₂ _ => ?_
    refine .bind (.of_asks withOwner_quiet) fun _ h₃ hh₃ _ => .pure ?_
    have := seen h₃ (hh₂.trans hh₃)
    by_cases hdata : callData = "0x" <;> simpa [entryOf, hv, hdata] using this

theorem uupsEntry_knows (hkind : ¬ kind = .transparent) :
    Knows P (uupsEntry opts proxy callData) (fun entry h' =>
      EntrySeen h' kind proxy callData entry) h := by
  refine .bind upgradeInterfaceVersionOf_knows fun version h₁ hh hversion => ?_
  refine .bind (.of_asks pluginInterfaceAt_quiet) fun _ h₂ hh₂ _ => ?_
  refine .bind (.of_asks withOwner_quiet) fun _ h₃ hh₃ _ => .pure ⟨"", version, ?_, ?_⟩
  · simp only [entryOf, if_neg hkind]
  · rw [if_neg hkind]
    exact hversion.later (hh₂.trans hh₃)

theorem planUpgrade_knows :
    Knows P (planUpgrade proxy contractName opts)
      (ProxyCleared proxy contractName opts) h := by
  refine .ask rfl fun proxyAddress => .ask rfl fun _ => .ask rfl fun record =>
    .ask rfl fun word => ?_
  refine .ofExcept_bind fun _ hrefused => .bind (upgradeableContractFor_learns (fun _ => rfl) fun _ => rfl) ?_
  intro draft h₁ hh₁ _
  refine .ask rfl fun kind => .ofExcept_bind fun _ hkind => .ask rfl fun current => ?_
  refine .bind judgeAgainst_knows fun contract h₂ hh₂ hjudged => ?_
  refine .ofExcept_bind fun callData hcall => .ofExcept_bind fun _ _ => ?_
  refine .bind (C := fun entry h' => EntrySeen h' kind proxyAddress callData entry) ?_ ?_
  · split
    · rename_i htransparent
      subst htransparent
      exact adminEntry_knows
    · exact uupsEntry_knows ‹_›
  · intro entry h₃ hh₃ hentry
    have hsecond := hh₂.trans hh₃
    have hfirst := hh₁.trans ((List.suffix_cons ..).trans ((List.suffix_cons ..).trans hsecond))
    have hnobeacon : slotToAddress word = zeroAddress := by simpa using refuseIf_ok hrefused
    have hnot : kind ≠ .beacon := by simpa using refuseIf_ok hkind
    refine .pure {
      target := ?_
      recorded := ⟨record, ?_, rfl⟩
      noBeacon := ⟨word, .later .head hfirst, hnobeacon⟩
      kind := ⟨hnot, draft, ?_⟩
      judged := ⟨current, .later .head hsecond, hjudged.later hh₃⟩
      entry := ⟨callData, hcall, hentry⟩ }
    · exact Answered.later (by simp [Answered]) hfirst
    · exact Answered.later (by simp [Answered]) hfirst
    · exact Answered.later (by simp [Answered]) hsecond

section
variable {counted : Op E → Bool} (probes : ∀ address, counted (.isBeacon address) = false)
include probes

theorem isBeaconContract_learns {address : String} :
    Learns (S := effects E) counted P (isBeaconContract address)
      (fun answer h' => answer = true → Answered (S := effects E) h' (.isBeacon address) true) h := by
  refine wp_catching.mpr (wp_perform.mpr ⟨unguarded (probes _), ?_⟩)
  rintro (e | answer) h' ⟨-, rfl⟩
  · have stay : Without counted h (⟨.isBeacon address, .error e⟩ :: h) :=
      (Without.refl (S := effects E) counted h).cons (probes _)
    simp only
    split
    · refine ⟨stay, ?_⟩
      rintro _ ⟨⟩ hfalse
      cases hfalse
    · exact ⟨stay, error_returns⟩
  · refine ⟨(Without.refl _ h).cons (probes _), ?_⟩
    rintro _ ⟨⟩ rfl
    exact .head

theorem assertIsBeacon_learns {address : String} :
    Learns (S := effects E) counted P (assertIsBeacon address)
      (fun _ h' => Answered (S := effects E) h' (.isBeacon address) true) h := by
  refine .bind (isBeaconContract_learns probes) fun answer h' _ hanswer => ?_
  refine wp_ofExcept.mpr ⟨Without.refl _ _, fun _ hrefused => hanswer ?_⟩
  simpa using refuseIf_ok hrefused

end

theorem planBeaconUpgrade_knows :
    Knows P (planBeaconUpgrade beacon contractName opts) (fun plan h' =>
      BeaconCleared beacon contractName opts plan.1 plan.2 h') h := by
  refine .ask rfl fun address => .bind (assertIsBeacon_learns fun _ => rfl) fun _ h₁ hh₁ hbeacon => ?_
  refine .ask rfl fun _ => .ask rfl fun current => .bind judgeAgainst_knows ?_
  intro contract h₂ hh₂ hjudged
  refine .ask rfl fun _ => .pure ?_
  have hsecond := hh₂.trans (List.suffix_cons
    (⟨.getContractAt FQN.beacon address, .ok ()⟩ : Event (effects E) Failure) h₂)
  have hfirst := (List.suffix_cons ..).trans ((List.suffix_cons ..).trans hsecond)
  exact {
    target := .later .head (hh₁.trans hfirst)
    beacon := hbeacon.later hfirst
    judged := ⟨current, .later .head hsecond, hjudged.later (List.suffix_cons ..)⟩ }

end

-- ---------------------------------------------------------------------------
-- The implementation
-- ---------------------------------------------------------------------------

section
variable {P : Seen E → Op E → Prop} {h : Seen E} {contractName : String} {opts : Options E}
  {contract : UpgradeableContract E}

/-- One call of the engine's deploys at most once, and what it was given is
behind an error that takes an entry out. -/
theorem engineCall_once (hP : ∀ h', h <:+ h' → deployments h' = deployments h →
      sendCount h' = sendCount h → redeployMode opts ≠ .never →
      P h' (.deployContract contractName opts.constructorArgs)) :
    wp .free (whereSpent Op.spends P) (engineCall contractName opts contract)
      (fun o h' => Without (S := effects E) Op.transacts h h' ∧
        (∀ deployment, o = .ok deployment → FromEngine contract h' deployment.address) ∧
        ∀ e, o = .error e → e.isRemoved = true →
          deployments h' = deployments h ∨
          deployments h' = deployments h + 1 ∧ Removed contract h') h := by
  have hstay (op : Op E) (r : Except Failure op.Reply) (hop : op.transacts = false) :
      Without (S := effects E) Op.transacts h (⟨op, r⟩ :: h) :=
    (Without.refl (S := effects E) Op.transacts h).cons hop
  unfold engineCall
  simp only [Script.bind_eq, Script.pure_eq]
  refine wp.askFree (unguarded rfl) ?_ ?_
  · intro started
    cases started with
    | some deployment =>
      refine ⟨hstay _ _ rfl, ?_, by rintro _ ⟨⟩⟩
      rintro _ ⟨⟩
      exact .inl ⟨_, deployment, .head, rfl⟩
    | none =>
      refine wp.attempt_bind (J := fun h' => Without (S := effects E) Op.transacts h h' ∧
        (deployments h' = deployments h ∨ deployments h' = deployments h + 1)) ?_ ?_
      · unfold deployUnlessNever
        split
        · exact ⟨hstay _ _ rfl, .inl (asked_cons_of_neg (S := effects E) rfl)⟩
        · refine wp_perform.mpr ⟨fun _ => hP _ (List.suffix_cons ..) ?_ ?_ ‹_›, ?_⟩
          · exact asked_cons_of_neg (S := effects E) rfl
          · exact asked_cons_of_neg (S := effects E) rfl
          · rintro r h' ⟨-, rfl⟩
            refine ⟨(hstay _ _ rfl).cons rfl, .inr ?_⟩
            exact (asked_cons_of_pos (S := effects E) rfl).trans
              (congrArg (· + 1) (asked_cons_of_neg (S := effects E) rfl))
      · rintro callback h₁ ⟨stay, hcount⟩
        refine wp_perform.mpr ⟨unguarded rfl, ?_⟩
        rintro (e | deployment) h' ⟨-, rfl⟩
        · refine ⟨stay.cons rfl, by rintro _ ⟨⟩, ?_⟩
          rintro _ ⟨⟩ hremoved
          have hsame : deployments (⟨.engineSettle contract.version contract.layout callback,
              .error e⟩ :: h₁) = deployments h₁ := asked_cons_of_neg (S := effects E) rfl
          rw [hsame]
          refine hcount.imp id fun hmore => ⟨hmore, callback, e, List.mem_cons_self, hremoved⟩
        · refine ⟨stay.cons rfl, ?_, by rintro _ ⟨⟩⟩
          rintro _ ⟨⟩
          exact .inr ⟨callback, deployment, .head, rfl⟩
  · intro e
    refine ⟨hstay _ _ rfl, by rintro _ ⟨⟩, fun _ _ _ => .inl ?_⟩
    exact asked_cons_of_neg (S := effects E) rfl

/-- From the engine's answer to the operation's: a second call follows only an
entry taken out. -/
theorem fetchOrDeploy_knows (h0 : deployments h = 0)
    (hP : ∀ h', h <:+ h' → sendCount h' = sendCount h →
      DeploysOnce contractName opts contract h'
        (.deployContract contractName opts.constructorArgs) →
      P h' (.deployContract contractName opts.constructorArgs)) :
    wp .free (whereSpent Op.spends P) (fetchOrDeploy contractName opts contract)
      (fun o h' => Without (S := effects E) Op.transacts h h' ∧
        ∀ deployment, o = .ok deployment → FromEngine contract h' deployment.address) h := by
  refine wp.catching (engineCall_once fun h' hh hdeploys hsends hmode =>
    hP h' hh hsends ⟨rfl, hmode, .inl (hdeploys.trans h0)⟩) ?_ ?_
  · exact fun deployment h' hdone => ⟨hdone.1, hdone.2.1⟩
  · rintro e h₁ ⟨stay, -, hagain⟩
    split
    · exact ⟨stay, error_returns⟩
    · rename_i hretry
      have hremoved : e.isRemoved = true := by
        simp only [Bool.or_eq_true, not_or] at hretry
        simpa using hretry.1
      have hcount := hagain e rfl hremoved
      rw [h0] at hcount
      refine wp_mono ?_ (engineCall_once fun h' hh hdeploys hsends hmode => ?_)
      · exact fun o h' hdone => ⟨stay.trans hdone.1, hdone.2.1⟩
      · refine hP h' (stay.1.trans hh) (hsends.trans stay.2) ⟨rfl, hmode, ?_⟩
        rw [hdeploys]
        rcases hcount with hnone | ⟨hone, callback, e, he, hremoved⟩
        · exact .inl hnone
        · exact .inr ⟨hone, callback, e, hh.mem he, hremoved⟩

theorem resolveImplementation_knows (h0 : deployments h = 0)
    (hP : ∀ h', h <:+ h' → sendCount h' = sendCount h →
      DeploysOnce contractName opts contract h'
        (.deployContract contractName opts.constructorArgs) →
      P h' (.deployContract contractName opts.constructorArgs)) :
    wp .free (whereSpent Op.spends P) (resolveImplementation contractName opts (some contract))
      (fun o h' => Without (S := effects E) Op.transacts h h' ∧
        ∀ deployment, o = .ok deployment → FromEngine contract h' deployment.address) h := by
  unfold resolveImplementation
  refine wp.ofExcept_bind (fun _ _ => ?_) fun e _ => ⟨Without.refl _ h, error_returns⟩
  refine wp.ofExcept_bind (fun _ _ => ?_) fun e _ => ⟨Without.refl _ h, error_returns⟩
  have hstay : ∀ r, Without (S := effects E) Op.transacts h (⟨.getManifest, r⟩ :: h) :=
    fun r => (Without.refl _ h).cons rfl
  refine wp.askFree (unguarded rfl) (fun _ => ?_) fun e => ⟨hstay _, error_returns⟩
  show wp _ _ ((fetchOrDeploy contractName opts contract).bind _) _ _
  refine wp.bind (fetchOrDeploy_knows ?_ ?_) ?_ ?_
  · exact (asked_cons_of_neg (S := effects E) rfl).trans h0
  · intro h' hh hsends hdeploys
    refine hP h' ((List.suffix_cons ..).trans hh) ?_ hdeploys
    exact hsends.trans (asked_cons_of_neg (S := effects E) rfl)
  · rintro deployment h₁ ⟨stay, hdone⟩
    have stay := (hstay _).trans stay
    have hdone := hdone deployment rfl
    cases deployment.txHash with
    | none =>
      refine ⟨stay, ?_⟩
      rintro _ ⟨⟩
      exact hdone
    | some hash =>
      simp only
      split
      · refine wp.askFree (unguarded rfl) (fun txResponse => ?_)
          fun e => ⟨stay.cons rfl, error_returns⟩
        refine ⟨stay.cons rfl, ?_⟩
        rintro _ ⟨⟩
        exact hdone.later (List.suffix_cons ..)
      · refine ⟨stay, ?_⟩
        rintro _ ⟨⟩
        exact hdone
  · exact fun e h₁ hdone => ⟨(hstay _).trans hdone.1, error_returns⟩

end

-- ---------------------------------------------------------------------------
-- Every run
-- ---------------------------------------------------------------------------

/-- The history once the operation has been answered. -/
def sentBy (op : Op E) (a : op.Reply) (before : Seen E) : Seen E := ⟨op, .ok a⟩ :: before

/-- Since the transaction, the slot was read and holds the implementation, and
the record holds the proxy. -/
def ProxyDone (proxy contractName : String) (opts : Options E) (h : Seen E) (result : String) :
    Prop :=
  ∃ plan before implementation, ProxyCleared proxy contractName opts plan before ∧
    FromEngine plan.contract before implementation ∧ result = plan.proxyAddress ∧
    let sent := sentBy (.transact plan.entry.address plan.entry.method
      (plan.entry.args implementation)) () before
    (∃ word, AnsweredSince sent h (.getSlot result implSlot) word ∧
      Text.toLowerCase (slotToAddress word).toList = Text.toLowerCase implementation.toList) ∧
    ((∃ kind, Answered h (.proxyRecordOf result) (some kind)) ∨
      AnsweredSince sent h (.addProxyToManifest plan.kind result) ())

/-- Since the transaction, the beacon answered the implementation. -/
def BeaconDone (beacon contractName : String) (opts : Options E) (h : Seen E) (result : String) :
    Prop :=
  ∃ contract before implementation, BeaconCleared beacon contractName opts result contract before ∧
    FromEngine contract before implementation ∧
    ∃ current, AnsweredSince (sentBy (.transact result "upgradeTo" [.str implementation]) () before)
        h (.implementation result) current ∧
      Text.toLowerCase current.toList = Text.toLowerCase implementation.toList

section
variable {h : Seen E} {proxy beacon contractName : String} {opts : Options E}

/-- A run that has spent nothing has deployed and sent nothing. -/
theorem unspent_counts (h : Seen E) (h0 : asked (S := effects E) Op.spends h = 0) :
    deployments h = 0 ∧ sendCount h = 0 := by
  have hnone := List.countP_eq_zero.mp h0
  constructor <;> refine List.countP_eq_zero.mpr fun event hevent hop => hnone event hevent ?_
  · cases hspends : event.op.spends with
    | true => rfl
    | false => rw [Op.deploys_of_spends_eq_false _ hspends] at hop; cases hop
  · cases hspends : event.op.spends with
    | true => rfl
    | false => rw [Op.transacts_of_spends_eq_false _ hspends] at hop; cases hop

theorem upgradeProxy_knows :
    wp .free (whereSpent Op.spends (ProxySpends proxy contractName opts))
      (upgradeProxy proxy contractName opts)
      (fun o h => ∀ result, o = .ok result → ProxyDone proxy contractName opts h result) [] := by
  refine wp.bind planUpgrade_knows ?_ fun _ _ _ => error_returns
  rintro plan h₁ ⟨stay, hplan⟩
  have hcleared := hplan plan rfl
  obtain ⟨hdeploys, hsends⟩ := unspent_counts h₁ stay.2
  refine wp.bind (resolveImplementation_knows hdeploys ?_) ?_ fun _ _ _ => error_returns
  · exact fun h' hh _ honce => ⟨plan, hcleared.later hh, .inl honce⟩
  rintro deployment h₂ ⟨stay₂, hdone⟩
  have hdone := hdone deployment rfl
  have hcleared := hcleared.later stay₂.1
  refine wp.askFree ?_ (fun _ => ?_) fun _ => error_returns
  · exact fun _ => ⟨plan, hcleared, .inr ⟨stay₂.2.trans hsends, deployment.address, hdone, rfl⟩⟩
  refine wp.askFree (unguarded rfl) (fun word => ?_) fun _ => error_returns
  refine wp.ofExcept_bind (fun _ hrefused => ?_) fun _ _ => error_returns
  have hword : Text.toLowerCase (slotToAddress word).toList =
      Text.toLowerCase deployment.address.toList := by
    simpa using refuseIf_ok hrefused
  obtain ⟨record, hrecord, hrecorded⟩ := hcleared.recorded
  have hread : AnsweredSince (sentBy (.transact plan.entry.address plan.entry.method
      (plan.entry.args deployment.address)) () h₂)
      (⟨.getSlot plan.proxyAddress implSlot, .ok word⟩ :: sentBy (.transact plan.entry.address
        plan.entry.method (plan.entry.args deployment.address)) () h₂)
      (.getSlot plan.proxyAddress implSlot) word := .head List.suffix_rfl
  simp only [Script.bind_eq]
  rw [wp_bind]
  refine wp.when (fun _ => wp_perform.mpr ⟨unguarded rfl, ?_⟩) fun hnot => ?_
  · rintro (e | _) h' ⟨-, rfl⟩
    · exact error_returns
    · refine wp.askFree (unguarded rfl) (fun _ => ?_) fun _ => error_returns
      rintro _ ⟨⟩
      refine ⟨plan, h₂, deployment.address, hcleared, hdone, rfl, ⟨word, ?_, hword⟩, .inr ?_⟩
      · exact hread.later ((List.suffix_cons ..).trans (List.suffix_cons ..))
      · exact (AnsweredSince.head (List.suffix_cons ..)).later (List.suffix_cons ..)
  · refine wp.askFree (unguarded rfl) (fun _ => ?_) fun _ => error_returns
    rintro _ ⟨⟩
    refine ⟨plan, h₂, deployment.address, hcleared, hdone, rfl, ⟨word, ?_, hword⟩, .inl ?_⟩
    · exact hread.later (List.suffix_cons ..)
    · rw [hrecorded] at hnot
      cases record with
      | none => exact absurd rfl hnot
      | some kind =>
        exact ⟨kind, hrecord.later ((List.suffix_cons ..).trans
          ((List.suffix_cons ..).trans (List.suffix_cons ..)))⟩

theorem upgradeBeacon_knows :
    wp .free (whereSpent Op.spends (BeaconSpends beacon contractName opts))
      (upgradeBeacon beacon contractName opts)
      (fun o h => ∀ result, o = .ok result → BeaconDone beacon contractName opts h result) [] := by
  refine wp.bind planBeaconUpgrade_knows ?_ fun _ _ _ => error_returns
  rintro ⟨address, contract⟩ h₁ ⟨stay, hplan⟩
  have hcleared := hplan _ rfl
  obtain ⟨hdeploys, hsends⟩ := unspent_counts h₁ stay.2
  refine wp.bind (resolveImplementation_knows hdeploys ?_) ?_ fun _ _ _ => error_returns
  · exact fun h' hh _ honce => ⟨address, contract, hcleared.later hh, .inl honce⟩
  rintro deployment h₂ ⟨stay₂, hdone⟩
  have hdone := hdone deployment rfl
  have hcleared := hcleared.later stay₂.1
  refine wp.ofExcept_bind (fun _ _ => ?_) fun _ _ => error_returns
  refine wp.bind ((without_moves Op.transacts_of_spends_eq_false).along withOwner_quiet h₂) ?_
    fun _ _ _ => error_returns
  intro _ h₃ stay₃
  have hdone := hdone.later stay₃.1
  have hcleared := hcleared.later stay₃.1
  have hnone : sendCount h₃ = 0 := (stay₂.trans stay₃).2.trans hsends
  refine wp.askFree ?_ (fun _ => ?_) fun _ => error_returns
  · exact fun _ => ⟨address, contract, hcleared, .inr ⟨hnone, deployment.address, hdone, rfl⟩⟩
  refine wp.askFree (unguarded rfl) (fun current => ?_) fun _ => error_returns
  refine wp.ofExcept_bind (fun _ hrefused => ?_) fun _ _ => error_returns
  rintro _ ⟨⟩
  refine ⟨contract, h₃, deployment.address, hcleared, hdone, current, .head List.suffix_rfl, ?_⟩
  simpa using refuseIf_ok hrefused

end

/-- Under every behaviour of its surroundings, whatever an upgrade spends was
cleared, it sends one transaction at most, and it succeeds only on what the
chain shows afterwards. -/
theorem hardhat_upgrades_ordered (target contractName : String) (opts : Options E) :
    Ordered (S := effects E) Op.spends Op.transacts (upgradeProxy target contractName opts)
        (ProxySpends target contractName opts) (ProxyDone target contractName opts) ∧
      Ordered (S := effects E) Op.spends Op.transacts (upgradeBeacon target contractName opts)
        (BeaconSpends target contractName opts) (BeaconDone target contractName opts) := by
  have first : ∀ {contract : UpgradeableContract E} {address method args h} {op : Op E},
      DeploysOnce contractName opts contract h op ∨ Transaction op h contract address method args →
      op.transacts = true → sendCount h = 0 := by
    rintro contract address method args h op (⟨rfl, -⟩ | ⟨h0, -⟩) hop
    · cases hop
    · exact h0
  constructor
  · refine .of_wp upgradeProxy_knows Op.transacts_of_spends_eq_false ?_
    rintro h op ⟨plan, -, hspends⟩ hop
    exact first hspends hop
  · refine .of_wp upgradeBeacon_knows Op.transacts_of_spends_eq_false ?_
    rintro h op ⟨address, contract, -, hspends⟩ hop
    exact first hspends hop

end

end TronUpgrades.Hardhat
