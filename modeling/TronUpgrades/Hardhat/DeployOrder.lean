import TronUpgrades.Hardhat.UpgradeOrder

/-!
# The order of a Hardhat deployment

Whatever Hardhat, the node and the engine answer, `deployProxy`, `deployBeacon`
and `deployBeaconProxy` commit to nothing (a step of the engine's, a deployment,
a transaction, a write to the manifest) before everything that may refuse was
asked and answered. An implementation is deployed where the engine has just
said that it has none; a proxy or beacon directly on what the engine answered,
a beacon proxy on the beacon that was resolved; the manifest is written directly
after.
-/

namespace TronUpgrades.Hardhat

open Effects Tronbox

section
variable {E : Engine}

def Op.commits : Op E → Bool
  | .engineStart _ _ | .engineSettle _ _ _ | .addProxyToManifest _ _ | .recordImpl _ _ _ => true
  | op => op.spends

/-- Nothing is committed to between the two moments. -/
abbrev Idle (h h' : Seen E) : Prop := Without (S := effects E) Op.commits h h'

/-- What a part that commits to nothing knows when it succeeds. -/
abbrev Finds (P : Seen E → Op E → Prop) (x : HardhatTask E α) (C : α → Seen E → Prop)
    (h : Seen E) : Prop :=
  Learns (S := effects E) Op.commits P x C h

-- ---------------------------------------------------------------------------
-- The implementation
-- ---------------------------------------------------------------------------

/-- The engine has just answered with an address for the candidate. -/
inductive EngineAnswers (contract : UpgradeableContract E) : String → Seen E → Prop
  | recorded {redeploy : Bool} {deployment : Deployed} {before : Seen E} :
    EngineAnswers contract deployment.address
      (⟨.engineStart contract.version redeploy, .ok (some deployment)⟩ :: before)
  | settled {callback : Except Failure Deployed} {deployment : Deployed} {before : Seen E} :
    EngineAnswers contract deployment.address
      (⟨.engineSettle contract.version contract.layout callback, .ok deployment⟩ :: before)

/-- Since it did, nothing was committed to. -/
def EngineAnsweredLast (contract : UpgradeableContract E) (address : String) (h : Seen E) : Prop :=
  ∃ h₁, EngineAnswers contract address h₁ ∧ Idle h₁ h

/-- The engine has answered with no address so far. -/
def Unanswered (contract : UpgradeableContract E) (h : Seen E) : Prop :=
  ∀ address h₁, h₁ <:+ h → ¬ EngineAnswers contract address h₁

/-- The steps to an implementation, each on the one before: the engine is asked,
has none, and is given what the callback came to. -/
inductive Implements (contractName : String) (opts : Options E) (contract : UpgradeableContract E) :
    Seen E → Op E → Prop
  | start {h : Seen E} : Implements contractName opts contract h
      (.engineStart contract.version (redeployMode opts = .always))
  | deploy {before : Seen E} (allowed : redeployMode opts ≠ .never) :
    Implements contractName opts contract
      (⟨.engineStart contract.version (redeployMode opts = .always), .ok none⟩ :: before)
      (.deployContract contractName opts.constructorArgs)
  | refuse {before : Seen E} {e : Failure} (never : redeployMode opts = .never) :
    Implements contractName opts contract
      (⟨.engineStart contract.version (redeployMode opts = .always), .ok none⟩ :: before)
      (.engineSettle contract.version contract.layout (.error e))
  | settle {before : Seen E} {callback : Except Failure Deployed} :
    Implements contractName opts contract
      (⟨.deployContract contractName opts.constructorArgs, callback⟩ :: before)
      (.engineSettle contract.version contract.layout callback)

/-- The same, while the engine has not answered. -/
def Implementing (contractName : String) (opts : Options E) (contract : UpgradeableContract E)
    (h : Seen E) (op : Op E) : Prop :=
  Unanswered contract h ∧ Implements contractName opts contract h op

variable {P : Seen E → Op E → Prop} {h : Seen E} {contractName : String} {opts : Options E}
  {contract : UpgradeableContract E}

theorem EngineAnsweredLast.later {address : String} {h' : Seen E}
    (a : EngineAnsweredLast contract address h) (stay : Idle h h') :
    EngineAnsweredLast contract address h' := by
  obtain ⟨h₁, hanswer, hsince⟩ := a
  exact ⟨h₁, hanswer, hsince.trans stay⟩

theorem Unanswered.cons {event : Event (effects E) Failure} (u : Unanswered contract h)
    (hevent : ∀ address, ¬ EngineAnswers contract address (event :: h)) :
    Unanswered contract (event :: h) := by
  intro address h₁ hh₁ hanswers
  rcases List.suffix_cons_iff.mp hh₁ with rfl | hh₁
  · exact hevent address hanswers
  · exact u address h₁ hh₁ hanswers

/-- What has committed to nothing has had no answer of the engine's. -/
theorem Unanswered.of_idle (stay : Idle [] h) : Unanswered contract h := by
  have hnone := List.countP_eq_zero.mp stay.2
  rintro _ h₁ hh₁ (_ | _) <;> exact hnone _ (hh₁.mem List.mem_cons_self) rfl

/-- The engine is given what the callback came to, and answers. -/
theorem engineSettle_commits {h₀ : Seen E} {callback : Except Failure Deployed} (hh : h₀ <:+ h)
    (h0 : Unanswered contract h)
    (guard : P h (.engineSettle contract.version contract.layout callback)) :
    wp .free (whereSpent Op.commits P)
      (ask (.engineSettle contract.version contract.layout callback))
      (fun o h' => h₀ <:+ h' ∧ (∀ deployment, o = .ok deployment →
        EngineAnswers contract deployment.address h') ∧
        ∀ e, o = .error e → Unanswered contract h') h := by
  refine wp_perform.mpr ⟨fun _ => guard, ?_⟩
  rintro (e | deployment) h' ⟨-, rfl⟩
  · refine ⟨hh.trans (List.suffix_cons ..), error_returns, fun _ _ => h0.cons ?_⟩
    rintro _ ⟨⟩
  · refine ⟨hh.trans (List.suffix_cons ..), ?_, by rintro _ ⟨⟩⟩
    rintro _ ⟨⟩
    exact .settled

theorem engineCall_commits (h0 : Unanswered contract h)
    (implements : ∀ h' op, h <:+ h' → Implementing contractName opts contract h' op → P h' op) :
    wp .free (whereSpent Op.commits P) (engineCall contractName opts contract)
      (fun o h' => h <:+ h' ∧ (∀ deployment, o = .ok deployment →
        EngineAnswers contract deployment.address h') ∧
        ∀ e, o = .error e → Unanswered contract h') h := by
  have first := List.suffix_rfl (l := h)
  unfold engineCall
  simp only [Script.bind_eq, Script.pure_eq]
  refine wp.askFree (fun _ => implements _ _ first ⟨h0, .start⟩) (fun started => ?_) fun e => ?_
  · have hstart : h <:+ ⟨.engineStart contract.version (decide (redeployMode opts = .always)),
        .ok started⟩ :: h := List.suffix_cons ..
    cases started with
    | some deployment =>
      refine ⟨hstart, ?_, by rintro _ ⟨⟩⟩
      rintro _ ⟨⟩
      exact .recorded
    | none =>
      have h1 : Unanswered contract (⟨.engineStart contract.version
          (decide (redeployMode opts = .always)), .ok none⟩ :: h) :=
        h0.cons (by rintro _ ⟨⟩)
      rw [wp_bind, wp_attempt]
      unfold deployUnlessNever
      split
      · exact engineSettle_commits hstart h1 (implements _ _ hstart ⟨h1, .refuse ‹_›⟩)
      · refine wp_perform.mpr ⟨fun _ => implements _ _ hstart ⟨h1, .deploy ‹_›⟩, ?_⟩
        rintro callback h' ⟨-, rfl⟩
        have hdeploy := hstart.trans (List.suffix_cons
          (⟨.deployContract contractName opts.constructorArgs, callback⟩ : Event (effects E) _) _)
        have h2 : Unanswered contract
            (⟨.deployContract contractName opts.constructorArgs, callback⟩ :: _) :=
          h1.cons (by rintro _ ⟨⟩)
        exact engineSettle_commits hdeploy h2 (implements _ _ hdeploy ⟨h2, .settle⟩)
  · refine ⟨List.suffix_cons .., error_returns, fun _ _ => h0.cons ?_⟩
    rintro _ ⟨⟩

theorem fetchOrDeploy_commits (h0 : Unanswered contract h)
    (implements : ∀ h' op, h <:+ h' → Implementing contractName opts contract h' op → P h' op) :
    wp .free (whereSpent Op.commits P) (fetchOrDeploy contractName opts contract)
      (fun o h' => h <:+ h' ∧ ∀ deployment, o = .ok deployment →
        EngineAnswers contract deployment.address h') h := by
  refine wp.catching (engineCall_commits h0 implements) ?_ ?_
  · exact fun deployment h' hdone => ⟨hdone.1, hdone.2.1⟩
  · rintro e h₁ ⟨hh, -, hunanswered⟩
    split
    · exact ⟨hh, error_returns⟩
    · refine wp_mono (fun o h' hdone => ⟨hh.trans hdone.1, hdone.2.1⟩)
        (engineCall_commits (hunanswered e rfl) fun h' op hh' => implements h' op (hh.trans hh'))

/-- The deployment with its transaction, looked up where it was asked for. -/
def withResponse (opts : Options E) (deployment : Deployed) : HardhatTask E Deployed :=
  match deployment.txHash with
  | some hash =>
    if !deployment.txResponse && opts.getTxResponse && hash ≠ "" then do
      let txResponse ← ask (.getTransactionByHash hash)
      return { deployment with txResponse }
    else return deployment
  | none => return deployment

theorem fetched_commits (h0 : Unanswered contract h)
    (implements : ∀ h' op, h <:+ h' → Implementing contractName opts contract h' op → P h' op) :
    wp .free (whereSpent Op.commits P)
      ((fetchOrDeploy contractName opts contract).bind (withResponse opts))
      (fun o h' => h <:+ h' ∧ ∀ deployment, o = .ok deployment →
        EngineAnsweredLast contract deployment.address h') h := by
  refine wp.bind (fetchOrDeploy_commits h0 implements) ?_ fun e h₁ hdone => ⟨hdone.1, error_returns⟩
  rintro deployment h₁ ⟨hh, hanswered⟩
  have hlast : EngineAnsweredLast contract deployment.address h₁ :=
    ⟨h₁, hanswered deployment rfl, .refl _ h₁⟩
  unfold withResponse
  cases deployment.txHash with
  | none =>
    refine ⟨hh, ?_⟩
    rintro _ ⟨⟩
    exact hlast
  | some hash =>
    dsimp only
    split
    · refine wp.askFree (unguarded rfl) (fun txResponse => ?_) fun e =>
        ⟨hh.trans (List.suffix_cons ..), error_returns⟩
      refine ⟨hh.trans (List.suffix_cons ..), ?_⟩
      rintro _ ⟨⟩
      exact hlast.later ((Without.refl _ h₁).cons rfl)
    · refine ⟨hh, ?_⟩
      rintro _ ⟨⟩
      exact hlast

/-- The candidate was judged before, so only the engine's steps are left. -/
theorem resolveImplementation_commits (h0 : Unanswered contract h)
    (implements : ∀ h' op, h <:+ h' → Implementing contractName opts contract h' op → P h' op) :
    wp .free (whereSpent Op.commits P) (resolveImplementation contractName opts (some contract))
      (fun o h' => h <:+ h' ∧ ∀ deployment, o = .ok deployment →
        EngineAnsweredLast contract deployment.address h') h := by
  refine wp.ofExcept_bind (fun _ _ => ?_) fun e _ => ⟨List.suffix_rfl, error_returns⟩
  refine wp.ofExcept_bind (fun _ _ => ?_) fun e _ => ⟨List.suffix_rfl, error_returns⟩
  refine wp.askFree (unguarded rfl) (fun _ => ?_) fun e => ⟨List.suffix_cons .., error_returns⟩
  refine wp_mono (fun o h' hdone => ⟨(List.suffix_cons ..).trans hdone.1, hdone.2⟩)
    (fetched_commits (h0.cons (by rintro _ ⟨⟩)) fun h' op hh => ?_)
  exact implements h' op ((List.suffix_cons ..).trans hh)

-- ---------------------------------------------------------------------------
-- What is known before
-- ---------------------------------------------------------------------------

/-- Judged safe under the options. -/
structure Safe (contractName : String) (opts : Options E) (contract : UpgradeableContract E)
    (h : Seen E) : Prop where
  compiled : Compiled contractName opts contract h
  safe : contract.errors = []

/-- What the run has been asked and answered about a planned proxy. -/
structure DraftCleared (contractName : String) (args : List Json) (opts : DeployOptions E)
    (draft : ProxyDraft E) (h : Seen E) : Prop where
  /-- The kind is the caller's, else the one inferred from the contract. -/
  kind : ∃ first, Compiled contractName opts.toOptions first h ∧
    proxyKindOf first opts.toOptions = .ok draft.kind
  notBeacon : draft.kind ≠ .beacon
  overrides : checkTxOverrides opts.toOptions = .ok ()
  ownerless : draft.kind = .uups → opts.initialOwner = none
  manifest : Answered h .getManifest ()
  judged : Safe contractName { opts.toOptions with kind := some draft.kind } draft.contract h
  initialized : getInitializerData draft.contract.artifact.abi args opts.initializer =
    .ok draft.initData ∧ draft.initData ≠ "0x"

/-- The owner the caller named, else the deployer. -/
def OwnerNamed (opts : DeployOptions E) (h : Seen E) (owner : String) : Prop :=
  match opts.initialOwner with
  | some reference => Answered h (.resolveAddress reference) owner
  | none => Answered h .deployerAddress owner

/-- Not itself an admin, as far as the probe says and was asked for. -/
def NoProxyAdmin (opts : DeployOptions E) (h : Seen E) (owner : String) : Prop :=
  opts.unsafeSkipProxyAdminCheck = true ∨ Answered h (.inferProxyAdmin owner) false ∨
    ∃ e, ⟨.inferProxyAdmin owner, .error e⟩ ∈ h ∧ isOptionalCallRevert e = true

/-- The creation of the planned proxy on the implementation. -/
def ProxyCreation (opts : DeployOptions E) (draft : ProxyDraft E) (implementation : String)
    (h : Seen E) (op : Op E) : Prop :=
  if draft.kind = .transparent then
    ∃ owner, OwnerNamed opts h owner ∧ NoProxyAdmin opts h owner ∧
      op = .deployContract FQN.transparent [.str implementation, .str owner, .str draft.initData]
  else op = .deployContract FQN.trc1967 [.str implementation, .str draft.initData]

/-- An operation asked for where `C` held, and answered; since then nothing was
committed to. -/
def CommittedLast (C : Seen E → Op E → Prop) (op : Op E) (a : op.Reply) (h : Seen E) : Prop :=
  ∃ before, C before op ∧ Idle (⟨op, .ok a⟩ :: before) h

section
variable {args : List Json} {opts : DeployOptions E} {draft : ProxyDraft E} {h h' : Seen E}
  {owner implementation : String}

theorem Safe.later {opts : Options E} (s : Safe contractName opts contract h) (hh : h <:+ h') :
    Safe contractName opts contract h' :=
  ⟨s.compiled.later hh, s.safe⟩

theorem DraftCleared.later (c : DraftCleared contractName args opts draft h) (hh : h <:+ h') :
    DraftCleared contractName args opts draft h' := by
  obtain ⟨first, hfirst, hkind⟩ := c.kind
  exact { c with
    kind := ⟨first, hfirst.later hh, hkind⟩
    manifest := c.manifest.later hh
    judged := c.judged.later hh }

theorem OwnerNamed.later (n : OwnerNamed opts h owner) (hh : h <:+ h') :
    OwnerNamed opts h' owner := by
  unfold OwnerNamed at n ⊢
  split at n <;> exact n.later hh

theorem validateImplementation_finds {opts : Options E} :
    Finds P (validateImplementation contractName opts) (Safe contractName opts) h :=
  wp_mono (fun _ _ hdone => ⟨hdone.1, fun a ha => ⟨(hdone.2 a ha).1, (hdone.2 a ha).2⟩⟩)
    (validateImplementation_learns (fun _ => rfl) fun _ => rfl)

theorem planProxy_finds :
    Finds P (planProxy contractName args opts) (DraftCleared contractName args opts) h := by
  refine .bind (upgradeableContractFor_learns (fun _ => rfl) fun _ => rfl) ?_
  intro first h₁ _ hfirst
  refine .ofExcept_bind fun kind hkind => .ofExcept_bind fun _ hnot => ?_
  refine .ofExcept_bind fun _ hoverrides => .ofExcept_bind fun _ howner => ?_
  refine .ask rfl fun _ => .bind validateImplementation_finds fun contract h₂ hh₂ hjudged => ?_
  refine .ofExcept_bind fun initData hinit => .ofExcept_bind fun _ hdata => .pure ?_
  have hbeacon : kind ≠ .beacon := by simpa using refuseIf_ok hnot
  have hnone : kind = .uups → opts.initialOwner = none := by
    simpa using refuseIf_ok howner
  have hfilled : initData ≠ "0x" := by simpa using refuseIf_ok hdata
  exact ⟨⟨first, hfirst.later ((List.suffix_cons ..).trans hh₂), hkind⟩, hbeacon, hoverrides, hnone,
    .later .head hh₂, hjudged, hinit, hfilled⟩

theorem assertIsBeacon_finds {address : String} :
    Finds P (assertIsBeacon address) (fun _ h' => Answered h' (.isBeacon address) true) h :=
  assertIsBeacon_learns fun _ => rfl

theorem ownerOf_finds : Finds P (ownerOf opts) (fun owner h' => OwnerNamed opts h' owner) h := by
  unfold ownerOf OwnerNamed
  cases opts.initialOwner with
  | none => exact .perform rfl
  | some reference => exact .perform rfl

theorem ownerIsProxyAdmin_finds {owner : String} :
    Finds P (ownerIsProxyAdmin owner) (fun isAdmin h' => isAdmin = false →
      Answered h' (.inferProxyAdmin owner) false ∨
        ∃ e, ⟨.inferProxyAdmin owner, .error e⟩ ∈ h' ∧ isOptionalCallRevert e = true) h := by
  refine wp_catching.mpr (wp_perform.mpr ⟨unguarded rfl, ?_⟩)
  rintro (e | answer) h' ⟨-, rfl⟩
  · have stay : Idle h (⟨.inferProxyAdmin owner, .error e⟩ :: h) := (Without.refl _ h).cons rfl
    simp only
    split
    · refine ⟨stay, ?_⟩
      rintro _ ⟨⟩ -
      exact .inr ⟨e, List.mem_cons_self, ‹_›⟩
    · exact ⟨stay, error_returns⟩
  · refine ⟨(Without.refl _ h).cons rfl, ?_⟩
    rintro _ ⟨⟩ rfl
    exact .inl .head

/-- A creation through Hardhat, where the guard permits it. -/
theorem deployContractWithOptions_commits {opts : Options E} {name : String} {cargs : List Json}
    (guard : P h (.deployContract name cargs)) :
    wp .free (whereSpent Op.commits P) (deployContractWithOptions name cargs opts)
      (fun o h' => ∀ reply, o = .ok reply → h' = ⟨.deployContract name cargs, .ok reply⟩ :: h)
      h := by
  refine wp.ofExcept_bind (fun _ _ => wp_perform.mpr ⟨fun _ => guard, ?_⟩) fun _ _ => error_returns
  rintro (e | reply) h' ⟨-, rfl⟩
  · exact error_returns
  · rintro _ ⟨⟩
    rfl

end

-- ---------------------------------------------------------------------------
-- deployProxy
-- ---------------------------------------------------------------------------

section
variable (contractName : String) (args : List Json) (opts : DeployOptions E) (draft : ProxyDraft E)

/-- The proxy is created directly on what the engine answered. -/
def ProxyCreates (h : Seen E) (op : Op E) : Prop :=
  ∃ implementation, EngineAnsweredLast draft.contract implementation h ∧
    ProxyCreation opts draft implementation h op

/-- It is recorded directly after its creation. -/
def ProxyRecords (h : Seen E) (op : Op E) : Prop :=
  ∃ name cargs reply, CommittedLast (ProxyCreates opts draft) (.deployContract name cargs) reply h ∧
    op = .addProxyToManifest draft.kind reply.address

/-- What holds wherever `deployProxy` commits. -/
def ProxyCommits (h : Seen E) (op : Op E) : Prop :=
  ∃ draft, DraftCleared contractName args opts draft h ∧
    (Implementing contractName opts.toOptions draft.contract h op ∨ ProxyCreates opts draft h op ∨
      ProxyRecords opts draft h op)

def ProxyDeployed (h : Seen E) (result : String) : Prop :=
  ∃ draft, DraftCleared contractName args opts draft h ∧
    CommittedLast (ProxyRecords opts draft) (.addProxyToManifest draft.kind result) () h

end

section
variable {args : List Json} {opts : DeployOptions E} {draft : ProxyDraft E} {h : Seen E}

theorem deployProxyOf_commits {implementation : String}
    (hanswered : EngineAnsweredLast draft.contract implementation h)
    (creates : ∀ h' op, h <:+ h' → ProxyCreates opts draft h' op → P h' op) :
    wp .free (whereSpent Op.commits P) (deployProxyOf implementation draft opts)
      (fun o h' => ∀ reply, o = .ok reply → h <:+ h' ∧ ∃ name cargs,
        CommittedLast (ProxyCreates opts draft) (.deployContract name cargs) reply h') h := by
  have created : ∀ {h₁ : Seen E} {name cargs}, Idle h h₁ →
      ProxyCreation opts draft implementation h₁ (.deployContract name cargs) →
      wp .free (whereSpent Op.commits P) (deployContractWithOptions name cargs opts.toOptions)
        (fun o h' => ∀ reply, o = .ok reply → h <:+ h' ∧ ∃ name cargs,
          CommittedLast (ProxyCreates opts draft) (.deployContract name cargs) reply h') h₁ := by
    intro h₁ name cargs stay hcreation
    have hcreates : ProxyCreates opts draft h₁ (.deployContract name cargs) :=
      ⟨implementation, hanswered.later stay, hcreation⟩
    refine wp_mono (fun o h' hdone reply ho => ?_)
      (deployContractWithOptions_commits (creates h₁ _ stay.1 hcreates))
    obtain rfl := hdone reply ho
    exact ⟨stay.1.trans (List.suffix_cons ..), name, cargs, h₁, hcreates, .refl _ _⟩
  unfold deployProxyOf
  split
  · rename_i htransparent
    refine wp.bind ownerOf_finds ?_ fun _ _ _ => error_returns
    rintro owner h₁ ⟨stay, howner⟩
    have howner := howner owner rfl
    have skipped : Finds P (if opts.unsafeSkipProxyAdminCheck then Script.pure false
        else ownerIsProxyAdmin owner) (fun isAdmin h' => isAdmin = false →
          NoProxyAdmin opts h' owner) h₁ := by
      split
      · exact .pure fun _ => .inl ‹_›
      · exact wp_mono
          (fun o h' hdone => ⟨hdone.1, fun isAdmin ho hno => .inr (hdone.2 isAdmin ho hno)⟩)
          ownerIsProxyAdmin_finds
    refine wp.bind skipped ?_ fun _ _ _ => error_returns
    rintro isAdmin h₂ ⟨stay₂, hadmin⟩
    refine wp.ofExcept_bind (fun _ hrefused => ?_) fun _ _ => error_returns
    have hno : isAdmin = false := by simpa using refuseIf_ok hrefused
    refine created (stay.trans stay₂) ?_
    rw [ProxyCreation, if_pos htransparent]
    exact ⟨owner, howner.later stay₂.1, hadmin isAdmin rfl hno, rfl⟩
  · rename_i hnot
    refine created (.refl _ h) ?_
    rw [ProxyCreation, if_neg hnot]

theorem deployProxy_commits :
    wp .free (whereSpent Op.commits (ProxyCommits contractName args opts))
      (deployProxy contractName args opts)
      (fun o h => ∀ result, o = .ok result → ProxyDeployed contractName args opts h result) [] := by
  refine wp.bind planProxy_finds ?_ fun _ _ _ => error_returns
  rintro draft h₁ ⟨stay, hplan⟩
  have hcleared := hplan draft rfl
  refine wp.bind (resolveImplementation_commits (.of_idle stay) fun h' op hh himplements =>
    ⟨draft, hcleared.later hh, .inl himplements⟩) ?_ fun _ _ _ => error_returns
  rintro implementation h₂ ⟨hh₂, hdone⟩
  have hcleared := hcleared.later hh₂
  refine wp.bind (deployProxyOf_commits (hdone implementation rfl) fun h' op hh hcreates =>
    ⟨draft, hcleared.later hh, .inr (.inl hcreates)⟩) ?_ fun _ _ _ => error_returns
  intro proxy h₃ hcreated
  obtain ⟨hh₃, name, cargs, hcreated⟩ := hcreated proxy rfl
  have hcleared := hcleared.later hh₃
  have hrecords : ProxyRecords opts draft h₃ (.addProxyToManifest draft.kind proxy.address) :=
    ⟨name, cargs, proxy, hcreated, rfl⟩
  refine wp.askFree (fun _ => ⟨draft, hcleared, .inr (.inr hrecords)⟩) (fun _ => ?_)
    fun _ => error_returns
  refine wp.askFree (unguarded rfl) (fun _ => ?_) fun _ => error_returns
  rintro _ ⟨⟩
  refine ⟨draft, hcleared.later ((List.suffix_cons ..).trans (List.suffix_cons ..)), h₃,
    hrecords, ?_⟩
  exact (Without.refl _ _).cons rfl

end

-- ---------------------------------------------------------------------------
-- Beacons
-- ---------------------------------------------------------------------------

section
variable (contractName : String) (opts : DeployOptions E) (contract : UpgradeableContract E)

/-- What the run has been asked and answered about a planned beacon. -/
structure BeaconDraftCleared (h : Seen E) : Prop where
  overrides : checkTxOverrides opts.toOptions = .ok ()
  manifest : Answered h .getManifest ()
  judged : Safe contractName { opts.toOptions with kind := some .beacon } contract h

/-- The beacon is created directly on what the engine answered. -/
def BeaconCreates (h : Seen E) (op : Op E) : Prop :=
  ∃ implementation owner, EngineAnsweredLast contract implementation h ∧ OwnerNamed opts h owner ∧
    op = .deployContract FQN.beacon [.str implementation, .str owner]

def BeaconCommits (h : Seen E) (op : Op E) : Prop :=
  ∃ contract, BeaconDraftCleared contractName opts contract h ∧
    (Implementing contractName opts.toOptions contract h op ∨ BeaconCreates opts contract h op)

def BeaconDeployed (h : Seen E) (result : String) : Prop :=
  ∃ contract cargs reply, BeaconDraftCleared contractName opts contract h ∧
    CommittedLast (BeaconCreates opts contract) (.deployContract FQN.beacon cargs) reply h ∧
    result = reply.address

variable (beacon : String) (args : List Json)

/-- What the run has been asked and answered about a planned beacon proxy. -/
structure BeaconProxyCleared (address initData : String) (h : Seen E) : Prop where
  overrides : checkTxOverrides opts.toOptions = .ok ()
  kind : opts.kind = none ∨ opts.kind = some .beacon
  target : Answered h (.resolveAddress beacon) address
  beacon : Answered h (.isBeacon address) true
  manifest : Answered h .getManifest ()
  initialized : ∃ artifact, Answered h (.readArtifact contractName) artifact ∧
    getInitializerData artifact.abi args opts.initializer = .ok initData

/-- The proxy is the first thing committed to. -/
def BeaconProxyCreates (address initData : String) (h : Seen E) (op : Op E) : Prop :=
  Idle [] h ∧ op = .deployContract FQN.beaconProxy [.str address, .str initData]

def BeaconProxyRecords (address initData : String) (h : Seen E) (op : Op E) : Prop :=
  ∃ name cargs reply, CommittedLast (BeaconProxyCreates address initData)
    (.deployContract name cargs) reply h ∧ op = .addProxyToManifest .beacon reply.address

def BeaconProxyCommits (h : Seen E) (op : Op E) : Prop :=
  ∃ address initData, BeaconProxyCleared contractName opts beacon args address initData h ∧
    (BeaconProxyCreates address initData h op ∨ BeaconProxyRecords address initData h op)

def BeaconProxyDeployed (h : Seen E) (result : String) : Prop :=
  ∃ address initData, BeaconProxyCleared contractName opts beacon args address initData h ∧
    CommittedLast (BeaconProxyRecords address initData) (.addProxyToManifest .beacon result) () h

end

section
variable {args : List Json} {opts : DeployOptions E} {h h' : Seen E}
  {beacon address initData : String}

theorem BeaconDraftCleared.later (c : BeaconDraftCleared contractName opts contract h)
    (hh : h <:+ h') : BeaconDraftCleared contractName opts contract h' :=
  ⟨c.overrides, c.manifest.later hh, c.judged.later hh⟩

theorem BeaconProxyCleared.later
    (c : BeaconProxyCleared contractName opts beacon args address initData h) (hh : h <:+ h') :
    BeaconProxyCleared contractName opts beacon args address initData h' := by
  obtain ⟨artifact, hartifact, hinit⟩ := c.initialized
  exact ⟨c.overrides, c.kind, c.target.later hh, c.beacon.later hh, c.manifest.later hh, artifact,
    hartifact.later hh, hinit⟩

theorem deployBeacon_commits :
    wp .free (whereSpent Op.commits (BeaconCommits contractName opts))
      (deployBeacon contractName opts)
      (fun o h => ∀ result, o = .ok result → BeaconDeployed contractName opts h result) [] := by
  refine wp.ofExcept_bind (fun _ hoverrides => ?_) fun _ _ => error_returns
  refine wp.askFree (unguarded rfl) (fun _ => ?_) fun _ => error_returns
  have manifest : Idle [] [(⟨.getManifest, .ok ()⟩ : Event (effects E) Failure)] :=
    (Without.refl _ _).cons rfl
  refine wp.bind validateImplementation_finds ?_ fun _ _ _ => error_returns
  rintro contract h₁ ⟨stay, hjudged⟩
  have hcleared : BeaconDraftCleared contractName opts contract h₁ :=
    ⟨hoverrides, .later .head stay.1, hjudged contract rfl⟩
  refine wp.bind (resolveImplementation_commits (.of_idle (manifest.trans stay))
    fun h' op hh himplements => ⟨contract, hcleared.later hh, .inl himplements⟩) ?_
    fun _ _ _ => error_returns
  rintro implementation h₂ ⟨hh₂, hdone⟩
  refine wp.bind ownerOf_finds ?_ fun _ _ _ => error_returns
  rintro owner h₃ ⟨stay₃, howner⟩
  have hcleared := hcleared.later (hh₂.trans stay₃.1)
  have hcreates : BeaconCreates opts contract h₃
      (.deployContract FQN.beacon [.str implementation.address, .str owner]) :=
    ⟨_, owner, (hdone implementation rfl).later stay₃, howner owner rfl, rfl⟩
  refine wp.bind (deployContractWithOptions_commits ⟨contract, hcleared, .inr hcreates⟩) ?_
    fun _ _ _ => error_returns
  intro reply h₄ hcreated
  obtain rfl := hcreated reply rfl
  rintro _ ⟨⟩
  exact ⟨contract, _, reply, hcleared.later (List.suffix_cons ..), ⟨h₃, hcreates, .refl _ _⟩, rfl⟩

theorem deployBeaconProxy_commits :
    wp .free (whereSpent Op.commits (BeaconProxyCommits contractName opts beacon args))
      (deployBeaconProxy beacon contractName args opts)
      (fun o h => ∀ result, o = .ok result →
        BeaconProxyDeployed contractName opts beacon args h result) [] := by
  refine wp.ofExcept_bind (fun _ hoverrides => ?_) fun _ _ => error_returns
  refine wp.ofExcept_bind (fun _ hkind => ?_) fun _ _ => error_returns
  have hkind : opts.kind = none ∨ opts.kind = some .beacon :=
    or_iff_not_and_not.mpr (refuseIf_ok hkind)
  refine wp.askFree (unguarded rfl) (fun address => ?_) fun _ => error_returns
  have target : Idle [] [(⟨.resolveAddress beacon, .ok address⟩ : Event (effects E) Failure)] :=
    (Without.refl _ _).cons rfl
  refine wp.bind assertIsBeacon_finds ?_ fun _ _ _ => error_returns
  rintro _ h₁ ⟨stay, hbeacon⟩
  refine wp.askFree (unguarded rfl) (fun _ => ?_) fun _ => error_returns
  refine wp.askFree (unguarded rfl) (fun artifact => ?_) fun _ => error_returns
  refine wp.ofExcept_bind (fun initData hinit => ?_) fun _ _ => error_returns
  have read : Idle h₁
      (⟨.readArtifact contractName, .ok artifact⟩ :: ⟨.getManifest, .ok ()⟩ :: h₁) :=
    ((Without.refl _ h₁).cons rfl).cons rfl
  have hcleared : BeaconProxyCleared contractName opts beacon args address initData
      (⟨.readArtifact contractName, .ok artifact⟩ :: ⟨.getManifest, .ok ()⟩ :: h₁) :=
    ⟨hoverrides, hkind, .later .head (stay.1.trans read.1), (hbeacon () rfl).later read.1,
      .later .head (List.suffix_cons ..), artifact, .head, hinit⟩
  have hcreates := (⟨(target.trans stay).trans read, rfl⟩ : BeaconProxyCreates address initData _
    (.deployContract FQN.beaconProxy [.str address, .str initData]))
  refine wp.bind (deployContractWithOptions_commits ⟨address, initData, hcleared, .inl hcreates⟩) ?_
    fun _ _ _ => error_returns
  intro reply h₂ hcreated
  obtain rfl := hcreated reply rfl
  have hcleared := hcleared.later (List.suffix_cons
    (⟨.deployContract FQN.beaconProxy [.str address, .str initData], .ok reply⟩ :
      Event (effects E) Failure) _)
  have hrecords : BeaconProxyRecords address initData _
      (.addProxyToManifest .beacon reply.address) :=
    ⟨_, _, reply, ⟨_, hcreates, .refl _ _⟩, rfl⟩
  refine wp.askFree (fun _ => ⟨address, initData, hcleared, .inr hrecords⟩) (fun _ => ?_)
    fun _ => error_returns
  refine wp.askFree (unguarded rfl) (fun _ => ?_) fun _ => error_returns
  rintro _ ⟨⟩
  exact ⟨address, initData, hcleared.later ((List.suffix_cons ..).trans (List.suffix_cons ..)), _,
    hrecords, (Without.refl _ _).cons rfl⟩

end

-- ---------------------------------------------------------------------------
-- Implementations on their own
-- ---------------------------------------------------------------------------

/-- What the chain showed an address to be, and what is behind it now. -/
inductive ReferenceSeen (opts : Options E) (address : String) (h : Seen E) : ReferenceImpl → Prop
  | proxy {draft : UpgradeableContract E} {kind : ProxyKind} {current : String}
    (shown : Answered h (.isTransparentOrUUPSProxy address) true)
    (judged : Answered h (.processProxyKind address opts.kind draft.validations draft.version) kind)
    (behind : Answered h (.getImplementationAddress address) current) :
    ReferenceSeen opts address h ⟨kind, current⟩
  | beaconProxy {beacon current : String} (shown : Answered h (.isBeaconProxy address) true)
    (slot : Answered h (.getBeaconAddress address) beacon)
    (behind : Answered h (.getImplementationAddressFromBeacon beacon) current) :
    ReferenceSeen opts address h ⟨.beacon, current⟩
  | beacon {current : String} (shown : Answered h (.isBeacon address) true)
    (behind : Answered h (.getImplementationAddressFromBeacon address) current) :
    ReferenceSeen opts address h ⟨.beacon, current⟩
  | implementation {kind : ProxyKind} (option : opts.kind = some kind)
    (noProxy : Answered h (.isTransparentOrUUPSProxy address) false)
    (noBeaconProxy : Answered h (.isBeaconProxy address) false) :
    ReferenceSeen opts address h ⟨kind, address⟩

section
variable (contractName : String) (opts : Options E)

/-- What holds wherever `deployImplementation` commits. -/
def ImplementationCommits (h : Seen E) (op : Op E) : Prop :=
  ∃ contract, Safe contractName opts contract h ∧ Implementing contractName opts contract h op

def ImplementationDeployed (h : Seen E) (result : Deployed) : Prop :=
  ∃ contract, Safe contractName opts contract h ∧ EngineAnsweredLast contract result.address h

variable (reference : String)

/-- The candidate was held against what the reference is. -/
def UpgradePrepared (contract : UpgradeableContract E) (h : Seen E) : Prop :=
  ∃ address seen, Answered h (.resolveAddress reference) address ∧
    ReferenceSeen opts address h seen ∧
    Judged contractName opts seen.kind seen.currentImplAddress contract h

/-- What holds wherever `prepareUpgrade` commits. -/
def PrepareCommits (h : Seen E) (op : Op E) : Prop :=
  ∃ contract, UpgradePrepared contractName opts reference contract h ∧
    Implementing contractName opts contract h op

def PrepareDone (h : Seen E) (result : Deployed) : Prop :=
  ∃ contract, UpgradePrepared contractName opts reference contract h ∧
    EngineAnsweredLast contract result.address h

end

section
variable {opts : Options E} {h h' : Seen E} {address reference : String}

theorem ReferenceSeen.later {seen : ReferenceImpl} (r : ReferenceSeen opts address h seen)
    (hh : h <:+ h') : ReferenceSeen opts address h' seen := by
  cases r with
  | proxy shown judged behind => exact .proxy (shown.later hh) (judged.later hh) (behind.later hh)
  | beaconProxy shown slot behind =>
    exact .beaconProxy (shown.later hh) (slot.later hh) (behind.later hh)
  | beacon shown behind => exact .beacon (shown.later hh) (behind.later hh)
  | implementation option noProxy noBeaconProxy =>
    exact .implementation option (noProxy.later hh) (noBeaconProxy.later hh)

theorem UpgradePrepared.later (u : UpgradePrepared contractName opts reference contract h)
    (hh : h <:+ h') : UpgradePrepared contractName opts reference contract h' := by
  obtain ⟨address, seen, htarget, hseen, hjudged⟩ := u
  exact ⟨address, seen, htarget.later hh, hseen.later hh, hjudged.later hh⟩

theorem deployImplementation_commits :
    wp .free (whereSpent Op.commits (ImplementationCommits contractName opts))
      (deployImplementation contractName opts)
      (fun o h => ∀ result, o = .ok result → ImplementationDeployed contractName opts h result)
      [] := by
  refine wp.ofExcept_bind (fun _ _ => ?_) fun _ _ => error_returns
  refine wp.ofExcept_bind (fun _ _ => ?_) fun _ _ => error_returns
  refine wp.askFree (unguarded rfl) (fun _ => ?_) fun _ => error_returns
  have manifest : Idle [] [(⟨.getManifest, .ok ()⟩ : Event (effects E) Failure)] :=
    (Without.refl _ _).cons rfl
  refine wp.bind validateImplementation_finds ?_ fun _ _ _ => error_returns
  rintro contract h₁ ⟨stay, hjudged⟩
  have hjudged := hjudged contract rfl
  refine wp_mono (fun o h' hdone result ho => ?_)
    (fetched_commits (.of_idle (manifest.trans stay)) fun h' op hh himplements =>
      ⟨contract, hjudged.later hh, himplements⟩)
  exact ⟨contract, hjudged.later hdone.1, hdone.2 result ho⟩

theorem judgeAgainst_finds {seen : ReferenceImpl} :
    Finds P (judgeAgainst contractName opts seen)
      (Judged contractName opts seen.kind seen.currentImplAddress) h := by
  refine .ask rfl fun layout => .bind validateImplementation_finds fun contract h' hh hsafe => ?_
  refine .ofExcept_bind fun _ hcompatible => .pure ?_
  exact ⟨hsafe.compiled, hsafe.safe, layout, .later .head hh, hcompatible⟩

theorem resolveReferenceImpl_finds :
    Finds P (resolveReferenceImpl address contractName opts)
      (fun seen h' => ReferenceSeen opts address h' seen) h := by
  refine .ask rfl fun isProxy => ?_
  cases isProxy with
  | true =>
    refine .bind (upgradeableContractFor_learns (fun _ => rfl) fun _ => rfl) fun draft h₁ hh₁ _ => ?_
    refine .ask rfl fun kind => .ask rfl fun current => .pure ?_
    exact .proxy ((Answered.head.later hh₁).later ((List.suffix_cons ..).trans (List.suffix_cons ..)))
      (.later .head (List.suffix_cons ..)) .head
  | false =>
    refine .ask rfl fun isBeaconProxy => ?_
    cases isBeaconProxy with
    | true =>
      refine .ask rfl fun beacon => .ask rfl fun current => .pure ?_
      exact .beaconProxy (.later .head ((List.suffix_cons ..).trans (List.suffix_cons ..)))
        (.later .head (List.suffix_cons ..)) .head
    | false =>
      refine .bind (isBeaconContract_learns fun _ => rfl) fun isBeacon h₁ hh₁ hbeacon => ?_
      cases isBeacon with
      | true =>
        refine .ask rfl fun current => .pure ?_
        exact .beacon ((hbeacon rfl).later (List.suffix_cons ..)) .head
      | false =>
        rw [if_neg Bool.false_ne_true]
        split
        · rename_i kind hkind
          refine .pure (.implementation hkind ?_ (.later .head hh₁))
          exact .later .head ((List.suffix_cons ..).trans hh₁)
        · exact ⟨.refl _ h₁, error_returns⟩

theorem prepareUpgrade_commits :
    wp .free (whereSpent Op.commits (PrepareCommits contractName opts reference))
      (prepareUpgrade reference contractName opts)
      (fun o h => ∀ result, o = .ok result → PrepareDone contractName opts reference h result)
      [] := by
  refine wp.askFree (unguarded rfl) (fun _ => ?_) fun _ => error_returns
  refine wp.askFree (unguarded rfl) (fun address => ?_) fun _ => error_returns
  have stay₀ : Idle [] [(⟨.resolveAddress reference, .ok address⟩ : Event (effects E) Failure),
      ⟨.getManifest, .ok ()⟩] := ((Without.refl _ _).cons rfl).cons rfl
  refine wp.bind resolveReferenceImpl_finds ?_ fun _ _ _ => error_returns
  rintro seen h₁ ⟨stay₁, hseen⟩
  refine wp.bind judgeAgainst_finds ?_ fun _ _ _ => error_returns
  rintro contract h₂ ⟨stay₂, hjudged⟩
  have hprepared : UpgradePrepared contractName opts reference contract h₂ :=
    ⟨address, seen, .later .head (stay₁.trans stay₂).1, (hseen seen rfl).later stay₂.1,
      hjudged contract rfl⟩
  refine wp_mono (fun o h' hdone result ho => ?_)
    (resolveImplementation_commits (.of_idle ((stay₀.trans stay₁).trans stay₂))
      fun h' op hh himplements => ⟨contract, hprepared.later hh, himplements⟩)
  exact ⟨contract, hprepared.later hdone.1, hdone.2 result ho⟩

end

/-- Under every behaviour of its surroundings, a deployment commits to what was
cleared and nothing else, each step on the one before, and succeeds on the last
of them. -/
theorem hardhat_deployments_ordered (contractName reference : String) (args : List Json)
    (opts : DeployOptions E) :
    Obeys (S := effects E) Op.commits (deployProxy contractName args opts)
        (ProxyCommits contractName args opts) (ProxyDeployed contractName args opts) ∧
      Obeys (S := effects E) Op.commits (deployBeacon contractName opts)
        (BeaconCommits contractName opts) (BeaconDeployed contractName opts) ∧
      Obeys (S := effects E) Op.commits (deployBeaconProxy reference contractName args opts)
        (BeaconProxyCommits contractName opts reference args)
        (BeaconProxyDeployed contractName opts reference args) ∧
      Obeys (S := effects E) Op.commits (deployImplementation contractName opts.toOptions)
        (ImplementationCommits contractName opts.toOptions)
        (ImplementationDeployed contractName opts.toOptions) ∧
      Obeys (S := effects E) Op.commits (prepareUpgrade reference contractName opts.toOptions)
        (PrepareCommits contractName opts.toOptions reference)
        (PrepareDone contractName opts.toOptions reference) :=
  ⟨.of_wp deployProxy_commits, .of_wp deployBeacon_commits, .of_wp deployBeaconProxy_commits,
    .of_wp deployImplementation_commits, .of_wp prepareUpgrade_commits⟩

end

end TronUpgrades.Hardhat
