import TronUpgrades.Tronbox.Runs

/-!
# What the operations act on

Wherever an operation of the production toolkit spends, or has the engine
settle on a layout, its own validation has judged the candidate before, and the
kind it goes by was settled. While the engine calls back, the operation deploys
the contract it was given and no other.
-/

namespace TronUpgrades.Tronbox

open Effects Record Address

section
variable {E : Engine}

/-- What the operation's validation of a contract has judged. -/
def JudgedAs (contract : ContractAbstraction E) (operation : String)
    (resolved : ResolvedForProxyOps E) (h : HostHistory E)
    (validated : ValidatedImplementation E) : Prop :=
  ∃ name, nameOf E contract operation = .ok name ∧ Judged h name resolved validated

variable {contract : ContractAbstraction E} {operation : String}
  {resolved : ResolvedForProxyOps E} {validated : ValidatedImplementation E}
  {h h' : HostHistory E}

theorem JudgedAs.later (j : JudgedAs contract operation resolved h validated) (hh : Since h h') :
    JudgedAs contract operation resolved h' validated := by
  obtain ⟨name, hname, hj⟩ := j
  exact ⟨name, hname, hj.later hh⟩

/-- Where an operation acts it is cleared, it settles on the layout it
validated, and the engine's callback deploys the operation's contract. -/
structure ActsCleared (contract : ContractAbstraction E)
    (Cleared : HostHistory E → ValidatedImplementation E → Prop) (h : HostHistory E)
    (op : HostOp E) : Prop where
  cleared : ∃ validated, Cleared h validated ∧ ∀ version layout outcome,
    op = .engineSettle version layout outcome → layout = validated.layout
  own : ∀ c args, op = .hostNew c args → callingBack h = true → c = contract

variable {Cleared : HostHistory E → ValidatedImplementation E → Prop} {env : Environment}

theorem Steady.idle (stay : Steady h h') (idle : callingBack h = false) :
    callingBack h' = false :=
  stay.calling.trans idle

theorem ActsCleared.idle (contract : ContractAbstraction E) (hc : Cleared h validated)
    (idle : callingBack h = false) (op : HostOp E) (hop : op.spends = true) :
    ActsCleared contract Cleared h op where
  cleared := by
    refine ⟨validated, hc, ?_⟩
    rintro version layout outcome rfl
    cases hop
  own _ _ _ hcalling := by
    rw [idle] at hcalling
    cases hcalling

/-- The implementation, fetched or deployed for what was cleared. -/
theorem fetchOrDeployThrough_steady (idle : callingBack h = false)
    (hc : ∀ t, Since h t → Cleared t validated) :
    wp .free (whereActs (ActsCleared contract Cleared))
      (fetchOrDeployThrough ⟨productionToolkit env, resolved⟩ contract validated)
      (fun _ t => Steady h t) h := by
  apply fetchOrDeploy_steady idle
  · intro t since hcalling
    apply hostDeploy_steady
    exact {
      cleared := ⟨validated, hc t since, by rintro _ _ _ ⟨⟩⟩
      own := by
        rintro c args ⟨⟩ -
        rfl }
  · intro t outcome since
    exact {
      cleared := ⟨validated, hc t since, by
        rintro version layout outcome ⟨⟩
        rfl⟩
      own := by rintro c args ⟨⟩ }

-- ---------------------------------------------------------------------------
-- deployProxy
-- ---------------------------------------------------------------------------

theorem kindOrInferred_reads (env : Environment) :
    Reads (kindOrInferred (productionToolkit (E := E) env) validated resolved) := by
  unfold kindOrInferred
  split
  · trivial
  · exact Script.Asks.ofExcept

theorem priorDeployedAddress_reads (contract : ContractAbstraction E) :
    Reads (readPriorDeployedAddress (hostEntry (E := E)) contract) := by
  unfold readPriorDeployedAddress
  simp only [Script.bind_eq, Script.pure_eq]
  split
  · trivial
  · refine Script.Asks.bind ((hostCall_reads rfl).catching fun _ => trivial) fun deployed => ?_
    split
    · exact hostCall_reads rfl
    · trivial

theorem refuseStaleRecord_reads (env : Environment) (decision : DeployReplayDecision) :
    Reads (refuseStaleRecord (productionToolkit (E := E) env) decision) := by
  cases decision with
  | proceed => trivial
  | refuse address because =>
    refine Script.Asks.bind ?_ fun _ => Script.Asks.ofExcept
    split
    · refine Script.Asks.bind ?_ fun _ => trivial
      exact Script.Asks.ofExcept.bind fun _ => throughRecordRead_reads (hostCall_reads rfl)
    · trivial

theorem resolveInitialOwner_reads (env : Environment) (kind : ProxyKind) (sender : EffectiveSender) :
    Reads (resolveInitialOwner (E := E) ⟨productionToolkit env, resolved⟩ kind sender) := by
  unfold resolveInitialOwner
  simp only [Script.bind_eq, Script.pure_eq]
  split
  · trivial
  · refine Script.Asks.ofExcept.bind fun owner => Script.Asks.bind ?_ fun _ => ?_
    · split
      · trivial
      · exact hostCall_reads rfl
    · exact Script.Asks.ofExcept.bind fun _ => trivial

variable {P : HostHistory E → HostOp E → Prop}

/-- A validation, and what is read after it. -/
theorem wp.validating {α : Type} {name : String}
    {f : ValidatedImplementation E → HostTask E α} {Q : Except Failure α → HostHistory E → Prop}
    (failed : ∀ e t, callingBack t = callingBack h → Q (.error e) t)
    (ok : ∀ validated t, callingBack t = callingBack h → h <:+ t →
      Judged t name resolved validated → wp .free (whereActs P) (f validated) Q t) :
    wp .free (whereActs P) ((validateImplementation name resolved).bind f) Q h := by
  apply wp.bind validateImplementation_wp
  · rintro validated t ⟨hcalling, hsuffix, hjudged⟩
    exact ok validated t hcalling hsuffix (hjudged validated rfl)
  · rintro e t ⟨hcalling, -, -⟩
    exact failed e t hcalling

theorem planProxyDeploy_judges {args : List Json} :
    wp .free (whereActs P) (planProxyDeploy ⟨productionToolkit env, resolved⟩ contract args)
      (fun o t => callingBack t = callingBack h ∧ ∀ plan, o = .ok plan →
        plan.contract = contract ∧
          JudgedAs contract "deployProxy" resolved t plan.validated) h := by
  unfold planProxyDeploy
  simp only [Script.bind_eq, Script.pure_eq, productionToolkit]
  refine wp.ofExcept_bind (fun name hname => ?_) fun e _ => ⟨rfl, error_returns⟩
  refine wp.validating (fun e t hcalling => ⟨hcalling, error_returns⟩) fun validated t hcalling _ hj => ?_
  have failed : ∀ (e : Failure) (u : HostHistory E), Steady t u →
      callingBack u = callingBack h ∧
        ∀ plan, (.error e : Except Failure (ProxyDeployPlan E)) = .ok plan →
          plan.contract = contract ∧ JudgedAs contract "deployProxy" resolved u plan.validated :=
    fun e u stay => ⟨stay.calling.trans hcalling, error_returns⟩
  have stay := Steady.refl t
  refine wp.ofExcept_bind (fun _ _ => ?_) fun e _ => failed e _ stay
  refine wp.reading stay (kindOrInferred_reads env) failed fun kind u _ stay => ?_
  refine wp.ofExcept_bind (fun _ _ => ?_) fun e _ => failed e _ stay
  refine wp.ofExcept_bind (fun _ _ => ?_) fun e _ => failed e _ stay
  refine wp.ofExcept_bind (fun _ _ => ?_) fun e _ => failed e _ stay
  refine wp.reading stay (priorDeployedAddress_reads contract) failed fun prior u _ stay => ?_
  refine wp.ofExcept_bind (fun decision _ => ?_) fun e _ => failed e _ stay
  refine wp.reading stay (refuseStaleRecord_reads env decision) failed
    fun _ u _ stay => ?_
  refine wp.ofExcept_bind (fun _ _ => ?_) fun e _ => failed e _ stay
  refine wp.ofExcept_bind (fun initData _ => ?_) fun e _ => failed e _ stay
  refine wp.ofExcept_bind (fun sender _ => ?_) fun e _ => failed e _ stay
  refine wp.reading stay (requireProxyArtifact_reads _) failed fun abstraction u _ stay => ?_
  refine wp.reading stay (resolveInitialOwner_reads env kind sender) failed
    fun owner u _ stay => ?_
  refine ⟨stay.calling.trans hcalling, ?_⟩
  rintro plan ⟨⟩
  exact ⟨rfl, name, hname, hj.later stay.toSince⟩

theorem deployProxyStep_judges {plan : ProxyDeployPlan E} (idle : callingBack h = false)
    (hc : ∀ t, Since h t → Cleared t plan.validated) (hown : plan.contract = contract) :
    wp .free (whereActs (ActsCleared contract Cleared))
      (deployProxyStep ⟨productionToolkit env, resolved⟩ plan) (fun _ t => Steady h t) h := by
  have failed : ∀ (_ : Failure) (t : HostHistory E), Steady h t → Steady h t :=
    fun _ _ stay => stay
  subst hown
  unfold deployProxyStep
  simp only [Script.bind_eq]
  refine wp.bind (fetchOrDeployThrough_steady idle hc) ?_ fun e t stay => stay
  intro fetched t stay
  refine wp.reading stay (readWriteBack_asks hostEntry_reads _) failed fun prior u _ stay => ?_
  have spends := ActsCleared.idle plan.contract (hc u stay.toSince) (stay.idle idle)
    (.hostNew plan.proxyAbstraction (plan.proxyArgs fetched.address)) rfl
  refine wp.bind (hostDeploy_steady spends) ?_ fun e t stay' => stay.trans stay'
  intro writeBack t stay'
  refine wp_mono (fun _ _ => (stay.trans stay').trans) ?_
  exact steady_moves.along (settleDeployedProxy_reads plan prior writeBack) t

/-- The queued step, with the write-back it restores where it fails. -/
theorem queued_judges {α : Type} {x : HostTask E α} (contract : ContractAbstraction E)
    (hx : ∀ t, Steady h t → wp .free (whereActs P) x (fun _ u => Steady t u) t) :
    wp .free (whereActs P) ((productionToolkit (E := E) env).queue
      (restoringWriteBackOnFailure hostEntry contract x)) (fun _ t => Steady h t) h := by
  refine wp.read (.refl h) rfl (fun _ _ stay => stay) fun _ stay => ?_
  apply restoringWriteBackOnFailure_wp hostEntry_reads steady_moves
  · intro t stay'
    exact wp_mono (fun _ _ => (stay.trans stay').trans) (hx t (stay.trans stay'))
  · exact fun _ _ _ stay stay' => stay.trans stay'

theorem runDeployProxy_judges {args : List Json} :
    wp .free (whereActs (ActsCleared contract (JudgedAs contract "deployProxy" resolved)))
      (runDeployProxy ⟨productionToolkit env, resolved⟩ contract args) (fun _ _ => True) [] := by
  unfold runDeployProxy
  simp only [Script.bind_eq, Script.pure_eq]
  refine wp.bind planProxyDeploy_judges ?_ fun _ _ _ => trivial
  rintro plan h ⟨idle, hplan⟩
  obtain ⟨hown, hj⟩ := hplan plan rfl
  refine wp.bind (queued_judges contract fun t stay => ?_) ?_ fun _ _ _ => trivial
  · apply deployProxyStep_judges (stay.idle idle) _ hown
    exact fun u since => hj.later (stay.toSince.trans since)
  · intro outcome t stay
    have reports : Reads (wildcardNote (productionToolkit (E := E) env)) := wildcardNote_reads
    refine wp.read stay rfl (fun _ _ _ => trivial) fun _ stay => ?_
    refine wp.read stay rfl (fun _ _ _ => trivial) fun _ stay => ?_
    refine wp.reading stay reports (fun _ _ _ => trivial) fun _ u _ stay => ?_
    refine wp.reading stay (contractAt_reads _ _) (fun _ _ _ => trivial) fun _ u _ stay => ?_
    refine wp.ofExcept_bind (fun _ _ => ?_) fun _ _ => trivial
    exact wp.ofExcept_bind (fun _ _ => trivial) fun _ _ => trivial

-- ---------------------------------------------------------------------------
-- upgradeProxy
-- ---------------------------------------------------------------------------

/-- The slots that were read and the kind the engine has settled for them. -/
structure ProxyUpgradeRouted (env : Environment) (resolved : ResolvedForProxyOps E)
    (proxy : String) (routed : ProxyKind) (h : HostHistory E)
    (validated : ValidatedImplementation E) : Prop where
  slots : ∃ address implementation admin adminAddress,
    canonicalizeAddress env.codec proxy = .ok address ∧
    Answered h (.readProxySlots address) (.code (some implementation) admin none) ∧
    upgradeAdmin address routed admin = .ok adminAddress
  kind : ∃ address, Answered h
    (.processProxyKind address resolved.kind validated.validations validated.version) routed
  notBeacon : routed ≠ .beacon

theorem ProxyUpgradeRouted.later {proxy : String} {kind : ProxyKind}
    (r : ProxyUpgradeRouted env resolved proxy kind h validated) (hh : h <:+ h') :
    ProxyUpgradeRouted env resolved proxy kind h' validated := by
  obtain ⟨address, implementation, admin, adminAddress, hcanonical, hslots, hadmin⟩ := r.slots
  obtain ⟨at', hkind⟩ := r.kind
  exact {
    slots := ⟨address, implementation, admin, adminAddress, hcanonical, hslots.later hh, hadmin⟩
    kind := ⟨at', hkind.later hh⟩
    notBeacon := r.notBeacon }

def ProxyUpgradeJudged (env : Environment) (resolved : ResolvedForProxyOps E) (proxy : String)
    (contract : ContractAbstraction E) (h : HostHistory E)
    (validated : ValidatedImplementation E) : Prop :=
  JudgedAs contract "upgradeProxy" resolved h validated ∧
    ∃ kind, ProxyUpgradeRouted env resolved proxy kind h validated

theorem ProxyUpgradeJudged.later {proxy : String}
    (j : ProxyUpgradeJudged env resolved proxy contract h validated) (hh : Since h h') :
    ProxyUpgradeJudged env resolved proxy contract h' validated := by
  obtain ⟨hj, kind, hr⟩ := j
  exact ⟨hj.later hh, kind, hr.later hh.suffix⟩

theorem assertStorageCompatible_reads (current : E.Layout) :
    Reads ((productionToolkit (E := E) env).assertStorageCompatible current validated resolved) :=
  Script.Asks.ofExcept.bind fun _ => Script.Asks.ofExcept

theorem planProxyUpgrade_judges {proxy : String} :
    wp .free (whereActs P) (planProxyUpgrade ⟨productionToolkit env, resolved⟩ proxy contract)
      (fun o t => callingBack t = callingBack h ∧ ∀ plan, o = .ok plan →
        plan.contract = contract ∧
          ProxyUpgradeJudged env resolved proxy contract t plan.validated) h := by
  unfold planProxyUpgrade
  simp only [Script.bind_eq, Script.pure_eq, productionToolkit]
  refine wp.ofExcept_bind (fun name hname => ?_) fun e _ => ⟨rfl, error_returns⟩
  refine wp.ofExcept_bind (fun address haddress => ?_) fun e _ => ⟨rfl, error_returns⟩
  refine wp.validating (fun e t hcalling => ⟨hcalling, error_returns⟩) fun validated t hcalling _ hj => ?_
  have failed : ∀ (e : Failure) (u : HostHistory E), Steady t u →
      callingBack u = callingBack h ∧
        ∀ plan, (.error e : Except Failure (ProxyUpgradePlan E)) = .ok plan →
          plan.contract = contract ∧
            ProxyUpgradeJudged env resolved proxy contract u plan.validated :=
    fun e u stay => ⟨stay.calling.trans hcalling, error_returns⟩
  have stay := Steady.refl t
  refine wp.ofExcept_bind (fun _ _ => ?_) fun e _ => failed e _ stay
  refine wp.ofExcept_bind (fun _ _ => ?_) fun e _ => failed e _ stay
  refine wp.read stay rfl failed fun slots stay => ?_
  refine wp.ofExcept_bind ?_ fun e _ => failed e _ stay
  rintro ⟨implementation, admin⟩ hupgradeable
  obtain rfl := upgradeableSlots_ok hupgradeable
  unfold processProxyKind
  simp only [Script.bind_eq, Script.pure_eq, Script.bind_assoc, Script.bind_pure]
  refine wp.read stay rfl failed fun kind stay => ?_
  refine wp.ofExcept_bind (fun _ hbeacon => ?_) fun e _ => failed e _ stay
  refine wp.reading stay (storedLayoutFor_reads env implementation) failed
    fun layout u later stay => ?_
  have hslots : Answered u (.readProxySlots address) (.code (some implementation) admin none) :=
    Answered.later (by simp [Answered]) later
  have hkind : Answered u (.processProxyKind address resolved.kind validated.validations
      validated.version) kind :=
    Answered.later (by simp [Answered]) later
  refine wp.ofExcept_bind (fun ok _ => ?_) fun e _ => failed e _ stay
  refine wp.ofExcept_bind (fun _ _ => ?_) fun e _ => failed e _ stay
  refine wp.ofExcept_bind (fun callData _ => ?_) fun e _ => failed e _ stay
  refine wp.ofExcept_bind (fun adminAddress hadmin => ?_) fun e _ => failed e _ stay
  refine wp.read stay rfl failed fun version stay => ?_
  refine wp.ofExcept_bind (fun dispatch _ => ?_) fun e _ => failed e _ stay
  have hrouted : ProxyUpgradeRouted env resolved proxy kind u validated := {
    slots := ⟨address, implementation, admin, adminAddress, haddress, hslots, hadmin⟩
    kind := ⟨address, hkind⟩
    notBeacon := refuseIf_ok hbeacon }
  refine ⟨stay.calling.trans hcalling, ?_⟩
  rintro plan ⟨⟩
  exact ⟨rfl, ⟨name, hname, hj.later stay.toSince⟩, kind, hrouted.later (List.suffix_cons ..)⟩

theorem upgradeProxyStep_judges {plan : ProxyUpgradePlan E} (idle : callingBack h = false)
    (hc : ∀ t, Since h t → Cleared t plan.validated) (hown : plan.contract = contract) :
    wp .free (whereActs (ActsCleared contract Cleared))
      (upgradeProxyStep ⟨productionToolkit env, resolved⟩ plan) (fun _ t => Steady h t) h := by
  subst hown
  unfold upgradeProxyStep
  simp only [Script.bind_eq]
  refine wp.bind (fetchOrDeployThrough_steady idle hc) ?_ fun e t stay => stay
  intro fetched t stay
  have sent : wp .free (whereActs (ActsCleared plan.contract Cleared))
      ((productionToolkit env).sendUpgradeCall (plan.request fetched.address))
      (fun _ u => Steady t u) t := by
    apply sendUpgradeCall_steady
    intro u stay'
    have since := stay.toSince.trans stay'.toSince
    exact .idle plan.contract (hc u since) (stay'.idle (stay.idle idle)) (.send _) rfl
  refine wp.bind sent ?_ fun e u stay' => stay.trans stay'
  intro writeBack u stay'
  refine wp_mono (fun _ _ => (stay.trans stay').trans) ?_
  exact steady_moves.along (settleUpgradedProxy_reads plan fetched.address writeBack) u

theorem runUpgradeProxy_judges {proxy : String} :
    wp .free (whereActs (ActsCleared contract (ProxyUpgradeJudged env resolved proxy contract)))
      (runUpgradeProxy ⟨productionToolkit env, resolved⟩ proxy contract) (fun _ _ => True) [] := by
  unfold runUpgradeProxy
  simp only [Script.bind_eq, Script.pure_eq]
  refine wp.bind planProxyUpgrade_judges ?_ fun _ _ _ => trivial
  rintro plan h ⟨idle, hplan⟩
  obtain ⟨hown, hj⟩ := hplan plan rfl
  refine wp.bind (queued_judges contract fun t stay => ?_) ?_ fun _ _ _ => trivial
  · apply upgradeProxyStep_judges (stay.idle idle) _ hown
    exact fun u since => hj.later (stay.toSince.trans since)
  · rintro ⟨writeBack, implementation⟩ t stay
    have reports : Reads (wildcardNote (productionToolkit (E := E) env)) := wildcardNote_reads
    refine wp.reading stay reports (fun _ _ _ => trivial) fun _ u _ stay => ?_
    refine wp.reading stay (contractAt_reads _ _) (fun _ _ _ => trivial) fun _ u _ stay => ?_
    refine wp.ofExcept_bind (fun _ _ => ?_) fun _ _ => trivial
    exact wp.ofExcept_bind (fun _ _ => trivial) fun _ _ => trivial

-- ---------------------------------------------------------------------------
-- Beacons
-- ---------------------------------------------------------------------------

theorem deployAndConfirm_steady {abstraction : ContractAbstraction E} {args : List Json}
    (guard : ∀ t, Steady h t → P t (.hostNew abstraction args)) :
    wp .free (whereActs P) (deployAndConfirm (productionToolkit env) abstraction args)
      (fun _ t => Steady h t) h := by
  have failed : ∀ (_ : Failure) (t : HostHistory E), Steady h t → Steady h t :=
    fun _ _ stay => stay
  unfold deployAndConfirm
  simp only [Script.bind_eq, Script.pure_eq]
  refine wp.reading (.refl h) (readWriteBack_asks hostEntry_reads _) failed fun prior t _ stay => ?_
  refine wp.bind (hostDeploy_steady (guard t stay)) ?_ fun e u stay' => stay.trans stay'
  intro deployed u stay'
  refine wp.ofExcept_bind (fun address _ => ?_) fun _ _ => stay.trans stay'
  refine wp.reading (stay.trans stay') (confirmOrRefuse_reads _ _) failed fun _ v _ stay => ?_
  exact stay

theorem deployBeaconStep_judges {abstraction : ContractAbstraction E} {owner : String}
    (idle : callingBack h = false) (hc : ∀ t, Since h t → Cleared t validated) :
    wp .free (whereActs (ActsCleared contract Cleared))
      (deployBeaconStep ⟨productionToolkit env, resolved⟩ contract validated abstraction owner)
      (fun _ t => Steady h t) h := by
  unfold deployBeaconStep
  simp only [Script.bind_eq]
  refine wp.bind (fetchOrDeployThrough_steady idle hc) ?_ fun e t stay => stay
  intro fetched t stay
  refine wp.bind (deployAndConfirm_steady fun u stay' => ?_) ?_ fun e u stay' => stay.trans stay'
  · have since := stay.toSince.trans stay'.toSince
    exact .idle contract (hc u since) (stay'.idle (stay.idle idle)) (.hostNew _ _) rfl
  · rintro ⟨deployed, live⟩ u stay'
    exact stay.trans stay'

theorem runDeployBeacon_judges :
    wp .free (whereActs (ActsCleared contract
        (JudgedAs contract "deployBeacon" { resolved with kind := some .beacon })))
      (runDeployBeacon ⟨productionToolkit env, resolved⟩ contract) (fun _ _ => True) [] := by
  unfold runDeployBeacon
  simp only [Script.bind_eq, Script.pure_eq]
  refine wp.ofExcept_bind (fun name hname => ?_) fun _ _ => trivial
  refine wp.validating (fun _ _ _ => trivial) fun validated h idle _ hj => ?_
  refine wp.ofExcept_bind (fun _ _ => ?_) fun _ _ => trivial
  refine wp.ofExcept_bind (fun sender _ => ?_) fun _ _ => trivial
  refine wp.ofExcept_bind (fun owner _ => ?_) fun _ _ => trivial
  refine wp.reading (.refl h) (requireProxyArtifact_reads _) (fun _ _ _ => trivial)
    fun abstraction t _ stay => ?_
  refine wp.bind (queued_judges contract fun u stay' => ?_) ?_ fun _ _ _ => trivial
  · apply deployBeaconStep_judges ((stay.trans stay').idle idle)
    exact fun v since => ⟨name, hname, hj.later ((stay.trans stay').toSince.trans since)⟩
  · rintro ⟨deployed, implementation⟩ u stay'
    refine wp.reading stay' (contractAt_reads _ _) (fun _ _ _ => trivial) fun _ v _ stay => ?_
    refine wp.ofExcept_bind (fun _ _ => ?_) fun _ _ => trivial
    exact wp.ofExcept_bind (fun _ _ => trivial) fun _ _ => trivial

theorem upgradeBeaconStep_judges {beacon : String} (idle : callingBack h = false)
    (hc : ∀ t, Since h t → Cleared t validated) :
    wp .free (whereActs (ActsCleared contract Cleared))
      (upgradeBeaconStep ⟨productionToolkit env, resolved⟩ contract validated beacon)
      (fun _ t => Steady h t) h := by
  unfold upgradeBeaconStep
  simp only [Script.bind_eq]
  refine wp.bind (fetchOrDeployThrough_steady idle hc) ?_ fun e t stay => stay
  intro fetched t stay
  refine wp.bind (callThroughFacade_steady fun u stay' => ?_) ?_ fun e u stay' => stay.trans stay'
  · have since := stay.toSince.trans stay'.toSince
    exact .idle contract (hc u since) (stay'.idle (stay.idle idle)) (.send _) rfl
  · intro writeBack u stay'
    refine wp_mono (fun _ _ => (stay.trans stay').trans) ?_
    exact steady_moves.along (settleUpgradedBeacon_reads beacon fetched.address writeBack) u

theorem runUpgradeBeacon_judges {beaconAddress : String} :
    wp .free (whereActs (ActsCleared contract
        (JudgedAs contract "upgradeBeacon" { resolved with kind := some .beacon })))
      (runUpgradeBeacon ⟨productionToolkit env, resolved⟩ beaconAddress contract)
      (fun _ _ => True) [] := by
  unfold runUpgradeBeacon
  simp only [Script.bind_eq, Script.pure_eq]
  refine wp.ofExcept_bind (fun beacon _ => ?_) fun _ _ => trivial
  refine wp.reading (.refl []) (requireBeacon_reads beacon) (fun _ _ _ => trivial)
    fun current h₀ _ stay₀ => ?_
  refine wp.ofExcept_bind (fun name hname => ?_) fun _ _ => trivial
  refine wp.validating (fun _ _ _ => trivial) fun validated h hcalling _ hj => ?_
  have idle : callingBack h = false := hcalling.trans stay₀.calling
  refine wp.reading (.refl h) (storedLayoutFor_reads env current) (fun _ _ _ => trivial)
    fun layout t _ stay => ?_
  refine wp.reading stay (assertStorageCompatible_reads layout) (fun _ _ _ => trivial)
    fun _ t _ stay => ?_
  refine wp.ofExcept_bind (fun _ _ => ?_) fun _ _ => trivial
  refine wp.bind (queued_judges contract fun u stay' => ?_) ?_ fun _ _ _ => trivial
  · apply upgradeBeaconStep_judges ((stay.trans stay').idle idle)
    exact fun v since => ⟨name, hname, hj.later ((stay.trans stay').toSince.trans since)⟩
  · rintro ⟨writeBack, implementation⟩ u stay'
    refine wp.reading stay' (contractAt_reads _ _) (fun _ _ _ => trivial) fun _ v _ stay => ?_
    refine wp.ofExcept_bind (fun _ _ => ?_) fun _ _ => trivial
    exact wp.ofExcept_bind (fun _ _ => trivial) fun _ _ => trivial

-- ---------------------------------------------------------------------------
-- Standalone operations
-- ---------------------------------------------------------------------------

theorem deployImplementationStep_judges (idle : callingBack h = false)
    (hc : ∀ t, Since h t → Cleared t validated) :
    wp .free (whereActs (ActsCleared contract Cleared))
      (deployImplementationStep ⟨productionToolkit env, resolved⟩ contract validated)
      (fun _ t => Steady h t) h := by
  have failed : ∀ (_ : Failure) (t : HostHistory E), Steady h t → Steady h t :=
    fun _ _ stay => stay
  unfold deployImplementationStep
  simp only [Script.bind_eq, Script.pure_eq]
  refine wp.reading (.refl h) (readWriteBack_asks hostEntry_reads _) failed fun prior t _ stay => ?_
  have fetches : wp .free (whereActs (ActsCleared contract Cleared))
      (fetchOrDeployThrough ⟨productionToolkit env, resolved⟩ contract validated)
      (fun _ u => Steady t u) t :=
    fetchOrDeployThrough_steady (stay.idle idle) fun u since => hc u (stay.toSince.trans since)
  refine wp.bind fetches ?_ fun e u stay' => stay.trans stay'
  intro fetched u stay'
  exact wp.reading (stay.trans stay') (settleImplementation_reads contract prior fetched) failed
    fun _ v _ stay => stay

theorem deployImplementationThroughQueue_judges {operation : String} (idle : callingBack h = false)
    (hc : ∀ t validated, h <:+ t → JudgedAs contract operation resolved t validated →
      Cleared t validated) :
    wp .free (whereActs (ActsCleared contract Cleared))
      (deployImplementationThroughQueue ⟨productionToolkit env, resolved⟩ contract operation)
      (fun _ _ => True) h := by
  unfold deployImplementationThroughQueue
  simp only [Script.bind_eq, Script.pure_eq]
  refine wp.ofExcept_bind (fun name hname => ?_) fun _ _ => trivial
  refine wp.validating (fun _ _ _ => trivial) fun validated t hcalling hsuffix hj => ?_
  refine wp.ofExcept_bind (fun _ _ => ?_) fun _ _ => trivial
  refine wp.bind (R := fun _ _ => True) ?_ ?_ fun _ _ _ => trivial
  · refine wp.read (.refl t) rfl (fun _ _ _ => trivial) fun _ stay => ?_
    refine wp_mono (fun _ _ _ => trivial)
      (deployImplementationStep_judges (stay.idle (hcalling.trans idle)) fun u since => ?_)
    have since := stay.toSince.trans since
    exact hc u validated (hsuffix.trans since.suffix) ⟨name, hname, hj.later since⟩
  · rintro ⟨address, transactionHash⟩ u -
    exact wp.ofExcept_bind (fun _ _ => trivial) fun _ _ => trivial

theorem runDeployImplementation_judges :
    wp .free (whereActs (ActsCleared contract
        (JudgedAs contract "deployImplementation" resolved)))
      (runDeployImplementation ⟨productionToolkit env, resolved⟩ contract) (fun _ _ => True) [] :=
  deployImplementationThroughQueue_judges rfl fun _ _ _ hj => hj

/-- The kind is the record's for the proxy. -/
structure PrepareRouted (env : Environment) (proxy : String) (routed : ProxyKind)
    (h : HostHistory E) : Prop where
  recorded : ∃ address key, canonicalizeAddress env.codec proxy = .ok address ∧
    canonicalizeAddress env.codec address = .ok key ∧ Answered h (.proxyRecord key) (some routed)
  notBeacon : routed ≠ .beacon

theorem PrepareRouted.later {proxy : String} {kind : ProxyKind}
    (r : PrepareRouted env proxy kind h) (hh : h <:+ h') : PrepareRouted env proxy kind h' := by
  obtain ⟨address, key, haddress, hkey, hrecord⟩ := r.recorded
  exact ⟨⟨address, key, haddress, hkey, hrecord.later hh⟩, r.notBeacon⟩

def PrepareJudged (env : Environment) (resolved : ResolvedForProxyOps E) (proxy : String)
    (contract : ContractAbstraction E) (h : HostHistory E)
    (validated : ValidatedImplementation E) : Prop :=
  ∃ kind, PrepareRouted env proxy kind h ∧
    JudgedAs contract "prepareUpgrade" { resolved with kind := some kind } h validated

theorem recordedKind_ok {proxy : String} {record option : Option ProxyKind} {kind : ProxyKind}
    (h : recordedKind proxy record option = .ok kind) : record = some kind ∧ kind ≠ .beacon := by
  cases record with
  | none => cases h
  | some recorded =>
    cases recorded with
    | beacon => cases h
    | transparent | uups =>
      cases option with
      | none =>
        cases h
        exact ⟨rfl, nofun⟩
      | some requested =>
        cases requested <;> cases h
        exact ⟨rfl, nofun⟩

/-- A record that was read is the node's answer for the canonical address. -/
theorem sessionProxyRecord_wp {address : String} :
    wp .free (whereActs P) (sessionProxyRecord (E := E) env address)
      (fun o t => Steady h t ∧ ∀ record, o = .ok record → ∃ key,
        canonicalizeAddress env.codec address = .ok key ∧
          Answered t (.proxyRecord key) record) h := by
  unfold sessionProxyRecord throughRecordRead
  rw [Script.bind_eq]
  refine wp.ofExcept_bind (fun key hkey => ?_) fun e _ => ⟨.refl h, error_returns⟩
  refine wp.catching (R := fun o t => Steady h t ∧ ∀ record, o = .ok record →
    Answered t (.proxyRecord key) record) ?_ ?_ ?_
  · refine wp_perform.mpr ⟨nofun, ?_⟩
    rintro r t ⟨-, rfl⟩
    refine ⟨(Steady.refl h).cons (.inl rfl), ?_⟩
    rintro record rfl
    exact .head
  · rintro record t ⟨stay, hrecord⟩
    refine ⟨stay, ?_⟩
    rintro _ ⟨⟩
    exact ⟨key, hkey, hrecord record rfl⟩
  · rintro e t ⟨stay, -⟩
    split <;> exact ⟨stay, error_returns⟩

theorem runPrepareUpgrade_judges {proxy : String} :
    wp .free (whereActs (ActsCleared contract (PrepareJudged env resolved proxy contract)))
      (runPrepareUpgrade ⟨productionToolkit env, resolved⟩ proxy contract) (fun _ _ => True)
      [] := by
  unfold runPrepareUpgrade
  simp only [Script.bind_eq]
  refine wp.ofExcept_bind (fun address haddress => ?_) fun _ _ => trivial
  refine wp.ofExcept_bind (fun _ _ => ?_) fun _ _ => trivial
  refine wp.read (.refl []) rfl (fun _ _ _ => trivial) fun slots stay₀ => ?_
  refine wp.ofExcept_bind ?_ fun _ _ => trivial
  rintro ⟨implementation, admin⟩ -
  refine wp.bind sessionProxyRecord_wp ?_ fun _ _ _ => trivial
  rintro record h ⟨stay, hrecord⟩
  obtain ⟨key, hkey, hrecord⟩ := hrecord record rfl
  refine wp.ofExcept_bind (fun kind hkind => ?_) fun _ _ => trivial
  obtain ⟨rfl, hbeacon⟩ := recordedKind_ok hkind
  have hrouted : PrepareRouted env proxy kind h :=
    ⟨⟨address, key, haddress, hkey, hrecord⟩, hbeacon⟩
  refine wp.ofExcept_bind (fun name _ => ?_) fun _ _ => trivial
  refine wp.validating (fun _ _ _ => trivial) fun validated t hcalling hsuffix _ => ?_
  refine wp.ofExcept_bind (fun _ _ => ?_) fun _ _ => trivial
  refine wp.reading (.refl t) (storedLayoutFor_reads env implementation) (fun _ _ _ => trivial)
    fun layout u _ stay' => ?_
  refine wp.reading stay' (assertStorageCompatible_reads layout) (fun _ _ _ => trivial)
    fun _ u _ stay' => ?_
  have idle : callingBack u = false :=
    (stay'.calling.trans hcalling).trans ((stay₀.trans stay).calling)
  apply deployImplementationThroughQueue_judges idle
  intro v validated hv hj
  exact ⟨kind, hrouted.later ((hsuffix.trans stay'.suffix).trans hv), hj⟩

-- ---------------------------------------------------------------------------
-- forceImport
-- ---------------------------------------------------------------------------

/-- The candidate was judged, and the code on chain is the object's. -/
structure AdoptionJudged (resolved : ResolvedForProxyOps E) (contract : ContractAbstraction E)
    (h : HostHistory E) (validated : ValidatedImplementation E) : Prop where
  judged : ∃ kind, JudgedAs contract "forceImport" { resolved with kind } h validated
  compared : ∃ expected address code, contract.deployedBytecode = some expected ∧
    Answered h (.getCode address) code ∧
    E.hashBytecodeWithoutMetadata expected = E.hashBytecodeWithoutMetadata code

/-- An adoption spends nothing. -/
def Adopts (resolved : ResolvedForProxyOps E) (contract : ContractAbstraction E)
    (h : HostHistory E) (op : HostOp E) : Prop :=
  op.spends = false ∧ ActsCleared contract (AdoptionJudged resolved contract) h op

theorem expectedBytecode_ok {address expected : String}
    (h : expectedBytecode address contract = .ok expected) :
    contract.deployedBytecode = some expected := by
  unfold expectedBytecode at h
  split at h
  · split at h
    · cases h
    · cases h
      assumption
  · cases h

theorem classify_reads (env : Environment) (address : String) (slots : ProxySlotsRead) :
    Reads (classify (productionToolkit (E := E) env) address slots) := by
  unfold classify
  split
  · trivial
  · refine Script.Asks.bind (hostCall_reads rfl) fun read => ?_
    cases read <;> trivial
  · trivial
  · refine Script.Asks.bind (hostCall_reads rfl) fun read => ?_
    cases read <;> trivial

theorem proxyRecordAbsent_reads (env : Environment) (address : String) (found : AdoptedKind)
    (recorded : Option ProxyKind) :
    Reads (proxyRecordAbsent (productionToolkit (E := E) env) address found recorded) := by
  cases recorded with
  | none => trivial
  | some kind =>
    refine Script.Asks.bind (sessionProxyRecord_reads env address) fun existing => ?_
    cases existing with
    | none => trivial
    | some recorded => exact Script.Asks.ofExcept.bind fun _ => trivial

theorem recordAdopted_reads (env : Environment) (address : String) (absent : Bool)
    (recorded : Option ProxyKind) :
    Reads (recordAdopted (productionToolkit (E := E) env) address absent recorded) := by
  cases recorded with
  | none => trivial
  | some kind => exact (sessionAddProxyRecord_reads env address kind).when

theorem runForceImport_judges {address : String} :
    wp .free (whereActs (Adopts resolved contract))
      (runForceImport ⟨productionToolkit env, resolved⟩ address contract) (fun _ _ => True)
      [] := by
  have ignored : ∀ (_ : Failure) (t h : HostHistory E), Steady h t → True :=
    fun _ _ _ _ => trivial
  unfold runForceImport
  simp only [Script.bind_eq, Script.pure_eq]
  refine wp.ofExcept_bind (fun address _ => ?_) fun _ _ => trivial
  refine wp.read (.refl []) rfl (fun e t => ignored e t []) fun slots stay => ?_
  refine wp.reading stay (classify_reads env address slots) (fun e t => ignored e t []) ?_
  rintro ⟨found, implementationAddress⟩ h₀ - stay₀
  dsimp only
  refine wp.ofExcept_bind (fun _ _ => ?_) fun _ _ => trivial
  refine wp.ofExcept_bind (fun name hname => ?_) fun _ _ => trivial
  refine wp.validating (fun _ _ _ => trivial) fun validated h hcalling _ hj => ?_
  have idle : callingBack h = false := hcalling.trans stay₀.calling
  refine wp.ofExcept_bind (fun expected hexpected => ?_) fun _ _ => trivial
  refine wp.read (.refl h) rfl (fun e t => ignored e t h) fun code stay => ?_
  refine wp.ofExcept_bind (fun _ hsame => ?_) fun _ _ => trivial
  have hsame := Decidable.not_not.mp (refuseIf_ok hsame)
  refine wp.reading stay (proxyRecordAbsent_reads env address found found.recordedAs)
    (fun e t => ignored e t h) fun absent t later stay => ?_
  have hcode : Answered t (.getCode implementationAddress) code :=
    Answered.later (by simp [Answered]) later
  refine wp.ofExcept_bind (fun _ _ => ?_) fun _ _ => trivial
  refine wp.ofExcept_bind (fun implementation _ => ?_) fun _ _ => trivial
  refine wp.bind (fetchOrDeploy_steady (stay.idle idle) ?_ ?_) ?_ fun _ _ _ => trivial
  · intro u _ _
    refine steady_moves.along ?_ u
    exact (readWriteBackHash_asks hostEntry_reads contract).bind fun _ => trivial
  · intro u outcome since
    have hj : JudgedAs contract "forceImport"
        { resolved with kind := judgedKind found resolved.kind } u validated :=
      ⟨name, hname, hj.later (stay.toSince.trans since)⟩
    refine ⟨rfl, ⟨validated, ?_, ?_⟩, by rintro _ _ ⟨⟩⟩
    · exact ⟨⟨_, hj⟩, expected, implementationAddress, code, expectedBytecode_ok hexpected,
        hcode.later since.suffix, hsame⟩
    · rintro version layout outcome ⟨⟩
      rfl
  · intro fetched u stay
    refine wp.reading stay (recordAdopted_reads env address absent found.recordedAs)
      (fun e t => ignored e t _) fun _ v _ stay => ?_
    refine wp.reading stay (contractAt_reads contract address) (fun e t => ignored e t _)
      fun handle v _ stay => ?_
    exact wp.ofExcept_bind (fun _ _ => trivial) fun _ _ => trivial

end

end TronUpgrades.Tronbox
