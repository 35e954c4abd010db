import TronUpgrades.Tronbox.Production

/-!
# Runs of the production toolkit

One lemma for each toolkit method: what it may ask for, and what a success of
it has established about the history. Most operations are `Steady`: they spend
nothing, judge nothing, and leave the engine's call as it is.
-/

namespace TronUpgrades.Tronbox

open Effects Record Address

section
variable {E : Engine}

/-- A deployment by the host, or a transaction. -/
def HostOp.spends : HostOp E → Bool
  | .hostNew _ _ | .send _ => true
  | _ => false

/-- Spends, or has the engine settle on a layout. -/
def HostOp.acts : HostOp E → Bool
  | .engineSettle _ _ _ => true
  | op => op.spends

/-- Neither acts, nor judges an artifact, nor starts the engine. -/
def HostOp.reads : HostOp E → Bool
  | .hostNew _ _ | .send _ | .artifactRecord _ | .engineStart _ _ | .engineSettle _ _ _ => false
  | _ => true

/-- The artifact judged last, and the creation bytecode it was judged by. -/
def lastJudged : HostHistory E → Option (ContractAbstraction E × String)
  | [] => none
  | ⟨.artifactRecord artifact, .ok (.complete bytecode)⟩ :: _ => some (artifact, bytecode)
  | _ :: h => lastJudged h

/-- Whether the engine has called back and not settled yet. -/
def callingBack : HostHistory E → Bool
  | [] => false
  | ⟨.engineStart _ _, .ok none⟩ :: _ => true
  | ⟨.engineSettle _ _ _, _⟩ :: _ => false
  | _ :: h => callingBack h

variable {h h' : HostHistory E}

/-- Later, with the same artifact judged last. -/
structure Since (h h' : HostHistory E) : Prop where
  suffix : h <:+ h'
  judged : lastJudged h' = lastJudged h

theorem Since.trans {h'' : HostHistory E} (a : Since h h') (b : Since h' h'') : Since h h'' :=
  ⟨a.suffix.trans b.suffix, b.judged.trans a.judged⟩

theorem Since.cons (a : Since h h') {op : HostOp E} {r : Except Failure op.Reply}
    (hop : ∀ artifact, op ≠ .artifactRecord artifact) : Since h (⟨op, r⟩ :: h') := by
  refine ⟨a.suffix.trans (List.suffix_cons ..), ?_⟩
  rw [← a.judged]
  cases op with
  | artifactRecord artifact => exact absurd rfl (hop artifact)
  | _ => rfl

/-- The same, and the engine as far as before. -/
structure Steady (h h' : HostHistory E) : Prop extends Since h h' where
  calling : callingBack h' = callingBack h

theorem Steady.refl (h : HostHistory E) : Steady h h := ⟨⟨List.suffix_rfl, rfl⟩, rfl⟩

theorem Steady.trans {h'' : HostHistory E} (a : Steady h h') (b : Steady h' h'') :
    Steady h h'' :=
  ⟨a.toSince.trans b.toSince, b.calling.trans a.calling⟩

theorem Steady.cons (a : Steady h h') {op : HostOp E} {r : Except Failure op.Reply}
    (hop : op.reads = true ∨ op.spends = true) : Steady h (⟨op, r⟩ :: h') := by
  refine ⟨a.toSince.cons ?_, ?_⟩
  · rintro artifact rfl
    simp [HostOp.reads, HostOp.spends] at hop
  · rw [← a.calling]
    cases op <;> first | rfl | simp [HostOp.reads, HostOp.spends] at hop

/-- A guard on what acts only. -/
def whereActs (P : HostHistory E → HostOp E → Prop) : HostHistory E → (hostEffects E).Op → Prop :=
  fun h op => HostOp.acts op → P h op

variable {P : HostHistory E → HostOp E → Prop} {α β : Type}

theorem HostOp.acts_of_reads {op : HostOp E} (hop : op.reads = true) : op.acts = false := by
  cases op <;> first | rfl | cases hop

theorem steady_moves :
    Moves .free (whereActs P) (fun op => HostOp.reads op = true) Steady where
  refl := Steady.refl
  trans _ _ _ := Steady.trans
  guard h op hop hacts := by
    rw [HostOp.acts_of_reads hop] at hacts
    cases hacts
  step := by
    rintro h op r h' hop ⟨-, rfl⟩
    exact (Steady.refl h).cons (.inl hop)

/-- Whatever it is answered, the script only reads. -/
abbrev Reads (x : HostTask E α) : Prop := x.Asks fun op => HostOp.reads op = true

/-- A script that only reads, and what follows it. -/
theorem wp.reading {h₀ : HostHistory E} {x : HostTask E α} {f : α → HostTask E β}
    {Q : Except Failure β → HostHistory E → Prop} (stay : Steady h₀ h) (hx : Reads x)
    (failed : ∀ e h', Steady h₀ h' → Q (.error e) h')
    (ok : ∀ a h', h <:+ h' → Steady h₀ h' → wp .free (whereActs P) (f a) Q h') :
    wp .free (whereActs P) (x.bind f) Q h := by
  apply wp.bind (steady_moves.along hx h)
  · exact fun a h' hh => ok a h' hh.suffix (stay.trans hh)
  · exact fun e h' hh => failed e h' (stay.trans hh)

/-- One read, and what follows it. -/
theorem wp.read {h₀ : HostHistory E} {op : HostOp E} {f : op.Reply → HostTask E β}
    {Q : Except Failure β → HostHistory E → Prop} (stay : Steady h₀ h) (hop : op.reads = true)
    (failed : ∀ e h', Steady h₀ h' → Q (.error e) h')
    (ok : ∀ a, Steady h₀ (⟨op, .ok a⟩ :: h) →
      wp .free (whereActs P) (f a) Q (⟨op, .ok a⟩ :: h)) :
    wp .free (whereActs P) ((hostCall op).bind f) Q h := by
  apply wp.askFree
  · intro hacts
    rw [HostOp.acts_of_reads hop] at hacts
    cases hacts
  · exact fun a => ok a (stay.cons (.inl hop))
  · exact fun e => failed e _ (stay.cons (.inl hop))

-- ---------------------------------------------------------------------------
-- What only reads
-- ---------------------------------------------------------------------------

theorem hostCall_reads {op : HostOp E} (hop : op.reads = true) : Reads (hostCall op) :=
  Script.Asks.perform hop

theorem hostEntry_reads : (hostEntry (E := E)).Asks fun op => HostOp.reads op = true :=
  hostEntry_asks fun _ _ => rfl

theorem requireProxyArtifact_reads (name : String) :
    Reads (requireProxyArtifact (E := E) name) := by
  apply Script.Asks.bind
  · exact (hostCall_reads rfl).catching fun _ => trivial
  · intro resolution
    cases resolution with
    | unique contract => trivial
    | ambiguous contract candidates => dsimp only; split <;> trivial
    | indeterminate contract => trivial

theorem contractAt_reads (contract : ContractAbstraction E) (address : String) :
    Reads (contractAt contract address) := by
  refine Script.Asks.ofExcept.bind fun _ => ?_
  exact (hostCall_reads rfl).bind fun _ => trivial

theorem confirmTransaction_reads (env : Environment) (hash : String) :
    Reads (confirmTransaction (E := E) env hash) := by
  refine Script.Asks.bind (hostCall_reads rfl).attempt fun info => ?_
  cases info <;> trivial

theorem throughRecordRead_reads {file : String} {x : HostTask E α} (hx : Reads x) :
    Reads (throughRecordRead file x) := by
  refine hx.catching fun e => ?_
  split <;> trivial

theorem sessionProxyRecord_reads (env : Environment) (address : String) :
    Reads (sessionProxyRecord (E := E) env address) :=
  Script.Asks.ofExcept.bind fun _ => throughRecordRead_reads (hostCall_reads rfl)

theorem sessionAddProxyRecord_reads (env : Environment) (address : String) (kind : ProxyKind) :
    Reads (sessionAddProxyRecord (E := E) env address kind) :=
  Script.Asks.ofExcept.bind fun _ => throughRecordRead_reads (hostCall_reads rfl)

theorem storedLayoutFor_reads (env : Environment) (address : String) :
    Reads (storedLayoutFor (E := E) env address) := by
  have lookup : Reads (sessionImplRecord (E := E) env address) :=
    Script.Asks.ofExcept.bind fun _ => throughRecordRead_reads (hostCall_reads rfl)
  refine lookup.bind fun record => ?_
  split <;> trivial

-- ---------------------------------------------------------------------------
-- Validation
-- ---------------------------------------------------------------------------

/-- What a validation under a name has established: what was derived and
resolved for the name, and the judgement of exactly that. -/
def Judged (h : HostHistory E) (name : String) (resolved : ResolvedForProxyOps E)
    (validated : ValidatedImplementation E) : Prop :=
  ∃ input validations resolution bytecode,
    Answered h (.deriveValidationInput name) (.ok input) ∧
    E.validate input = .ok validations ∧
    Answered h (.resolveArtifact name) resolution ∧
    lastJudged h = some (resolution.contract, bytecode) ∧
    judge name resolved input validations resolution.contract.abi bytecode = .ok validated

theorem Judged.later {name : String} {resolved : ResolvedForProxyOps E}
    {validated : ValidatedImplementation E} (j : Judged h name resolved validated)
    (hh : Since h h') : Judged h' name resolved validated := by
  obtain ⟨input, validations, resolution, bytecode, hinput, hv, hresolution, hlast, hjudge⟩ := j
  exact ⟨input, validations, resolution, bytecode, hinput.later hh.suffix, hv,
    hresolution.later hh.suffix, hh.judged.trans hlast, hjudge⟩

theorem completeRecord_ok {name bytecode : String} {record : ArtifactRecord}
    (h : completeRecord name record = .ok bytecode) : record = .complete bytecode := by
  cases record with
  | complete bytecode =>
    cases h
    rfl
  | incomplete status => cases h

theorem validateImplementation_asks {Q : HostOp E → Prop} {name : String}
    {resolved : ResolvedForProxyOps E} (derives : ∀ name, Q (.deriveValidationInput name))
    (resolves : ∀ name, Q (.resolveArtifact name)) (speaks : ∀ text, Q (.say text))
    (records : ∀ contract, Q (.artifactRecord contract)) :
    (validateImplementation name resolved).Asks Q := by
  refine Script.Asks.bind (.perform (derives name)) fun _ => ?_
  refine Script.Asks.ofExcept.bind fun _ => Script.Asks.ofExcept.bind fun _ => ?_
  refine Script.Asks.bind (.perform (resolves name)) fun _ => ?_
  refine Script.Asks.bind (Script.Asks.when (.perform (speaks _))) fun _ => ?_
  refine Script.Asks.bind (.perform (records _)) fun _ => ?_
  exact Script.Asks.ofExcept.bind fun _ => Script.Asks.ofExcept

theorem validateImplementation_wp {name : String} {resolved : ResolvedForProxyOps E} :
    wp .free (whereActs P) (validateImplementation name resolved)
      (fun o h' => callingBack h' = callingBack h ∧ h <:+ h' ∧
        ∀ validated, o = .ok validated → Judged h' name resolved validated) h := by
  have failed : ∀ (e : Failure) (h' : HostHistory E), Steady h h' →
      callingBack h' = callingBack h ∧ h <:+ h' ∧ ∀ validated,
        (.error e : Except Failure (ValidatedImplementation E)) = .ok validated →
          Judged h' name resolved validated :=
    fun e h' stay => ⟨stay.calling, stay.suffix, error_returns⟩
  unfold validateImplementation
  simp only [Script.bind_eq]
  refine wp.read (.refl h) rfl failed fun outcome stay => ?_
  refine wp.ofExcept_bind (fun input hinput => ?_) fun e _ => failed e _ stay
  obtain rfl := mapError_ok hinput
  refine wp.ofExcept_bind (fun validations hv => ?_) fun e _ => failed e _ stay
  refine wp.read stay rfl failed fun resolution stay => ?_
  refine wp.reading stay (hostCall_reads rfl).when failed fun _ h₁ later stay => ?_
  have hinput : Answered h₁ (.deriveValidationInput name) (.ok input) :=
    Answered.later (by simp [Answered]) later
  have hresolution : Answered h₁ (.resolveArtifact name) resolution := Answered.head.later later
  -- from here on this artifact is the one judged last
  refine wp.askFree nofun (fun record => ?_) fun e => ?_
  · refine wp.ofExcept_bind (fun bytecode hbytecode => ?_) fun e _ => ?_
    · obtain rfl := completeRecord_ok hbytecode
      refine wp_ofExcept.mpr ⟨stay.calling, stay.suffix.trans (List.suffix_cons ..), ?_⟩
      intro validated hjudge
      exact ⟨input, validations, resolution, bytecode, hinput.later (List.suffix_cons ..), mapError_ok hv,
        hresolution.later (List.suffix_cons ..), rfl, hjudge⟩
    · exact ⟨by cases record <;> exact stay.calling, stay.suffix.trans (List.suffix_cons ..),
        error_returns⟩
  · exact ⟨stay.calling, stay.suffix.trans (List.suffix_cons ..), error_returns⟩

-- ---------------------------------------------------------------------------
-- Deploying, fetching and sending
-- ---------------------------------------------------------------------------

/-- Asked for where the guard permits it, an operation that spends leaves the
rest as it was. -/
theorem wp.spend {h₀ : HostHistory E} {op : HostOp E} {f : op.Reply → HostTask E β}
    {Q : Except Failure β → HostHistory E → Prop} (stay : Steady h₀ h) (hop : op.spends = true)
    (guard : P h op) (failed : ∀ e h', Steady h₀ h' → Q (.error e) h')
    (ok : ∀ a, Steady h₀ (⟨op, .ok a⟩ :: h) →
      wp .free (whereActs P) (f a) Q (⟨op, .ok a⟩ :: h)) :
    wp .free (whereActs P) ((hostCall op).bind f) Q h := by
  apply wp.askFree
  · exact fun _ => guard
  · exact fun a => ok a (stay.cons (.inr hop))
  · exact fun e => failed e _ (stay.cons (.inr hop))

theorem hostDeploy_steady {contract : ContractAbstraction E} {args : List Json}
    (guard : P h (.hostNew contract args)) :
    wp .free (whereActs P) (hostDeploy contract args) (fun _ h' => Steady h h') h := by
  have failed : ∀ (_ : Failure) (h' : HostHistory E), Steady h h' → Steady h h' :=
    fun _ _ stay => stay
  unfold hostDeploy
  simp only [Script.bind_eq, Script.pure_eq]
  refine wp.ofExcept_bind (fun _ _ => ?_) fun _ _ => .refl h
  refine wp.ofExcept_bind (fun _ _ => ?_) fun _ _ => .refl h
  refine wp.ofExcept_bind (fun _ _ => ?_) fun _ _ => .refl h
  refine wp.spend (.refl h) rfl guard failed fun deployed stay => ?_
  refine wp.ofExcept_bind (fun writeBack _ => ?_) fun _ _ => stay
  refine wp.read stay rfl failed fun _ stay => ?_
  refine wp.read stay rfl failed fun _ stay => ?_
  exact stay

section
variable {validated : ValidatedImplementation E} {resolved : ResolvedForProxyOps E}
  {toDeployment : α → EngineDeployment} {deploy : HostTask E α}

/-- The engine's call spends through its callback alone, while it is calling
back, and settles on the layout that was validated. -/
theorem engineCall_steady (idle : callingBack h = false)
    (callback : ∀ t, Since h t → callingBack t = true →
      wp .free (whereActs P) deploy (fun _ u => Steady t u) t)
    (settle : ∀ t outcome, Since h t →
      P t (.engineSettle validated.version validated.layout outcome)) :
    wp .free (whereActs P) (engineCall validated resolved toDeployment deploy)
      (fun _ t => Steady h t) h := by
  have asked : ∀ r, Since h (⟨.engineStart validated.version
      (decide (resolved.redeployImplementation = .always)), r⟩ :: h) :=
    fun r => (Steady.refl h).toSince.cons nofun
  unfold engineCall
  simp only [Script.bind_eq, Script.pure_eq]
  refine wp.askAttempt nofun fun started _ => ?_
  match started with
  | .error e => exact ⟨asked _, rfl⟩
  | .ok (some address) => exact ⟨asked _, rfl⟩
  | .ok none =>
    refine wp.attempt_bind (J := Since h) ?_ fun outcome t since => ?_
    · split
      · exact asked _
      · exact wp_mono (fun _ _ stay => (asked _).trans stay.toSince) (callback _ (asked _) rfl)
    · refine wp.askAttempt (fun _ => settle t _ since) fun settled _ => ?_
      exact ⟨since.cons nofun, idle.symm⟩

theorem fetchOrDeploy_steady {env : Environment} (idle : callingBack h = false)
    (callback : ∀ t, Since h t → callingBack t = true →
      wp .free (whereActs P) deploy (fun _ u => Steady t u) t)
    (settle : ∀ t outcome, Since h t →
      P t (.engineSettle validated.version validated.layout outcome)) :
    wp .free (whereActs P)
      (fetchOrDeployImplementation env validated resolved toDeployment deploy)
      (fun _ t => Steady h t) h := by
  unfold fetchOrDeployImplementation throughRecordLock
  simp only [Script.bind_eq, Script.pure_eq]
  refine wp.catching (R := fun _ t => Steady h t) ?_ (fun _ _ stay => stay) ?_
  · refine wp.bind (engineCall_steady idle callback settle) ?_ fun _ _ stay => stay
    rintro ⟨first, deployed⟩ t stay
    cases first with
    | ok address => exact stay
    | error e =>
      dsimp only
      split
      · exact stay
      · have again : wp .free (whereActs P) (engineCall validated resolved toDeployment deploy)
            (fun _ u => Steady t u) t := by
          apply engineCall_steady (stay.calling.trans idle)
          · exact fun u since => callback u (stay.toSince.trans since)
          · exact fun u outcome since => settle u outcome (stay.toSince.trans since)
        refine wp.bind again ?_ fun _ _ stay' => stay.trans stay'
        rintro ⟨second, redeployed⟩ u stay'
        exact wp.ofExcept_bind (fun _ _ => stay.trans stay') fun _ _ => stay.trans stay'
  · intro e t stay
    split <;> exact stay

end

theorem callThroughFacade_steady {request : FacadeRequest}
    (guard : ∀ t, Steady h t → P t (.send request)) :
    wp .free (whereActs P) (callThroughFacade (hostFacade (E := E)) request)
      (fun _ t => Steady h t) h := by
  have failed : ∀ (_ : Failure) (t : HostHistory E), Steady h t → Steady h t :=
    fun _ _ stay => stay
  unfold callThroughFacade hostFacade
  simp only [Script.bind_eq, Script.pure_eq]
  refine wp.reading (.refl h) (requireProxyArtifact_reads _) failed fun facade _ _ stay => ?_
  split
  · exact stay
  · refine wp.read stay rfl failed fun attached stay => ?_
    split
    · exact stay
    · refine wp.spend stay rfl (guard _ stay) failed fun result stay => ?_
      split <;> exact stay

theorem sendUpgradeCall_steady {request : UpgradeCallRequest}
    (guard : ∀ t, Steady h t → P t (.send request.toFacade)) :
    wp .free (whereActs P) (sendUpgradeCall (callThroughFacade (hostFacade (E := E))) request)
      (fun _ t => Steady h t) h :=
  wp.bind (callThroughFacade_steady guard) (fun _ _ stay => stay) fun _ _ stay => stay

-- ---------------------------------------------------------------------------
-- What follows a transaction only reads
-- ---------------------------------------------------------------------------

section
variable {env : Environment}

theorem confirmUpgrade_reads (hash : String) :
    Reads (confirmUpgrade (productionToolkit (E := E) env) hash) := by
  refine Script.Asks.bind (confirmTransaction_reads env hash) fun verdict => ?_
  cases verdict <;> trivial

theorem recordingLiveProxy_reads {x : HostTask E α} (live : SpentDeployment) (hx : Reads x) :
    Reads (recordingLiveProxy live x) :=
  hx.catching fun _ => trivial

theorem settleUpgradedProxy_reads (plan : ProxyUpgradePlan E) (implementation : String)
    (writeBack : WriteBack) :
    Reads (settleUpgradedProxy (productionToolkit env) plan implementation writeBack) := by
  refine Script.Asks.bind (confirmUpgrade_reads _) fun _ => ?_
  refine Script.Asks.bind (hostCall_reads rfl) fun observed => ?_
  refine Script.Asks.ofExcept.bind fun _ => Script.Asks.ofExcept.bind fun _ => ?_
  refine Script.Asks.bind (sessionProxyRecord_reads env _) fun existing => ?_
  refine Script.Asks.bind ?_ fun _ => trivial
  exact (recordingLiveProxy_reads _ (sessionAddProxyRecord_reads env _ _)).when

theorem signerOf_reads (hash : String) : Reads (signerOf (E := E) env hash) := by
  refine Script.Asks.catching (Script.Asks.bind (hostCall_reads rfl) fun sender => ?_)
    fun _ => trivial
  cases sender with
  | none => trivial
  | some sender =>
    dsimp only
    split
    · trivial
    · exact Script.Asks.ofExcept.bind fun _ => trivial

theorem compareSender_reads (sender : EffectiveSender) (signer : Option String)
    (live : SpentDeployment) :
    Reads (compareSender (productionToolkit (E := E) env) sender signer live) := by
  cases signer with
  | some signer => exact Script.Asks.ofExcept.bind fun _ => trivial
  | none => exact hostCall_reads rfl

theorem settleDeployedProxy_reads (plan : ProxyDeployPlan E) (prior : PriorWriteBack)
    (writeBack : WriteBack) :
    Reads (settleDeployedProxy (productionToolkit env) plan prior writeBack) := by
  refine Script.Asks.ofExcept.bind fun _ => Script.Asks.ofExcept.bind fun address => ?_
  refine Script.Asks.bind (confirmTransaction_reads env _) fun verdict => ?_
  cases verdict with
  | reverted verdict =>
    exact (restoreWriteBack_asks hostEntry_reads _ prior).bind fun _ => trivial
  | indeterminate verdict => trivial
  | confirmedSuccessful hash =>
    refine Script.Asks.bind (signerOf_reads _) fun signer => ?_
    refine Script.Asks.bind (compareSender_reads _ _ _) fun _ => ?_
    exact (recordingLiveProxy_reads _ (sessionAddProxyRecord_reads env _ _)).bind fun _ => trivial

theorem requireBeacon_reads (beacon : String) :
    Reads (requireBeacon (productionToolkit (E := E) env) beacon) := by
  refine Script.Asks.bind (hostCall_reads rfl) fun read => ?_
  cases read <;> trivial

theorem confirmOrRefuse_reads (hash : String) (deploy : Option (PendingDeploy E)) :
    Reads (confirmOrRefuse (productionToolkit env) hash deploy) := by
  refine Script.Asks.bind (confirmTransaction_reads env _) fun verdict => ?_
  match verdict, deploy with
  | .reverted verdict, some deploy =>
    exact (restoreWriteBack_asks hostEntry_reads _ _).bind fun _ => trivial
  | .reverted verdict, none => trivial
  | .indeterminate verdict, deploy => trivial
  | .confirmedSuccessful _, _ => trivial

theorem settleUpgradedBeacon_reads (beacon implementation : String) (writeBack : WriteBack) :
    Reads (settleUpgradedBeacon (productionToolkit (E := E) env) beacon implementation
      writeBack) := by
  refine Script.Asks.bind (confirmOrRefuse_reads _ _) fun _ => ?_
  refine Script.Asks.bind (requireBeacon_reads _) fun observed => ?_
  exact Script.Asks.ofExcept.bind fun _ => Script.Asks.ofExcept.bind fun _ => trivial

theorem settleImplementation_reads (contract : ContractAbstraction E) (prior : PriorWriteBack)
    (fetched : Fetched WriteBack) :
    Reads (settleImplementation (productionToolkit env) contract prior fetched) := by
  unfold settleImplementation
  split
  · refine Script.Asks.bind (confirmTransaction_reads env _) fun verdict => ?_
    cases verdict with
    | reverted verdict =>
      exact (restoreWriteBack_asks hostEntry_reads _ _).bind fun _ => trivial
    | indeterminate verdict => exact Script.Asks.ofExcept.bind fun _ => trivial
    | confirmedSuccessful hash => trivial
  · exact readWriteBackHash_asks hostEntry_reads contract

theorem wildcardNote_reads : Reads (wildcardNote (productionToolkit (E := E) env)) :=
  (hostCall_reads rfl).when

end

end

end TronUpgrades.Tronbox
