import TronUpgrades.Effects.Spending
import TronUpgrades.Tronbox.UpgradeOrder

/-!
# The order of a deployment

Under a toolkit that may do anything, `runDeployProxy`, `runDeployBeacon` and
`runDeployBeaconProxy` commit to nothing (a deployment by the host, a
transaction, a write to the record) before everything that may refuse was
asked and answered. A proxy or beacon is created once, on the implementation
that was settled, a beacon proxy on the beacon that answered; and only a
confirmed creation is recorded or returned.
-/

namespace TronUpgrades.Tronbox

open Effects Address

section
variable {E : Engine}

def ToolkitOp.settles : ToolkitOp E → Bool
  | .fetchSettles _ _ => true
  | _ => false

/-- A deployment by the host, a transaction, or a fetch that settles. -/
def ToolkitOp.advances (op : ToolkitOp E) : Bool := op.spends || op.settles

/-- The same, or a write to the record. -/
def ToolkitOp.commits : ToolkitOp E → Bool
  | .recordProxy _ _ => true
  | op => op.advances

theorem ToolkitOp.advances_of_commits_eq_false (op : ToolkitOp E) (h : op.commits = false) :
    op.advances = false := by
  cases op <;> first | exact h | cases h

/-- Nothing is spent or settled between the two moments. -/
abbrev Quiet (h h' : ToolkitHistory E) : Prop :=
  Without (S := toolkitEffects E) ToolkitOp.advances h h'

/-- No fetch has settled so far. -/
def Unsettled (h : ToolkitHistory E) : Prop := asked (S := toolkitEffects E) ToolkitOp.settles h = 0

theorem Unsettled.of_quiet {h : ToolkitHistory E} (stay : Quiet [] h) : Unsettled h := by
  have hnone := List.countP_eq_zero.mp stay.2
  refine List.countP_eq_zero.mpr fun event hevent hop => hnone event hevent ?_
  simp [ToolkitOp.advances, hop]

/-- A guard on what commits only. -/
abbrev committingOnly (P : ToolkitHistory E → ToolkitOp E → Prop) :
    ToolkitHistory E → (toolkitEffects E).Op → Prop :=
  whereSpent (S := toolkitEffects E) ToolkitOp.commits P

variable {P : ToolkitHistory E → ToolkitOp E → Prop} {h : ToolkitHistory E}

theorem uncommitted_moves : Moves .free (committingOnly P)
    (fun op => ToolkitOp.commits op = false) (Quiet (E := E)) :=
  without_moves ToolkitOp.advances_of_commits_eq_false

theorem anyEntry_uncommitted :
    (anyEntry (E := E)).Asks fun op => ToolkitOp.commits op = false := by
  constructor <;> intros <;> exact Script.Asks.perform rfl

/-- One operation that commits to nothing, and what follows it. -/
theorem wp.askUncommitted {h₀ : ToolkitHistory E} {op : ToolkitOp E} {α : Type}
    {f : op.Reply → Task (toolkitEffects E) α} {Q : Except Failure α → ToolkitHistory E → Prop}
    (stay : Quiet h₀ h) (hop : op.commits = false)
    (failed : ∀ e h', Quiet h₀ h' → Q (.error e) h')
    (ok : ∀ a, Quiet h₀ (⟨op, .ok a⟩ :: h) →
      wp .free (committingOnly P) (f a) Q (⟨op, .ok a⟩ :: h)) :
    wp .free (committingOnly P) ((toolkitCall op).bind f) Q h := by
  have hadvances := op.advances_of_commits_eq_false hop
  apply wp.askFree (unguarded hop)
  · exact fun a => ok a (stay.cons hadvances)
  · exact fun e => failed e _ (stay.cons hadvances)

-- ---------------------------------------------------------------------------
-- The implementation
-- ---------------------------------------------------------------------------

/-- The fetch has just settled on the implementation. -/
def Settled (validated : ValidatedImplementation E) (resolved : ResolvedForProxyOps E)
    (implementation : String) (h : ToolkitHistory E) : Prop :=
  ∃ h₁, h = ⟨.fetchSettles validated resolved, .ok implementation⟩ :: h₁

/-- Since it settled, nothing was spent or settled. -/
def SettledLast (validated : ValidatedImplementation E) (resolved : ResolvedForProxyOps E)
    (implementation : String) (h : ToolkitHistory E) : Prop :=
  ∃ h₁, Settled validated resolved implementation h₁ ∧ Quiet h₁ h

theorem SettledLast.later {validated : ValidatedImplementation E}
    {resolved : ResolvedForProxyOps E} {implementation : String} {h' : ToolkitHistory E}
    (hsettled : SettledLast validated resolved implementation h) (stay : Quiet h h') :
    SettledLast validated resolved implementation h' := by
  obtain ⟨h₁, hat, hsince⟩ := hsettled
  exact ⟨h₁, hat, hsince.trans stay⟩

/-- Between a start and a settling, the callback deploys as often as it is
called. -/
theorem callBack_commits {contract : ContractAbstraction E} {args : List Json}
    (guard : ∀ h', h <:+ h' → Unsettled h' → P h' (.hostDeploy contract args))
    (h0 : Unsettled h) (turns : Nat) (last : Option WriteBack) :
    wp .free (committingOnly P) (callBack (toolkitCall (.hostDeploy contract args)) turns last)
      (fun _ h' => h <:+ h' ∧ Unsettled h') h := by
  induction turns generalizing h last with
  | zero => exact ⟨List.suffix_rfl, h0⟩
  | succ turns ih =>
    have one : wp .free (committingOnly P) (toolkitCall (.hostDeploy contract args)).attempt
        (fun _ h' => h <:+ h' ∧ Unsettled h') h := by
      refine wp_attempt.mpr (wp_perform.mpr ⟨fun _ => guard h List.suffix_rfl h0, ?_⟩)
      rintro r h' ⟨-, rfl⟩
      exact ⟨List.suffix_cons .., (asked_cons_of_neg (S := toolkitEffects E) rfl).trans h0⟩
    refine wp.bind one ?_ fun _ _ hh => hh
    rintro outcome h' ⟨hh, h0'⟩
    refine wp_mono (fun _ _ hh' => ⟨hh.trans hh'.1, hh'.2⟩) (ih ?_ h0' _)
    exact fun h'' hh' => guard h'' (hh.trans hh')

theorem fetchOrDeployThrough_commits {codec : AddressCodec} {wildcard : Bool}
    {resolved : ResolvedForProxyOps E} {contract : ContractAbstraction E}
    {validated : ValidatedImplementation E}
    (deploys : ∀ h', h <:+ h' → Unsettled h' →
      P h' (.hostDeploy contract resolved.constructorArgs))
    (settles : ∀ h', h <:+ h' → Unsettled h' → P h' (.fetchSettles validated resolved))
    (h0 : Unsettled h) :
    wp .free (committingOnly P)
      (fetchOrDeployThrough ⟨anyToolkit codec wildcard, resolved⟩ contract validated)
      (fun o h' => h <:+ h' ∧ ∀ fetched, o = .ok fetched →
        Settled validated resolved fetched.address h') h := by
  refine wp.askFree (unguarded rfl) (fun turns => ?_) fun e => ⟨List.suffix_cons .., error_returns⟩
  have hstart : h <:+ ⟨.fetchStarts validated resolved, .ok turns⟩ :: h := List.suffix_cons ..
  refine wp.bind (callBack_commits (fun h' hh => deploys h' (hstart.trans hh)) ?_ turns none) ?_
    fun e h' hh => ⟨hstart.trans hh.1, error_returns⟩
  · exact (asked_cons_of_neg (S := toolkitEffects E) rfl).trans h0
  rintro deployed h' ⟨hh, h0'⟩
  have hlast := hstart.trans hh
  refine wp.askFree (fun _ => settles h' hlast h0') (fun address => ?_) fun e => ?_
  · refine ⟨hlast.trans (List.suffix_cons ..), ?_⟩
    rintro _ ⟨⟩
    exact ⟨h', rfl⟩
  · exact ⟨hlast.trans (List.suffix_cons ..), error_returns⟩

-- ---------------------------------------------------------------------------
-- A creation
-- ---------------------------------------------------------------------------

/-- The host's deployment, as an event of the run. -/
def created (abstraction : ContractAbstraction E) (args : List Json) (reply : WriteBack) :
    Event (toolkitEffects E) Failure :=
  ⟨.hostDeploy abstraction args, .ok reply⟩

/-- The run's last deployment, with what it answered: the address is one, and
the transaction was confirmed since. -/
structure Created (codec : AddressCodec) (abstraction : ContractAbstraction E) (args : List Json)
    (before : ToolkitHistory E) (reply : WriteBack) (address : String) (h : ToolkitHistory E) :
    Prop where
  last : Quiet (created abstraction args reply :: before) h
  address : canonicalizeAddress codec reply.address = .ok address
  confirmed : ∃ hash, AnsweredSince (created abstraction args reply :: before) h
    (.confirm reply.transactionHash) (.confirmedSuccessful hash)

theorem Created.later {codec : AddressCodec} {abstraction : ContractAbstraction E}
    {args : List Json} {before : ToolkitHistory E} {reply : WriteBack} {address : String}
    {h' : ToolkitHistory E} (c : Created codec abstraction args before reply address h)
    (stay : Quiet h h') : Created codec abstraction args before reply address h' := by
  obtain ⟨hash, hconfirmed⟩ := c.confirmed
  exact ⟨c.last.trans stay, c.address, hash, hconfirmed.later stay.1⟩

/-- The transaction hash the artifact's entry was read to hold just now. -/
def ShowsHash (contract : ContractAbstraction E) (h : ToolkitHistory E) (hash : String) : Prop :=
  hash ≠ "" ∧ ∃ rest, h = ⟨.entry .transactionHash contract, .ok (some hash)⟩ :: rest

theorem readWriteBackHash_shows (contract : ContractAbstraction E) :
    wp .free (committingOnly P) (readWriteBackHash (anyEntry (E := E)) contract)
      (fun o h' => Quiet h h' ∧ ∃ prior, o = .ok prior ∧
        ∀ hash, ShowsHash contract h' hash → prior = some hash) h := by
  refine wp_catching.mpr (wp.askFree (unguarded rfl) (fun answer => ?_) fun e => ?_)
  · refine ⟨(Without.refl _ h).cons rfl, _, rfl, ?_⟩
    rintro hash ⟨hne, rest, hhead⟩
    obtain ⟨⟨⟩, -⟩ := hhead
    simp [hne]
  · refine ⟨(Without.refl _ h).cons rfl, none, rfl, ?_⟩
    rintro hash ⟨-, rest, hhead⟩
    cases hhead

theorem readWriteBack_shows (contract : ContractAbstraction E) :
    wp .free (committingOnly P) (readWriteBack (anyEntry (E := E)) contract)
      (fun o h' => Quiet h h' ∧ ∃ prior, o = .ok prior ∧
        ∀ hash, ShowsHash contract h' hash → prior.transactionHash = some hash) h := by
  have ignored : wp .free (committingOnly P)
      (tryCatch (do return (← (anyEntry (E := E)).address contract).filter (· ≠ ""))
        fun _ => return none) (fun o h' => (∃ a, o = .ok a) ∧ Quiet h h') h := by
    refine uncommitted_moves.guarded ?_ none h
    exact (anyEntry_uncommitted.address contract).bind fun _ => trivial
  refine wp.bind ignored ?_ ?_
  · rintro address h₁ ⟨-, stay⟩
    refine wp.bind (readWriteBackHash_shows contract) ?_ ?_
    · rintro hash h₂ ⟨stay₂, prior, ⟨⟩, hshown⟩
      exact ⟨stay.trans stay₂, _, rfl, hshown⟩
    · rintro e h₂ ⟨-, _, ⟨⟩, -⟩
  · rintro e h₁ ⟨⟨_, ⟨⟩⟩, -⟩

-- ---------------------------------------------------------------------------
-- deployProxy
-- ---------------------------------------------------------------------------

/-- The address the contract's entry was read to remember, or why none was. -/
inductive PriorRead (contract : ContractAbstraction E) (h : ToolkitHistory E) :
    Option String → Prop
  | noSurface (hno : contract.hasIsDeployed = false) : PriorRead contract h none
  | notDeployed (hno : Answered h (.entry .isDeployed contract) false) : PriorRead contract h none
  | unreadable (e : Failure) (hno : ⟨.entry .isDeployed contract, .error e⟩ ∈ h) :
      PriorRead contract h none
  | deployed (hdeployed : Answered h (.entry .isDeployed contract) true) {address : Option String}
      (haddress : Answered h (.entry .address contract) address) : PriorRead contract h address

/-- What the run has been asked and answered about a planned deployment. -/
structure ProxyDeployCleared (codec : AddressCodec) (resolved : ResolvedForProxyOps E)
    (contract : ContractAbstraction E) (args : List Json) (plan : ProxyDeployPlan E)
    (h : ToolkitHistory E) : Prop where
  candidate : plan.contract = contract
  validated : ∃ name, nameOf E contract "deployProxy" = .ok name ∧
    Answered h (.validateImplementation name resolved) plan.validated
  linked : linkGate contract resolved = .ok ()
  kind : resolved.kind = some plan.kind ∨
    resolved.kind = none ∧ Answered h (.inferKind plan.validated) plan.kind
  notBeacon : plan.kind ≠ .beacon
  deployer : Answered h .requireDeployer ()
  /-- A remembered address is one the record vouches for, as a proxy or as an
  implementation. -/
  replay : ∃ prior verdicts decision, PriorRead contract h prior ∧
    Answered h .replayVerdicts verdicts ∧ decideDeployReplay codec prior verdicts = .ok decision ∧
    ∀ address because, decision = .refuse address because →
      because = .unrecorded ∧ Answered h (.getImplRecord address) true
  constructible : assertNoCheatcodeCollision resolved.constructorArgs = .ok ()
  initData : encodeInitializer contract.abi (ProxyKind.text plan.kind) args resolved.initializer =
    .ok plan.initData
  sender : Answered h .resolveSender plan.sender
  artifact : Answered h (.proxyArtifact (if plan.kind = .transparent
    then "TransparentUpgradeableProxy" else "TRC1967Proxy")) plan.proxyAbstraction
  /-- The admin's owner is an address, the configured one before the sender's,
  and not itself an admin. -/
  owner : plan.kind = .transparent → ∃ owner, plan.initialOwner = some owner ∧
    (∃ spelling, (resolved.initialOwner = some spelling ∨
      resolved.initialOwner = none ∧ plan.sender = .resolved spelling) ∧
      canonicalizeAddress codec spelling = .ok owner) ∧
    (resolved.unsafeSkipProxyAdminCheck = true ∨ Answered h (.looksLikeProxyAdmin owner) false)
  ownerless : plan.kind ≠ .transparent → plan.initialOwner = none ∧ resolved.initialOwner = none

theorem PriorRead.later {contract : ContractAbstraction E} {prior : Option String}
    {h h' : ToolkitHistory E} (p : PriorRead contract h prior) (hh : h <:+ h') :
    PriorRead contract h' prior := by
  cases p with
  | noSurface hno => exact .noSurface hno
  | notDeployed hno => exact .notDeployed (hno.later hh)
  | unreadable e hno => exact .unreadable e (hh.mem hno)
  | deployed hdeployed haddress => exact .deployed (hdeployed.later hh) (haddress.later hh)

theorem ProxyDeployCleared.later {codec : AddressCodec} {resolved : ResolvedForProxyOps E}
    {contract : ContractAbstraction E} {args : List Json} {plan : ProxyDeployPlan E}
    {h h' : ToolkitHistory E} (c : ProxyDeployCleared codec resolved contract args plan h)
    (hh : h <:+ h') : ProxyDeployCleared codec resolved contract args plan h' := by
  obtain ⟨name, hname, hvalidated⟩ := c.validated
  obtain ⟨prior, verdicts, decision, hprior, hverdicts, hdecision, hrefused⟩ := c.replay
  exact {
    candidate := c.candidate
    validated := ⟨name, hname, hvalidated.later hh⟩
    linked := c.linked
    kind := c.kind.imp_right (And.imp_right fun hinferred => hinferred.later hh)
    notBeacon := c.notBeacon
    deployer := c.deployer.later hh
    replay := ⟨prior, verdicts, decision, hprior.later hh, hverdicts.later hh, hdecision,
      fun address because hd => (hrefused address because hd).imp_right fun ha => ha.later hh⟩
    constructible := c.constructible
    initData := c.initData
    sender := c.sender.later hh
    artifact := c.artifact.later hh
    owner := fun ht => by
      obtain ⟨owner, ho, hspelling, hskip⟩ := c.owner ht
      exact ⟨owner, ho, hspelling, hskip.imp_right fun ha => ha.later hh⟩
    ownerless := c.ownerless }

section
variable {resolved : ResolvedForProxyOps E} {contract : ContractAbstraction E} {args : List Json}
  {plan : ProxyDeployPlan E}

theorem readPriorDeployedAddress_read :
    wp .free (committingOnly P) (readPriorDeployedAddress (anyEntry (E := E)) contract)
      (fun o h' => Quiet h h' ∧ ∀ prior, o = .ok prior → PriorRead contract h' prior) h := by
  have stay : Quiet h h := Without.refl _ h
  unfold readPriorDeployedAddress
  split
  · rename_i hno
    refine ⟨stay, ?_⟩
    rintro _ ⟨⟩
    exact .noSurface (by simpa using hno)
  · have deployed : wp .free (committingOnly P)
        (tryCatch ((anyEntry (E := E)).isDeployed contract) fun _ => return false)
        (fun o h' => Quiet h h' ∧ ∃ deployed, o = .ok deployed ∧
          (deployed = true → Answered h' (.entry .isDeployed contract) true) ∧
          (deployed = false → PriorRead contract h' none)) h := by
      refine wp_catching.mpr (wp_perform.mpr ⟨unguarded rfl, ?_⟩)
      rintro (e | answer) h' ⟨-, rfl⟩
      · exact ⟨stay.cons rfl, false, rfl, Bool.noConfusion,
          fun _ => .unreadable e List.mem_cons_self⟩
      · cases answer with
        | true => exact ⟨stay.cons rfl, true, rfl, fun _ => .head, Bool.noConfusion⟩
        | false => exact ⟨stay.cons rfl, false, rfl, Bool.noConfusion, fun _ => .notDeployed .head⟩
    refine wp.bind deployed ?_ ?_
    · rintro answer h₁ ⟨stay₁, _, ⟨⟩, htrue, hfalse⟩
      cases answer with
      | false =>
        refine ⟨stay₁, ?_⟩
        rintro _ ⟨⟩
        exact hfalse rfl
      | true =>
        refine wp_perform.mpr ⟨unguarded rfl, ?_⟩
        rintro (e | address) h₂ ⟨-, rfl⟩
        · exact ⟨stay₁.cons rfl, error_returns⟩
        · refine ⟨stay₁.cons rfl, ?_⟩
          rintro _ ⟨⟩
          exact .deployed ((htrue rfl).later (List.suffix_cons ..)) .head
    · rintro e h₁ ⟨-, _, ⟨⟩, -⟩

theorem kindOrInferred_quiet {validated : ValidatedImplementation E} :
    wp .free (committingOnly P) (kindOrInferred (anyToolkit codec wildcard) validated resolved)
      (fun o h' => Quiet h h' ∧ ∀ kind, o = .ok kind → resolved.kind = some kind ∨
        resolved.kind = none ∧ Answered h' (.inferKind validated) kind) h := by
  unfold kindOrInferred
  cases hkind : resolved.kind with
  | some kind =>
    refine ⟨Without.refl _ h, ?_⟩
    rintro _ ⟨⟩
    exact .inl rfl
  | none =>
    refine wp_perform.mpr ⟨unguarded rfl, ?_⟩
    rintro (e | kind) h' ⟨-, rfl⟩
    · exact ⟨(Without.refl _ h).cons rfl, error_returns⟩
    · refine ⟨(Without.refl _ h).cons rfl, ?_⟩
      rintro _ ⟨⟩
      exact .inr ⟨rfl, .head⟩

theorem refuseStaleRecord_quiet {decision : DeployReplayDecision} :
    wp .free (committingOnly P) (refuseStaleRecord (anyToolkit (E := E) codec wildcard) decision)
      (fun o h' => Quiet h h' ∧ (o = .ok () → ∀ address because,
        decision = .refuse address because →
          because = .unrecorded ∧ Answered h' (.getImplRecord address) true)) h := by
  have stay : Quiet h h := Without.refl _ h
  cases decision with
  | proceed => exact ⟨stay, fun _ _ _ hd => by cases hd⟩
  | refuse address because =>
    simp only [refuseStaleRecord]
    split
    · rename_i hbecause
      refine wp.askUncommitted stay rfl (fun e h' stay => ⟨stay, by rintro ⟨⟩⟩) fun known stay => ?_
      cases known with
      | false => exact ⟨stay, by rintro ⟨⟩⟩
      | true =>
        refine ⟨stay, ?_⟩
        rintro - _ _ ⟨⟩
        exact ⟨hbecause, .head⟩
    · exact ⟨stay, by rintro ⟨⟩⟩

theorem resolveInitialOwner_quiet {kind : ProxyKind} {sender : EffectiveSender} :
    wp .free (committingOnly P)
      (resolveInitialOwner (E := E) ⟨anyToolkit codec wildcard, resolved⟩ kind sender)
      (fun o h' => Quiet h h' ∧ ∀ initialOwner, o = .ok initialOwner →
        (kind = .transparent → ∃ owner, initialOwner = some owner ∧
          (∃ spelling, (resolved.initialOwner = some spelling ∨
            resolved.initialOwner = none ∧ sender = .resolved spelling) ∧
            canonicalizeAddress codec spelling = .ok owner) ∧
          (resolved.unsafeSkipProxyAdminCheck = true ∨
            Answered h' (.looksLikeProxyAdmin owner) false)) ∧
        (kind ≠ .transparent → initialOwner = none)) h := by
  have stay : Quiet h h := Without.refl _ h
  unfold resolveInitialOwner
  simp only
  split
  · rename_i hkind
    refine ⟨stay, ?_⟩
    rintro _ ⟨⟩
    exact ⟨fun ht => absurd ht hkind, fun _ => rfl⟩
  rename_i hkind
  have hkind : kind = .transparent := by simpa using hkind
  refine wp.ofExcept_bind (fun owner howner => ?_) fun e _ => ⟨stay, error_returns⟩
  have hspelling : ∃ spelling, (resolved.initialOwner = some spelling ∨
      resolved.initialOwner = none ∧ sender = .resolved spelling) ∧
      canonicalizeAddress codec spelling = .ok owner := by
    cases hinitial : resolved.initialOwner with
    | some spelling =>
      rw [hinitial] at howner
      exact ⟨spelling, .inl rfl, howner⟩
    | none =>
      rw [hinitial] at howner
      cases sender with
      | resolved spelling => exact ⟨spelling, .inr ⟨rfl, rfl⟩, howner⟩
      | unconfigured => cases howner
  split
  · rename_i hskip
    refine ⟨stay, ?_⟩
    rintro _ ⟨⟩
    exact ⟨fun _ => ⟨owner, rfl, hspelling, .inl hskip⟩, fun hno => absurd hkind hno⟩
  · refine wp.askUncommitted stay rfl (fun e h' stay => ⟨stay, error_returns⟩) fun like stay => ?_
    cases like with
    | true => exact ⟨stay, error_returns⟩
    | false =>
      refine ⟨stay, ?_⟩
      rintro _ ⟨⟩
      exact ⟨fun _ => ⟨owner, rfl, hspelling, .inr .head⟩, fun hno => absurd hkind hno⟩

theorem requireProxyKind_ok {kind : ProxyKind} {allowed : List ProxyKind} {operation : String}
    (h : requireProxyKind kind allowed operation = .ok ()) : kind ∈ allowed := by
  unfold requireProxyKind at h
  split at h
  · rename_i hkind
    exact List.contains_iff_mem.mp hkind
  · cases h

/-- Planning commits to nothing, and what it ends with is cleared. -/
theorem planProxyDeploy_quiet :
    wp .free (committingOnly P)
      (planProxyDeploy ⟨anyToolkit codec wildcard, resolved⟩ contract args)
      (fun o h' => Quiet h h' ∧ ∀ plan, o = .ok plan →
        ProxyDeployCleared codec resolved contract args plan h') h := by
  have failed : ∀ (e : Failure) h', Quiet h h' → Quiet h h' ∧
      ∀ plan, (.error e : Except Failure (ProxyDeployPlan E)) = .ok plan →
        ProxyDeployCleared codec resolved contract args plan h' :=
    fun e h' stay => ⟨stay, error_returns⟩
  have stay : Quiet h h := Without.refl _ h
  unfold planProxyDeploy
  simp only [Script.bind_eq, Script.pure_eq, anyToolkit]
  refine wp.ofExcept_bind (fun name hname => ?_) fun e _ => failed e _ stay
  refine wp.askUncommitted stay rfl failed fun validated stay => ?_
  refine wp.ofExcept_bind (fun _ hlinked => ?_) fun e _ => failed e _ stay
  refine wp.bind kindOrInferred_quiet ?_ fun e h' hh => failed e h' (stay.trans hh.1)
  rintro kind h₁ ⟨stay₁, hkind⟩
  have hvalidated : Answered h₁ (.validateImplementation name resolved) validated :=
    Answered.head.later stay₁.1
  have hkind := hkind kind rfl
  have stay := stay.trans stay₁
  refine wp.ofExcept_bind (fun _ hallowed => ?_) fun e _ => failed e _ stay
  refine wp.ofExcept_bind (fun _ howned => ?_) fun e _ => failed e _ stay
  refine wp.askUncommitted stay rfl failed fun _ stay => ?_
  refine wp.bind readPriorDeployedAddress_read ?_ fun e h' hh => failed e h' (stay.trans hh.1)
  rintro prior h₂ ⟨stay₂, hprior⟩
  have hprior := hprior prior rfl
  have stay := stay.trans stay₂
  refine wp.askUncommitted stay rfl failed fun verdicts stay => ?_
  refine wp.ofExcept_bind (fun decision hdecision => ?_) fun e _ => failed e _ stay
  refine wp.bind refuseStaleRecord_quiet ?_ fun e h' hh => failed e h' (stay.trans hh.1)
  rintro _ h₃ ⟨stay₃, hreplay⟩
  have hreplay := hreplay rfl
  have stay := stay.trans stay₃
  refine wp.ofExcept_bind (fun _ hconstructible => ?_) fun e _ => failed e _ stay
  refine wp.ofExcept_bind (fun initData hinit => ?_) fun e _ => failed e _ stay
  refine wp.askUncommitted stay rfl failed fun sender stay => ?_
  refine wp.askUncommitted stay rfl failed fun abstraction stay => ?_
  refine wp.bind resolveInitialOwner_quiet ?_ fun e h' hh => failed e h' (stay.trans hh.1)
  rintro initialOwner h₄ ⟨stay₄, howner⟩
  obtain ⟨howner, hownerless⟩ := howner initialOwner rfl
  refine ⟨stay.trans stay₄, ?_⟩
  rintro plan ⟨⟩
  have h₃₄ : h₃ <:+ h₄ := (List.suffix_cons ..).trans ((List.suffix_cons ..).trans stay₄.1)
  have h₂₄ : h₂ <:+ h₄ := (List.suffix_cons ..).trans (stay₃.1.trans h₃₄)
  have h₁₄ : h₁ <:+ h₄ := (List.suffix_cons ..).trans (stay₂.1.trans h₂₄)
  have htransparent : kind ≠ .transparent → kind = .uups := by
    intro hno
    simpa [hno] using requireProxyKind_ok hallowed
  exact {
    candidate := rfl
    validated := ⟨name, hname, hvalidated.later h₁₄⟩
    linked := hlinked
    kind := hkind.imp_right (And.imp_right fun hinferred => hinferred.later h₁₄)
    notBeacon := by
      rintro ⟨⟩
      simpa using requireProxyKind_ok hallowed
    deployer := Answered.head.later (stay₂.1.trans h₂₄)
    replay := ⟨prior, verdicts, decision, hprior.later h₂₄, Answered.head.later (stay₃.1.trans h₃₄),
      hdecision, fun address because hd =>
        (hreplay address because hd).imp_right fun ha => ha.later h₃₄⟩
    constructible := hconstructible
    initData := hinit
    sender := (Answered.head.later (List.suffix_cons ..)).later stay₄.1
    artifact := Answered.head.later stay₄.1
    owner := howner
    ownerless := fun hno => by
      refine ⟨hownerless hno, ?_⟩
      have hrefused := refuseIf_ok howned
      simpa [htransparent hno] using hrefused }

/-- The moment the plan's proxy has been created. -/
abbrev ProxyDeployPlan.creation (plan : ProxyDeployPlan E) (implementation : String)
    (reply : WriteBack) (before : ToolkitHistory E) : ToolkitHistory E :=
  Tronbox.created plan.proxyAbstraction (plan.proxyArgs implementation) reply :: before

/-- The plan's proxy, live: created on the implementation the fetch settled on,
in a transaction its artifact did not show before, confirmed, and signed by
the sender of the plan where the node names the signer. -/
structure ProxyLive (codec : AddressCodec) (resolved : ResolvedForProxyOps E)
    (plan : ProxyDeployPlan E) (implementation : String) (before : ToolkitHistory E)
    (reply : WriteBack) (address : String) (h : ToolkitHistory E) : Prop where
  settled : SettledLast plan.validated resolved implementation before
  created : Created codec plan.proxyAbstraction (plan.proxyArgs implementation) before reply
    address h
  fresh : ∀ hash, ShowsHash plan.proxyAbstraction before hash → hash ≠ reply.transactionHash
  signed : ∃ signedBy, Answered h (.signerOf reply.transactionHash) signedBy ∧
    ∀ signer, signedBy = some signer → ∃ canonical,
      assertSignerMatches codec plan.sender signer (some ⟨address, reply.transactionHash⟩) =
        .ok canonical

theorem ProxyLive.later {implementation : String} {before : ToolkitHistory E} {reply : WriteBack}
    {address : String} {h' : ToolkitHistory E}
    (live : ProxyLive codec resolved plan implementation before reply address h)
    (stay : Quiet h h') : ProxyLive codec resolved plan implementation before reply address h' := by
  obtain ⟨signedBy, hsigned, hmatches⟩ := live.signed
  exact ⟨live.settled, live.created.later stay, live.fresh, signedBy, hsigned.later stay.1,
    hmatches⟩

/-- What holds wherever `deployProxy` commits: its plan is cleared, and it
deploys or settles the implementation that none was settled before, creates the
proxy on the one settled with nothing spent since, or records the live proxy. -/
def ProxyDeployCommits (codec : AddressCodec) (resolved : ResolvedForProxyOps E)
    (contract : ContractAbstraction E) (args : List Json) (h : ToolkitHistory E)
    (op : ToolkitOp E) : Prop :=
  ∃ plan, ProxyDeployCleared codec resolved contract args plan h ∧
    (Unsettled h ∧ (op = .hostDeploy contract resolved.constructorArgs ∨
        op = .fetchSettles plan.validated resolved) ∨
      ∃ implementation,
        SettledLast plan.validated resolved implementation h ∧
          op = .hostDeploy plan.proxyAbstraction (plan.proxyArgs implementation) ∨
        ∃ before reply address,
          ProxyLive codec resolved plan implementation before reply address h ∧
            op = .recordProxy address plan.kind)

/-- The proxy is live and recorded under its kind since it was created. -/
def ProxyDeployRecorded (codec : AddressCodec) (resolved : ResolvedForProxyOps E)
    (plan : ProxyDeployPlan E) (reply : WriteBack) (h : ToolkitHistory E) : Prop :=
  ∃ implementation before address,
    ProxyLive codec resolved plan implementation before reply address h ∧
      AnsweredSince (plan.creation implementation reply before) h
        (.recordProxy address plan.kind) ()

theorem ProxyDeployRecorded.later {reply : WriteBack} {h' : ToolkitHistory E}
    (r : ProxyDeployRecorded codec resolved plan reply h) (stay : Quiet h h') :
    ProxyDeployRecorded codec resolved plan reply h' := by
  obtain ⟨implementation, before, address, hlive, hrecorded⟩ := r
  exact ⟨implementation, before, address, hlive.later stay, hrecorded.later stay.1⟩

/-- What success of `deployProxy` says: its proxy is recorded, and the user's
artifact and the result name it. -/
def ProxyDeployDone (codec : AddressCodec) (resolved : ResolvedForProxyOps E)
    (contract : ContractAbstraction E) (args : List Json) (h : ToolkitHistory E)
    (result : DeployedProxy) : Prop :=
  ∃ plan reply, ProxyDeployCleared codec resolved contract args plan h ∧
    ProxyDeployRecorded codec resolved plan reply h ∧
    Answered h (.entry (.setAddress reply.address) contract) () ∧
    Answered h (.entry (.setTransactionHash reply.transactionHash) contract) () ∧
    result.address = reply.address ∧
    transactionIdentity reply.transactionHash "deployProxy" = .ok result.transaction

theorem compareSender_quiet {sender : EffectiveSender} {signedBy : Option String}
    {live : SpentDeployment} :
    wp .free (committingOnly P)
      (compareSender (anyToolkit (E := E) codec wildcard) sender signedBy live)
      (fun o h' => Quiet h h' ∧ (o = .ok () → ∀ signer, signedBy = some signer →
        ∃ canonical, assertSignerMatches codec sender signer live = .ok canonical)) h := by
  unfold compareSender
  cases signedBy with
  | none =>
    refine wp_perform.mpr ⟨unguarded rfl, ?_⟩
    rintro r h' ⟨-, rfl⟩
    exact ⟨(Without.refl _ h).cons rfl, fun _ _ hnone => by cases hnone⟩
  | some signer =>
    have stay : Quiet h h := Without.refl _ h
    refine wp.ofExcept_bind (fun canonical hmatches => ?_) fun e _ => ⟨stay, by rintro ⟨⟩⟩
    refine ⟨stay, ?_⟩
    rintro - _ ⟨⟩
    exact ⟨canonical, hmatches⟩

theorem settleDeployedProxy_commits {implementation : String} {before : ToolkitHistory E}
    {reply : WriteBack} {prior : PriorWriteBack}
    (hc : ProxyDeployCleared codec resolved contract args plan before)
    (hsettled : SettledLast plan.validated resolved implementation before)
    (hprior : ∀ hash, ShowsHash plan.proxyAbstraction before hash →
      prior.transactionHash = some hash) :
    wp .free (committingOnly (ProxyDeployCommits codec resolved contract args))
      (settleDeployedProxy (anyToolkit codec wildcard) plan prior reply)
      (fun o h' => ∀ writeBack, o = .ok writeBack →
        before <:+ h' ∧ writeBack = reply ∧ ProxyDeployRecorded codec resolved plan reply h')
      (plan.creation implementation reply before) := by
  have stay : Quiet (plan.creation implementation reply before) _ := Without.refl _ _
  have failed : ∀ (e : Failure) h', Quiet (plan.creation implementation reply before) h' →
      ∀ writeBack,
      (.error e : Except Failure WriteBack) = .ok writeBack →
        before <:+ h' ∧ writeBack = reply ∧ ProxyDeployRecorded codec resolved plan reply h' :=
    fun e h' _ => error_returns
  unfold settleDeployedProxy
  simp only [Script.bind_eq, Script.pure_eq]
  refine wp.ofExcept_bind (fun _ hfresh => ?_) fun e _ => failed e _ stay
  refine wp.ofExcept_bind (fun address haddress => ?_) fun e _ => failed e _ stay
  refine wp.askUncommitted stay rfl failed fun verdict stay => ?_
  cases verdict with
  | reverted verdict =>
    refine wp.bind (restoreWriteBack_wp anyEntry_uncommitted uncommitted_moves _ _) ?_ ?_
    · exact fun _ _ _ => error_returns
    · exact fun _ _ _ => error_returns
  | indeterminate verdict => exact failed _ _ stay
  | confirmedSuccessful hash =>
    simp only
    have hconfirmed : AnsweredSince (plan.creation implementation reply before) _
        (.confirm reply.transactionHash) (.confirmedSuccessful hash) := .head List.suffix_rfl
    refine wp.askUncommitted stay rfl failed fun signedBy stay => ?_
    refine wp.bind compareSender_quiet ?_ fun _ _ _ => error_returns
    rintro _ h₁ ⟨stay₁, hsigned⟩
    have live : ProxyLive codec resolved plan implementation before reply address h₁ := {
      settled := hsettled
      created := ⟨stay.trans stay₁, haddress, hash,
        hconfirmed.later ((List.suffix_cons ..).trans stay₁.1)⟩
      fresh := by
        rintro _ hshows rfl
        simp [assertFreshTransaction, hprior _ hshows] at hfresh
      signed := ⟨signedBy, Answered.head.later stay₁.1, hsigned rfl⟩ }
    have hbefore := (List.suffix_cons _ _).trans (stay.trans stay₁).1
    refine wp.bind (R := fun o h' => o = .ok () → ∃ r : Unit,
      h' = ⟨.recordProxy address plan.kind, .ok r⟩ :: h₁) ?_ ?_ fun _ _ _ => error_returns
    · refine wp_catching.mpr (wp_perform.mpr ⟨fun _ => ?_, ?_⟩)
      · exact ⟨plan, hc.later hbefore, .inr ⟨implementation, .inr ⟨before, reply, address, live,
          rfl⟩⟩⟩
      · rintro (e | r) h' ⟨-, rfl⟩
        · rintro ⟨⟩
        · exact fun _ => ⟨r, rfl⟩
    · rintro _ h₂ hwritten
      obtain ⟨r, rfl⟩ := hwritten rfl
      rintro _ ⟨⟩
      refine ⟨hbefore.trans (List.suffix_cons ..), rfl, implementation, before, address, ?_, ?_⟩
      · exact live.later ((Without.refl _ h₁).cons rfl)
      · exact .head (stay.trans stay₁).1

theorem deployProxyStep_commits (hc : ProxyDeployCleared codec resolved contract args plan h)
    (h0 : Unsettled h) :
    wp .free (committingOnly (ProxyDeployCommits codec resolved contract args))
      (deployProxyStep ⟨anyToolkit codec wildcard, resolved⟩ plan)
      (fun o h' => ∀ writeBack, o = .ok writeBack →
        h <:+ h' ∧ ProxyDeployRecorded codec resolved plan writeBack h') h := by
  unfold deployProxyStep
  simp only [Script.bind_eq]
  refine wp.bind (fetchOrDeployThrough_commits ?_ ?_ h0) ?_ fun _ _ _ => error_returns
  · rw [hc.candidate]
    exact fun h' hh h0' => ⟨plan, hc.later hh, .inl ⟨h0', .inl rfl⟩⟩
  · exact fun h' hh h0' => ⟨plan, hc.later hh, .inl ⟨h0', .inr rfl⟩⟩
  rintro fetched h₁ ⟨hh, hfetched⟩
  have hsettled : SettledLast plan.validated resolved fetched.address h₁ :=
    ⟨h₁, hfetched fetched rfl, Without.refl _ h₁⟩
  refine wp.bind (readWriteBack_shows plan.proxyAbstraction) ?_ fun _ _ _ => error_returns
  rintro prior h₂ ⟨stay, _, ⟨⟩, hprior⟩
  have hsettled := hsettled.later stay
  have hc := hc.later (hh.trans stay.1)
  refine wp.askFree ?_ (fun reply => ?_) fun _ => error_returns
  · exact fun _ => ⟨plan, hc, .inr ⟨fetched.address, .inl ⟨hsettled, rfl⟩⟩⟩
  · refine wp_mono (fun o h' hdone writeBack ho => ?_)
      (settleDeployedProxy_commits hc hsettled hprior)
    obtain ⟨hbefore, rfl, hrecorded⟩ := hdone writeBack ho
    exact ⟨(hh.trans stay.1).trans hbefore, hrecorded⟩

theorem wildcardNote_quiet :
    wp .free (committingOnly P) (wildcardNote (anyToolkit (E := E) codec wildcard))
      (fun _ h' => Quiet h h') h := by
  refine wp.when (fun _ => wp_perform.mpr ⟨unguarded rfl, ?_⟩) fun _ => Without.refl _ h
  rintro r h' ⟨-, rfl⟩
  exact (Without.refl _ h).cons rfl

theorem runDeployProxy_commits :
    wp .free (committingOnly (ProxyDeployCommits codec resolved contract args))
      (runDeployProxy ⟨anyToolkit codec wildcard, resolved⟩ contract args)
      (fun o h' => ∀ result, o = .ok result →
        ProxyDeployDone codec resolved contract args h' result) [] := by
  unfold runDeployProxy
  simp only [Script.bind_eq, Script.pure_eq]
  refine wp.bind planProxyDeploy_quiet ?_ fun _ _ _ => error_returns
  rintro plan h₁ ⟨stay₁, hplan⟩
  have hc := hplan plan rfl
  refine wp.bind (R := fun o h' => ∀ writeBack, o = .ok writeBack →
    h₁ <:+ h' ∧ ProxyDeployRecorded codec resolved plan writeBack h') ?_ ?_
    fun _ _ _ => error_returns
  · refine wp.askUncommitted (.refl _ h₁) rfl (fun _ _ _ => error_returns) fun _ stay₂ => ?_
    refine restoringWriteBackOnFailure_wp anyEntry_uncommitted uncommitted_moves contract
      (fun h₂ stay₃ => ?_) fun _ _ _ _ _ => error_returns
    have stay := stay₂.trans stay₃
    refine wp_mono (fun o h' hdone writeBack ho => ?_) (deployProxyStep_commits (hc.later stay.1)
      (.of_quiet (stay₁.trans stay)))
    exact (hdone writeBack ho).imp_left stay.1.trans
  rintro reply h₂ hstep
  obtain ⟨hh, hrecorded⟩ := hstep reply rfl
  refine wp.askUncommitted (.refl _ h₂) rfl (fun _ _ _ => error_returns) fun _ stay => ?_
  refine wp.askUncommitted stay rfl (fun _ _ _ => error_returns) fun _ stay => ?_
  refine wp.bind wildcardNote_quiet ?_ fun _ _ _ => error_returns
  rintro _ h₃ stay₃
  have hto₃ := (List.suffix_cons _ _).trans stay₃.1
  have stay := stay.trans stay₃
  refine wp.askUncommitted stay rfl (fun _ _ _ => error_returns) fun handle stay => ?_
  refine wp.ofExcept_bind (fun _ _ => ?_) fun _ _ => error_returns
  refine wp.ofExcept_bind (fun transaction htransaction => ?_) fun _ _ => error_returns
  rintro result ⟨⟩
  refine ⟨plan, reply, hc.later (hh.trans stay.1), hrecorded.later stay, ?_, ?_, rfl, htransaction⟩
  · exact (Answered.head.later hto₃).later (List.suffix_cons ..)
  · exact (Answered.head.later stay₃.1).later (List.suffix_cons ..)

end

-- ---------------------------------------------------------------------------
-- Beacons
-- ---------------------------------------------------------------------------

section
variable {resolved : ResolvedForProxyOps E} {contract : ContractAbstraction E} {args : List Json}

/-- One deployment by the host, and success on its confirmation alone. -/
theorem deployAndConfirm_commits {abstraction : ContractAbstraction E}
    (guard : ∀ h', Quiet h h' → P h' (.hostDeploy abstraction args)) :
    wp .free (committingOnly P)
      (deployAndConfirm (anyToolkit (E := E) codec wildcard) abstraction args)
      (fun o h' => ∀ reply live, o = .ok (reply, live) → ∃ before address, Quiet h before ∧
        live = ⟨address, reply.transactionHash⟩ ∧
        Created codec abstraction args before reply address h') h := by
  unfold deployAndConfirm
  simp only [Script.bind_eq, Script.pure_eq]
  have failed : ∀ (e : Failure) (h' : ToolkitHistory E), ∀ reply live,
      (.error e : Except Failure (WriteBack × SpentDeployment)) = .ok (reply, live) →
        ∃ before address, Quiet h before ∧ live = ⟨address, reply.transactionHash⟩ ∧
          Created codec abstraction args before reply address h' :=
    fun e h' _ _ ho => by cases ho
  refine wp.bind (readWriteBack_wp anyEntry_uncommitted uncommitted_moves abstraction) ?_
    fun e h' _ => failed e h'
  rintro prior before ⟨-, stay⟩
  refine wp.askFree (fun _ => guard before stay) (fun reply => ?_) fun e => failed e _
  refine wp.ofExcept_bind (fun address haddress => ?_) fun e _ => failed e _
  have hcreated : Quiet (created abstraction args reply :: before) _ := Without.refl _ _
  refine wp.bind (R := fun o h' => o = .ok () →
    Created codec abstraction args before reply address h') ?_ ?_
    fun e h' _ => failed e h'
  · unfold confirmOrRefuse
    refine wp.askUncommitted hcreated rfl (fun _ _ _ => by rintro ⟨⟩) fun verdict since => ?_
    cases verdict with
    | reverted verdict =>
      refine wp.bind (restoreWriteBack_wp anyEntry_uncommitted uncommitted_moves _ _) ?_ ?_
      · exact fun _ _ _ => by rintro ⟨⟩
      · exact fun _ _ _ => by rintro ⟨⟩
    | indeterminate verdict => rintro ⟨⟩
    | confirmedSuccessful hash => exact fun _ => ⟨since, haddress, hash, .head List.suffix_rfl⟩
  · rintro _ h₁ hdone
    rintro _ _ ⟨⟩
    exact ⟨before, address, stay, rfl, hdone rfl⟩

-- ---------------------------------------------------------------------------
-- deployBeacon
-- ---------------------------------------------------------------------------

/-- The candidate validated as a beacon's, the owner an address, the beacon's
own artifact found. -/
structure BeaconDeployCleared (codec : AddressCodec) (resolved : ResolvedForProxyOps E)
    (contract : ContractAbstraction E) (validated : ValidatedImplementation E)
    (beaconAbstraction : ContractAbstraction E) (owner : String) (h : ToolkitHistory E) :
    Prop where
  validated : ∃ name, nameOf E contract "deployBeacon" = .ok name ∧
    Answered h (.validateImplementation name { resolved with kind := some .beacon }) validated
  deployer : Answered h .requireDeployer ()
  owner : ∃ sender, Answered h .resolveSender sender ∧ ∃ spelling,
    (resolved.initialOwner = some spelling ∨
      resolved.initialOwner = none ∧ sender = .resolved spelling) ∧
    canonicalizeAddress codec spelling = .ok owner
  artifact : Answered h (.proxyArtifact "UpgradeableBeacon") beaconAbstraction

theorem BeaconDeployCleared.later {validated : ValidatedImplementation E}
    {beaconAbstraction : ContractAbstraction E} {owner : String} {h' : ToolkitHistory E}
    (c : BeaconDeployCleared codec resolved contract validated beaconAbstraction owner h)
    (hh : h <:+ h') :
    BeaconDeployCleared codec resolved contract validated beaconAbstraction owner h' := by
  obtain ⟨name, hname, hvalidated⟩ := c.validated
  obtain ⟨sender, hsender, howner⟩ := c.owner
  exact ⟨⟨name, hname, hvalidated.later hh⟩, c.deployer.later hh, ⟨sender, hsender.later hh,
    howner⟩, c.artifact.later hh⟩

/-- Wherever `deployBeacon` commits, it is cleared, and deploys or settles the
implementation, or the beacon on the one settled with nothing spent since. -/
def BeaconDeployCommits (codec : AddressCodec) (resolved : ResolvedForProxyOps E)
    (contract : ContractAbstraction E) (h : ToolkitHistory E) (op : ToolkitOp E) : Prop :=
  ∃ validated beaconAbstraction owner,
    BeaconDeployCleared codec resolved contract validated beaconAbstraction owner h ∧
    (Unsettled h ∧ (op = .hostDeploy contract resolved.constructorArgs ∨
        op = .fetchSettles validated resolved) ∨
      ∃ implementation, SettledLast validated resolved implementation h ∧
        op = .hostDeploy beaconAbstraction [.str implementation, .str owner])

/-- The beacon was created on the implementation settled, and confirmed. -/
def BeaconDeployDone (codec : AddressCodec) (resolved : ResolvedForProxyOps E)
    (contract : ContractAbstraction E) (h : ToolkitHistory E) (result : DeployedBeacon) : Prop :=
  ∃ validated beaconAbstraction owner before reply address,
    BeaconDeployCleared codec resolved contract validated beaconAbstraction owner h ∧
    SettledLast validated resolved result.implementation before ∧
    Created codec beaconAbstraction [.str result.implementation, .str owner] before reply address
      h ∧
    result.address = reply.address ∧
    transactionIdentity reply.transactionHash "deployBeacon" = .ok result.transaction

theorem beaconOwner_ok {sender : EffectiveSender} {owner : String}
    (h : beaconOwner (anyToolkit (E := E) codec wildcard) resolved sender = .ok owner) :
    ∃ spelling, (resolved.initialOwner = some spelling ∨
      resolved.initialOwner = none ∧ sender = .resolved spelling) ∧
      canonicalizeAddress codec spelling = .ok owner := by
  unfold beaconOwner at h
  cases hinitial : resolved.initialOwner with
  | some spelling =>
    rw [hinitial] at h
    exact ⟨spelling, .inl rfl, h⟩
  | none =>
    rw [hinitial] at h
    cases sender with
    | resolved spelling => exact ⟨spelling, .inr ⟨rfl, rfl⟩, h⟩
    | unconfigured => cases h

theorem runDeployBeacon_commits :
    wp .free (committingOnly (BeaconDeployCommits codec resolved contract))
      (runDeployBeacon ⟨anyToolkit codec wildcard, resolved⟩ contract)
      (fun o h' => ∀ result, o = .ok result →
        BeaconDeployDone codec resolved contract h' result) [] := by
  have stay : Quiet ([] : ToolkitHistory E) [] := Without.refl _ _
  unfold runDeployBeacon
  simp only [Script.bind_eq, Script.pure_eq]
  refine wp.ofExcept_bind (fun name hname => ?_) fun _ _ => error_returns
  refine wp.askUncommitted stay rfl (fun _ _ _ => error_returns) fun validated stay => ?_
  refine wp.askUncommitted stay rfl (fun _ _ _ => error_returns) fun _ stay => ?_
  refine wp.askUncommitted stay rfl (fun _ _ _ => error_returns) fun sender stay => ?_
  refine wp.ofExcept_bind (fun owner howner => ?_) fun _ _ => error_returns
  refine wp.askUncommitted stay rfl (fun _ _ _ => error_returns) fun abstraction stay₁ => ?_
  have hc : BeaconDeployCleared codec resolved contract validated abstraction owner
      [⟨.proxyArtifact "UpgradeableBeacon", .ok abstraction⟩, ⟨.resolveSender, .ok sender⟩,
        ⟨.requireDeployer, .ok ()⟩,
        ⟨.validateImplementation name { resolved with kind := some .beacon }, .ok validated⟩] := {
    validated := ⟨name, hname, by simp [Answered]⟩
    deployer := by simp [Answered]
    owner := ⟨sender, by simp [Answered], beaconOwner_ok howner⟩
    artifact := .head }
  refine wp.bind (R := fun o h' => ∀ out, o = .ok out → ∃ before address,
      BeaconDeployCleared codec resolved contract validated abstraction owner h' ∧
      SettledLast validated resolved out.2 before ∧
      Created codec abstraction [.str out.2, .str owner] before out.1 address h') ?_ ?_
    fun _ _ _ => error_returns
  · refine wp.askUncommitted stay₁ rfl (fun _ _ _ => error_returns) fun _ stay₂ => ?_
    refine restoringWriteBackOnFailure_wp anyEntry_uncommitted uncommitted_moves contract
      (fun h₁ stay₃ => ?_) fun _ _ _ _ _ => error_returns
    have hc := (hc.later (List.suffix_cons ..)).later stay₃.1
    have h0 : Unsettled h₁ := .of_quiet (stay₂.trans stay₃)
    refine wp.bind (fetchOrDeployThrough_commits ?_ ?_ h0) ?_ fun _ _ _ => error_returns
    · exact fun h' hh h0' => ⟨validated, abstraction, owner, hc.later hh, .inl ⟨h0', .inl rfl⟩⟩
    · exact fun h' hh h0' => ⟨validated, abstraction, owner, hc.later hh, .inl ⟨h0', .inr rfl⟩⟩
    rintro fetched h₂ ⟨hh, hfetched⟩
    have hsettled : SettledLast validated resolved fetched.address h₂ :=
      ⟨h₂, hfetched fetched rfl, Without.refl _ h₂⟩
    refine wp.bind (deployAndConfirm_commits fun h' stay => ?_) ?_ fun _ _ _ => error_returns
    · exact ⟨validated, abstraction, owner, hc.later (hh.trans stay.1), .inr ⟨fetched.address,
        hsettled.later stay, rfl⟩⟩
    rintro ⟨reply, live⟩ h₃ hdeployed
    obtain ⟨before, address, stay, -, hcreated⟩ := hdeployed reply live rfl
    rintro out ⟨⟩
    have hbefore : before <:+ h₃ := (List.suffix_cons ..).trans hcreated.last.1
    exact ⟨before, address, hc.later ((hh.trans stay.1).trans hbefore), hsettled.later stay,
      hcreated⟩
  rintro ⟨reply, implementation⟩ h₁ hstep
  obtain ⟨before, address, hcleared, hsettled, hcreated⟩ := hstep _ rfl
  refine wp.askUncommitted (.refl _ h₁) rfl (fun _ _ _ => error_returns) fun handle stay => ?_
  refine wp.ofExcept_bind (fun _ _ => ?_) fun _ _ => error_returns
  refine wp.ofExcept_bind (fun transaction htransaction => ?_) fun _ _ => error_returns
  rintro result ⟨⟩
  exact ⟨validated, abstraction, owner, before, reply, address, hcleared.later stay.1, hsettled,
    hcreated.later stay, rfl, htransaction⟩

-- ---------------------------------------------------------------------------
-- deployBeaconProxy
-- ---------------------------------------------------------------------------

/-- The beacon answered with an implementation, the initializer encoded, the
proxy's own artifact found. -/
structure BeaconProxyDeployCleared (codec : AddressCodec) (resolved : ResolvedForProxyOps E)
    (beaconAddress : String) (contract : ContractAbstraction E) (args : List Json)
    (beacon initData : String) (proxyAbstraction : ContractAbstraction E) (h : ToolkitHistory E) :
    Prop where
  target : canonicalizeAddress codec beaconAddress = .ok beacon
  answers : ∃ implementation,
    Answered h (.readBeaconImplementation beacon) (.implementation implementation)
  initData : encodeInitializer contract.abi "beacon" args resolved.initializer = .ok initData
  deployer : Answered h .requireDeployer ()
  artifact : Answered h (.proxyArtifact "BeaconProxy") proxyAbstraction

theorem BeaconProxyDeployCleared.later {beaconAddress beacon initData : String}
    {proxyAbstraction : ContractAbstraction E} {h' : ToolkitHistory E}
    (c : BeaconProxyDeployCleared codec resolved beaconAddress contract args beacon initData
      proxyAbstraction h) (hh : h <:+ h') :
    BeaconProxyDeployCleared codec resolved beaconAddress contract args beacon initData
      proxyAbstraction h' := by
  obtain ⟨implementation, hanswers⟩ := c.answers
  exact ⟨c.target, ⟨implementation, hanswers.later hh⟩, c.initData, c.deployer.later hh,
    c.artifact.later hh⟩

/-- Wherever `deployBeaconProxy` commits, it is cleared, and creates the proxy
with nothing spent before, or records the one created and confirmed. -/
def BeaconProxyDeployCommits (codec : AddressCodec) (resolved : ResolvedForProxyOps E)
    (beaconAddress : String) (contract : ContractAbstraction E) (args : List Json)
    (h : ToolkitHistory E) (op : ToolkitOp E) : Prop :=
  ∃ beacon initData proxyAbstraction,
    BeaconProxyDeployCleared codec resolved beaconAddress contract args beacon initData
      proxyAbstraction h ∧
    (Quiet [] h ∧ op = .hostDeploy proxyAbstraction [.str beacon, .str initData] ∨
      ∃ before reply address, Quiet [] before ∧
        Created codec proxyAbstraction [.str beacon, .str initData] before reply address h ∧
        op = .recordProxy address .beacon)

/-- The proxy was created behind the beacon, confirmed, and recorded since. -/
def BeaconProxyDeployDone (codec : AddressCodec) (resolved : ResolvedForProxyOps E)
    (beaconAddress : String) (contract : ContractAbstraction E) (args : List Json)
    (h : ToolkitHistory E) (result : DeployedProxy) : Prop :=
  ∃ beacon initData proxyAbstraction before reply address,
    BeaconProxyDeployCleared codec resolved beaconAddress contract args beacon initData
      proxyAbstraction h ∧
    Created codec proxyAbstraction [.str beacon, .str initData] before reply address h ∧
    AnsweredSince (created proxyAbstraction [.str beacon, .str initData] reply :: before) h
      (.recordProxy address .beacon) () ∧
    result.address = reply.address ∧
    transactionIdentity reply.transactionHash "deployBeaconProxy" = .ok result.transaction

theorem requireBeacon_quiet {beacon : String} :
    wp .free (committingOnly P) (requireBeacon (anyToolkit (E := E) codec wildcard) beacon)
      (fun o h' => Quiet h h' ∧ ∀ implementation, o = .ok implementation →
        Answered h' (.readBeaconImplementation beacon) (.implementation implementation)) h := by
  unfold requireBeacon
  refine wp.askUncommitted (.refl _ h) rfl (fun _ _ stay => ⟨stay, error_returns⟩)
    fun read stay => ?_
  cases read with
  | implementation implementation =>
    refine ⟨stay, ?_⟩
    rintro _ ⟨⟩
    exact .head
  | noCodeAtBeacon => exact ⟨stay, error_returns⟩
  | notABeacon => exact ⟨stay, error_returns⟩

theorem deployBeaconProxyStep_commits {beaconAddress beacon initData : String}
    {proxyAbstraction : ContractAbstraction E}
    (hc : BeaconProxyDeployCleared codec resolved beaconAddress contract args beacon initData
      proxyAbstraction h) (stay₀ : Quiet [] h) :
    wp .free (committingOnly (BeaconProxyDeployCommits codec resolved beaconAddress contract args))
      (deployBeaconProxyStep (anyToolkit codec wildcard) proxyAbstraction beacon initData)
      (fun o h' => ∀ reply, o = .ok reply → ∃ before address,
        BeaconProxyDeployCleared codec resolved beaconAddress contract args beacon initData
          proxyAbstraction h' ∧
        Created codec proxyAbstraction [.str beacon, .str initData] before reply address h' ∧
        AnsweredSince (created proxyAbstraction [.str beacon, .str initData] reply :: before) h'
          (.recordProxy address .beacon) ()) h := by
  unfold deployBeaconProxyStep
  simp only [Script.bind_eq, Script.pure_eq]
  refine wp.bind (deployAndConfirm_commits fun h' stay => ?_) ?_ fun _ _ _ => error_returns
  · exact ⟨beacon, initData, proxyAbstraction, hc.later stay.1, .inl ⟨stay₀.trans stay, rfl⟩⟩
  rintro ⟨reply, live⟩ h₁ hdeployed
  obtain ⟨before, address, stay, rfl, hcreated⟩ := hdeployed _ _ rfl
  have hc := hc.later (stay.1.trans ((List.suffix_cons ..).trans hcreated.last.1))
  refine wp.bind (R := fun o h' => o = .ok () → ∃ r : Unit,
    h' = ⟨.recordProxy address .beacon, .ok r⟩ :: h₁) ?_ ?_ fun _ _ _ => error_returns
  · refine wp_catching.mpr (wp_perform.mpr ⟨fun _ => ?_, ?_⟩)
    · exact ⟨beacon, initData, proxyAbstraction, hc, .inr ⟨before, reply, address,
        stay₀.trans stay, hcreated, rfl⟩⟩
    · rintro (e | r) h' ⟨-, rfl⟩
      · rintro ⟨⟩
      · exact fun _ => ⟨r, rfl⟩
  · rintro _ h₂ hwritten
    obtain ⟨r, rfl⟩ := hwritten rfl
    rintro _ ⟨⟩
    exact ⟨before, address, hc.later (List.suffix_cons ..),
      hcreated.later ((Without.refl _ h₁).cons rfl), .head hcreated.last.1⟩

theorem runDeployBeaconProxy_commits {beaconAddress : String} :
    wp .free (committingOnly (BeaconProxyDeployCommits codec resolved beaconAddress contract args))
      (runDeployBeaconProxy ⟨anyToolkit codec wildcard, resolved⟩ beaconAddress contract args)
      (fun o h' => ∀ result, o = .ok result →
        BeaconProxyDeployDone codec resolved beaconAddress contract args h' result) [] := by
  unfold runDeployBeaconProxy
  simp only [Script.bind_eq, Script.pure_eq]
  refine wp.ofExcept_bind (fun beacon htarget => ?_) fun _ _ => error_returns
  refine wp.bind requireBeacon_quiet ?_ fun _ _ _ => error_returns
  rintro implementation h₁ ⟨stay, hanswers⟩
  have hanswers := hanswers implementation rfl
  refine wp.ofExcept_bind (fun initData hinit => ?_) fun _ _ => error_returns
  refine wp.askUncommitted stay rfl (fun _ _ _ => error_returns) fun _ stay => ?_
  refine wp.askUncommitted stay rfl (fun _ _ _ => error_returns) fun abstraction stay => ?_
  have hc : BeaconProxyDeployCleared codec resolved beaconAddress contract args beacon initData
      abstraction (⟨.proxyArtifact "BeaconProxy", .ok abstraction⟩ ::
        ⟨.requireDeployer, .ok ()⟩ :: h₁) := {
    target := htarget
    answers := ⟨implementation,
      hanswers.later ((List.suffix_cons ..).trans (List.suffix_cons ..))⟩
    initData := hinit
    deployer := by simp [Answered]
    artifact := .head }
  refine wp.bind (R := fun o h' => ∀ reply, o = .ok reply → ∃ before address,
      BeaconProxyDeployCleared codec resolved beaconAddress contract args beacon initData
        abstraction h' ∧
      Created codec abstraction [.str beacon, .str initData] before reply address h' ∧
      AnsweredSince (created abstraction [.str beacon, .str initData] reply :: before) h'
        (.recordProxy address .beacon) ()) ?_ ?_ fun _ _ _ => error_returns
  · refine wp.askUncommitted stay rfl (fun _ _ _ => error_returns) fun _ stay => ?_
    exact deployBeaconProxyStep_commits (hc.later (List.suffix_cons ..)) stay
  rintro reply h₂ hstep
  obtain ⟨before, address, hcleared, hcreated, hrecorded⟩ := hstep _ rfl
  refine wp.askUncommitted (.refl _ h₂) rfl (fun _ _ _ => error_returns) fun handle stay => ?_
  refine wp.ofExcept_bind (fun _ _ => ?_) fun _ _ => error_returns
  refine wp.ofExcept_bind (fun transaction htransaction => ?_) fun _ _ => error_returns
  rintro result ⟨⟩
  exact ⟨beacon, initData, abstraction, before, reply, address, hcleared.later stay.1,
    hcreated.later stay, hrecorded.later stay.1, rfl, htransaction⟩

end

-- ---------------------------------------------------------------------------
-- Every run
-- ---------------------------------------------------------------------------

/-- The law over the runs of one deployment: `commits` wherever the host
deploys, a transaction is sent, a fetch settles or the record is written, and
`done` on success. -/
structure DeployOrdered {α : Type} (x : Task (toolkitEffects E) α)
    (commits : ToolkitHistory E → ToolkitOp E → Prop) (done : ToolkitHistory E → α → Prop) :
    Prop where
  cleared : ∀ op next h, Script.Reaches .free (x, []) (.call op next, h) →
    ToolkitOp.commits op = true → commits h op
  observed : ∀ result h, Script.Reaches .free (x, []) (.pure result, h) → done h result

theorem DeployOrdered.of_wp {α : Type} {x : Task (toolkitEffects E) α}
    {done : ToolkitHistory E → α → Prop}
    (hx : wp .free (committingOnly P) x (fun o h => ∀ a, o = .ok a → done h a) []) :
    DeployOrdered x P done where
  cleared _ _ _ hr := hx.calls hr
  observed a _ hr := hx.returns hr a rfl

/-- Under every behaviour of the toolkit, the deployments commit to what was
cleared and nothing else, and succeed on what was confirmed. -/
theorem deployments_ordered (codec : AddressCodec) (wildcard : Bool)
    (resolved : ResolvedForProxyOps E) (contract : ContractAbstraction E) (args : List Json)
    (beaconAddress : String) :
    DeployOrdered (runDeployProxy ⟨anyToolkit codec wildcard, resolved⟩ contract args)
      (ProxyDeployCommits codec resolved contract args)
      (ProxyDeployDone codec resolved contract args) ∧
    DeployOrdered (runDeployBeacon ⟨anyToolkit codec wildcard, resolved⟩ contract)
      (BeaconDeployCommits codec resolved contract) (BeaconDeployDone codec resolved contract) ∧
    DeployOrdered
      (runDeployBeaconProxy ⟨anyToolkit codec wildcard, resolved⟩ beaconAddress contract args)
      (BeaconProxyDeployCommits codec resolved beaconAddress contract args)
      (BeaconProxyDeployDone codec resolved beaconAddress contract args) :=
  ⟨.of_wp runDeployProxy_commits, .of_wp runDeployBeacon_commits,
    .of_wp runDeployBeaconProxy_commits⟩

end

end TronUpgrades.Tronbox
