import TronUpgrades.Tronbox.RecordBacked
import TronUpgrades.Tronbox.Refined

/-!
# Nothing recorded is made up, as wired

The same of the production toolkit, in the host's own operations: what a
capability was answered is what its script came to, so the evidence for a
record write lies in what the host, the node and the engine answered. Processes
interleave at each of these, not at each capability.
-/

namespace TronUpgrades.Tronbox

open Effects Record Address

section
variable {E : Engine} {env : Environment}

-- ---------------------------------------------------------------------------
-- What a capability's answer rests on
-- ---------------------------------------------------------------------------

/-- An answer of the other toolkit is what a segment of the run came to. -/
theorem Realises.segmentOf {fs : List (Fetching E)} {h : HostHistory E} {H : ToolkitHistory E}
    (hreal : Realises env fs h H)
    {op : ToolkitOp E} {a : op.Reply} (hop : op.fetches = false) (hanswered : Answered H op a) :
    ∃ h₁ h₂, Script.Reaches .free (producing env op, h₁) (.pure a, h₂) ∧ h₂ <:+ h := by
  induction hreal with
  | start => cases hanswered
  | engineFinds _ _ ih | engineCallsBack _ _ ih | engineSettles _ ih =>
    obtain ⟨h₁, h₂, hr, hsuffix⟩ := ih hanswered
    exact ⟨h₁, h₂, hr, hsuffix.trans (List.suffix_cons ..)⟩
  | segment _ _ hr ih =>
    rcases List.mem_cons.mp hanswered with hlast | hanswered
    · cases hlast
      exact ⟨_, _, hr, List.suffix_rfl⟩
    · obtain ⟨h₁, h₂, hr', hsuffix⟩ := ih hanswered
      exact ⟨h₁, h₂, hr', hsuffix.trans hr.suffix⟩
  | fetchStarts _ ih | fetchSettles _ _ ih =>
    rcases List.mem_cons.mp hanswered with hlast | hanswered
    · obtain rfl : op = _ := congrArg Event.op hlast
      cases hop
    · exact ih hanswered

/-- So it rests on whatever every success of the capability's script does. -/
theorem Realises.rests {fs : List (Fetching E)} {h : HostHistory E} {H : ToolkitHistory E}
    (hreal : Realises env fs h H)
    {op : ToolkitOp E} {a : op.Reply} {C : op.Reply → HostHistory E → Prop}
    (hanswered : Answered H op a) (hop : op.fetches = false)
    (succeeds : ∀ h₁, wp .free (fun _ _ => True) (producing env op)
      (fun o t => ∀ a, o = .ok a → C a t) h₁) : ∃ h₂, h₂ <:+ h ∧ C a h₂ := by
  obtain ⟨h₁, h₂, hr, hsuffix⟩ := hreal.segmentOf hop hanswered
  exact ⟨h₂, hsuffix, (succeeds h₁).returns hr a rfl⟩

theorem requireProxyArtifact_rests (name : String) (h : HostHistory E) :
    wp .free (fun _ _ => True) (requireProxyArtifact name)
      (fun o t => ∀ contract, o = .ok contract → ∃ resolution,
        Answered t (.resolveArtifact name) resolution ∧ resolution.contract = contract) h := by
  refine wp.bind (R := fun o t => ∀ resolution : ArtifactResolution E, o = .ok resolution →
    Answered (S := hostEffects E) t (.resolveArtifact name) resolution) ?_ ?_
    fun _ _ _ => error_returns
  · refine ⟨trivial, ?_⟩
    rintro r _ ⟨-, rfl⟩
    cases r with
    | error e => exact error_returns
    | ok resolution =>
      rintro _ ⟨⟩
      exact .head
  · intro resolution t hresolution
    have hresolution := hresolution resolution rfl
    cases resolution with
    | indeterminate contract => exact error_returns
    | unique contract =>
      rintro _ ⟨⟩
      exact ⟨_, hresolution, rfl⟩
    | ambiguous contract candidates =>
      dsimp only
      split
      · rintro _ ⟨⟩
        exact ⟨_, hresolution, rfl⟩
      · exact error_returns

theorem writeBackOf_ok {deployed : HostInstance} {writeBack : WriteBack}
    (h : writeBackOf deployed = .ok writeBack) :
    deployed = ⟨some writeBack.address, some writeBack.transactionHash⟩ := by
  unfold writeBackOf at h
  split at h <;> cases h
  rfl

theorem hostDeploy_rests (contract : ContractAbstraction E) (args : List Json)
    (h : HostHistory E) :
    wp .free (fun _ _ => True) (hostDeploy contract args)
      (fun o t => ∀ writeBack, o = .ok writeBack →
        Answered t (.hostNew contract args)
          ⟨some writeBack.address, some writeBack.transactionHash⟩) h := by
  unfold hostDeploy
  simp only [Script.bind_eq, Script.pure_eq]
  refine wp.ofExcept_bind (fun _ _ => ?_) fun _ _ => error_returns
  refine wp.ofExcept_bind (fun _ _ => ?_) fun _ _ => error_returns
  refine wp.ofExcept_bind (fun _ _ => ?_) fun _ _ => error_returns
  refine wp.askFree trivial (fun deployed => ?_) fun _ => error_returns
  refine wp.ofExcept_bind (fun writeBack hwriteBack => ?_) fun _ _ => error_returns
  refine wp.askFree trivial (fun _ => ?_) fun _ => error_returns
  refine wp.askFree trivial (fun _ => ?_) fun _ => error_returns
  obtain rfl := writeBackOf_ok hwriteBack
  rintro _ ⟨⟩
  exact (Answered.head.later (List.suffix_cons ..)).later (List.suffix_cons ..)

theorem confirmTransaction_rests (hash : String) (h : HostHistory E) :
    wp .free (fun _ _ => True) (confirmTransaction env hash)
      (fun o t => ∀ verdict, o = .ok verdict → ∀ confirmed, verdict = .confirmedSuccessful confirmed →
        ∃ info, Answered t (.waitForTransactionReceipt hash) info ∧
          classifyReceipt env.utf8OfHex hash info = .confirmedSuccessful confirmed) h := by
  unfold confirmTransaction
  simp only [Script.bind_eq, Script.pure_eq]
  refine wp.askAttempt trivial fun info _ => ?_
  cases info with
  | ok info =>
    rintro _ ⟨⟩ confirmed hconfirmed
    exact ⟨info, .head, hconfirmed⟩
  | error e => rintro _ ⟨⟩ _ ⟨⟩

theorem processProxyKind_rests (address : String) (validated : ValidatedImplementation E)
    (resolved : ResolvedForProxyOps E) (h : HostHistory E) :
    wp .free (fun _ _ => True) (processProxyKind address validated resolved)
      (fun o t => ∀ kind, o = .ok kind → Answered t (.processProxyKind address resolved.kind
        validated.validations validated.version) kind) h := by
  unfold processProxyKind
  simp only [Script.bind_eq, Script.pure_eq]
  refine wp.askFree trivial (fun kind => ?_) fun _ => error_returns
  refine wp.ofExcept_bind (fun _ _ => ?_) fun _ _ => error_returns
  rintro _ ⟨⟩
  exact .head

theorem hostCall_rests (op : HostOp E) (h : HostHistory E) :
    wp .free (fun _ _ => True) (hostCall op) (fun o t => ∀ a, o = .ok a → Answered t op a) h := by
  refine ⟨trivial, ?_⟩
  rintro r _ ⟨-, rfl⟩
  cases r with
  | error e => exact error_returns
  | ok a =>
    rintro _ ⟨⟩
    exact .head

-- ---------------------------------------------------------------------------
-- What a record write rests on
-- ---------------------------------------------------------------------------

/-- What the host, the node and the engine have answered that makes an address
a proxy of a kind. -/
inductive HostEvidence (codec : AddressCodec) (h : HostHistory E) (address : String) :
    ProxyKind → Prop
  | created {kind : ProxyKind} {resolution : ArtifactResolution E} {args : List Json}
      {created hash confirmed : String} {info : Json} {utf8OfHex : String → String}
      (artifact : Answered h (.resolveArtifact (proxyArtifactOf kind)) resolution)
      (deployed : Answered h (.hostNew resolution.contract args) ⟨some created, some hash⟩)
      (spelled : canonicalizeAddress codec created = .ok address)
      (receipt : Answered h (.waitForTransactionReceipt hash) info)
      (succeeded : classifyReceipt utf8OfHex hash info = .confirmedSuccessful confirmed) :
      HostEvidence codec h address kind
  | adopted {implementation : String} {admin : Option String}
      (slots : Answered h (.readProxySlots address) (.code (some implementation) admin none)) :
      HostEvidence codec h address (if admin.isNone then .uups else .transparent)
  | upgraded {kind : ProxyKind} {implementation : String} {admin : Option String}
      {option : Option ProxyKind} {validations : E.Validations} {version : E.Version}
      (slots : Answered h (.readProxySlots address) (.code (some implementation) admin none))
      (judged : Answered h (.processProxyKind address option validations version) kind)
      (held : kind = .transparent → admin.isSome = true) : HostEvidence codec h address kind

variable {codec : AddressCodec}

theorem HostEvidence.later {address : String} {kind : ProxyKind} {h h' : HostHistory E}
    (e : HostEvidence codec h address kind) (hh : ∀ event ∈ h, event ∈ h') :
    HostEvidence codec h' address kind := by
  cases e with
  | created artifact deployed spelled receipt succeeded =>
    exact .created (hh _ artifact) (hh _ deployed) spelled (hh _ receipt) succeeded
  | adopted slots => exact .adopted (hh _ slots)
  | upgraded slots judged held => exact .upgraded (hh _ slots) (hh _ judged) held

/-- Evidence in the run of the other toolkit is evidence in the run it is read off. -/
theorem Evidence.realised {address : String} {kind : ProxyKind} {h : HostHistory E}
    {fs : List (Fetching E)} {H : ToolkitHistory E} (e : Evidence codec H address kind)
    (hreal : Realises env fs h H) :
    HostEvidence codec h address kind := by
  cases e with
  | created artifact deployed spelled confirmed =>
    obtain ⟨h₁, hh₁, resolution, hresolution, rfl⟩ :=
      hreal.rests artifact rfl (requireProxyArtifact_rests _)
    obtain ⟨h₂, hh₂, hdeployed⟩ := hreal.rests deployed rfl (hostDeploy_rests _ _)
    obtain ⟨h₃, hh₃, hconfirmed⟩ := hreal.rests confirmed rfl (confirmTransaction_rests _)
    obtain ⟨info, hreceipt, hsucceeded⟩ := hconfirmed _ rfl
    exact .created (hresolution.later hh₁) (hdeployed.later hh₂) spelled (hreceipt.later hh₃)
      hsucceeded
  | adopted slots =>
    obtain ⟨h₁, hh₁, hslots⟩ := hreal.rests slots rfl (hostCall_rests _)
    exact .adopted (hslots.later hh₁)
  | upgraded slots judged held =>
    obtain ⟨h₁, hh₁, hslots⟩ := hreal.rests slots rfl (hostCall_rests _)
    obtain ⟨h₂, hh₂, hjudged⟩ := hreal.rests judged rfl (processProxyKind_rests _ _ _)
    exact .upgraded (hslots.later hh₁) (hjudged.later hh₂) held

/-- Every write to the record's file rests on what the run was answered. -/
def hostEvidenced (codec : AddressCodec) (h : HostHistory E) (op : HostOp E) : Prop :=
  ∀ key kind, op = .addProxyRecord key kind →
    ∃ address, canonicalizeAddress codec address = .ok key ∧ HostEvidence codec h address kind

theorem Operation.produced_evidenced (op : Operation E) :
    wp .free (hostEvidenced env.codec) (op.produced env) (fun _ _ => True) [] := by
  have tracked : Tracks (asProduced env) (op.produced env) (op.onAny env) :=
    operations_track productionToolkit_alike op
  refine wp_guard_mono ?_ (tracked.transfer .start op.run_evidenced)
  rintro h fine hguard key kind rfl
  obtain ⟨⟨⟩⟩ | ⟨coarse, H, hduring, hevidenced⟩ := hguard
  obtain ⟨address, rfl, hkey⟩ := during_partOf hduring rfl
  obtain ⟨-, fs, h₁, _, hreal, hr⟩ := hduring
  exact ⟨address, hkey, ((hevidenced address kind rfl).realised hreal).later hr.suffix.subset⟩

/-- A migration on the production toolkit. -/
def Migration.produced (env : Environment) (migration : Migration E α) : HostTask E α :=
  migration.implemented (Operation.produced env)

theorem Migration.produced_evidenced (migration : Migration E α) :
    wp .free (hostEvidenced env.codec) (migration.produced env) (fun _ _ => True) [] := by
  refine wp.implemented (fun op h => ?_) migration []
  refine wp.onward (h := []) op.produced_evidenced fun h₁ fine hfine key kind hrecords => ?_
  obtain ⟨address, hkey, hevidence⟩ := hfine key kind hrecords
  exact ⟨address, hkey, hevidence.later fun _ => List.mem_append_left h⟩

-- ---------------------------------------------------------------------------
-- Migrations on one chain and one file
-- ---------------------------------------------------------------------------

/-- An answer of the host's, the node's or the engine's that is the case. -/
def Ledger.HostHolds (artifacts : String → ContractAbstraction E → Prop) (s : Ledger E) :
    Event (hostEffects E) Failure → Prop
  | ⟨.resolveArtifact name, .ok resolution⟩ => artifacts name resolution.contract
  | ⟨.hostNew contract _, .ok ⟨some address, some hash⟩⟩ => (contract, ⟨address, hash⟩) ∈ s.created
  | ⟨.waitForTransactionReceipt hash, .ok info⟩ => ∀ utf8OfHex confirmed,
    classifyReceipt utf8OfHex hash info = .confirmedSuccessful confirmed → hash ∈ s.confirmed
  | ⟨.readProxySlots address, .ok slots⟩ => (address, slots) ∈ s.shown
  | ⟨.processProxyKind address _ _ _, .ok kind⟩ => (address, kind) ∈ s.judged
  | _ => True

/-- Any one of the host's operations: the record's proxies are written by
`addProxyRecord` alone. -/
structure HostLedgerStep (artifacts : String → ContractAbstraction E → Prop) (s : Ledger E)
    (op : HostOp E) (r : Except Failure op.Reply) (t : Ledger E) : Prop where
  created : s.created ⊆ t.created
  confirmed : s.confirmed ⊆ t.confirmed
  shown : s.shown ⊆ t.shown
  judged : s.judged ⊆ t.judged
  holds : t.HostHolds artifacts ⟨op, r⟩
  record : ∀ key kind, (key, kind) ∈ t.record → (key, kind) ∈ s.record ∨ op = .addProxyRecord key kind

def hostLedgerWorld (artifacts : String → ContractAbstraction E → Prop) :
    World (hostEffects E) Failure (Ledger E) where
  step := HostLedgerStep artifacts

/-- A key of the record's file is the identity of an address the chain backs. -/
def Ledger.KeyBacked (artifacts : String → ContractAbstraction E → Prop) (codec : AddressCodec)
    (s : Ledger E) (key : String) (kind : ProxyKind) : Prop :=
  ∃ address, canonicalizeAddress codec address = .ok key ∧ s.Backs artifacts codec address kind

variable {artifacts : String → ContractAbstraction E → Prop}

theorem Ledger.KeyBacked.later {s t : Ledger E} {op : HostOp E} {r : Except Failure op.Reply}
    {key : String} {kind : ProxyKind} (b : s.KeyBacked artifacts codec key kind)
    (step : HostLedgerStep artifacts s op r t) : t.KeyBacked artifacts codec key kind := by
  obtain ⟨address, hkey, ⟨contract, reply, hartifact, hcreated, hspelled, hconfirmed⟩ |
    ⟨implementation, admin, hshown, hkind⟩⟩ := b
  · exact ⟨address, hkey, .inl ⟨contract, reply, hartifact, step.created hcreated, hspelled,
      step.confirmed hconfirmed⟩⟩
  · exact ⟨address, hkey, .inr ⟨implementation, admin, step.shown hshown,
      hkind.imp_right (And.imp_left fun hjudged => step.judged hjudged)⟩⟩

theorem HostEvidence.backs {s : Ledger E} {h : HostHistory E} {address : String} {kind : ProxyKind}
    (e : HostEvidence codec h address kind) (hso : ∀ event ∈ h, s.HostHolds artifacts event) :
    s.Backs artifacts codec address kind := by
  cases e with
  | created artifact deployed spelled receipt succeeded =>
    exact .inl ⟨_, _, hso _ artifact, hso _ deployed, spelled, hso _ receipt _ _ succeeded⟩
  | adopted slots => exact .inr ⟨_, _, hso _ slots, .inl rfl⟩
  | upgraded slots judged held => exact .inr ⟨_, _, hso _ slots, .inr ⟨hso _ judged, held⟩⟩

theorem hostLedger_attests {ι : Type} :
    Attests (fun _ : ι => hostLedgerWorld artifacts) (Ledger.HostHolds (E := E) artifacts) where
  answered _ _ _ _ _ hs := hs.holds
  stays i s op r t event hs hso := by
    unfold Ledger.HostHolds at hso ⊢
    split at hso
    · exact hso
    · exact hs.created hso
    · exact fun utf8OfHex confirmed hc => hs.confirmed (hso utf8OfHex confirmed hc)
    · exact hs.shown hso
    · exact hs.judged hso
    · trivial

end

/-- However the single requests of migrations on the wired toolkit interleave
on one chain and one record's file, every recorded proxy is one the chain backs. -/
theorem produced_backed {E : Engine} {ι : Type} [DecidableEq ι]
    (artifacts : String → ContractAbstraction E → Prop) (codec : AddressCodec)
    (envs : ι → Environment) (migrations : ι → Migration E α) (start s : Ledger E)
    (xs : ι → HostTask E α) (spelling : ∀ i, (envs i).codec = codec)
    (backed : ∀ key kind, (key, kind) ∈ start.record → start.KeyBacked artifacts codec key kind)
    (run : Pool.Reaches (fun _ => hostLedgerWorld artifacts)
      (fun i => (migrations i).produced (envs i), start) (xs, s)) :
    ∀ key kind, (key, kind) ∈ s.record → s.KeyBacked artifacts codec key kind := by
  refine Pool.attested (J := fun s : Ledger E => ∀ key kind, (key, kind) ∈ s.record →
    s.KeyBacked artifacts codec key kind) hostLedger_attests (G := hostEvidenced codec) ?_ backed
    (fun i => spelling i ▸ (migrations i).produced_evidenced) run
  intro i s op r t h hJ hso hguard hs key kind hrecord
  obtain hbefore | rfl := hs.record key kind hrecord
  · exact (hJ key kind hbefore).later hs
  · obtain ⟨address, hkey, hevidence⟩ := hguard key kind rfl
    exact Ledger.KeyBacked.later ⟨address, hkey, hevidence.backs hso⟩ hs

-- The same two processes as before, at the host's own grain.

def hostLedgerReply : (op : HostOp sampleEngine) → Except Failure op.Reply
  | .readProxySlots _ => .ok sampleSlots
  | .deriveValidationInput _ => .ok (.ok true)
  | .resolveArtifact _ => .ok (.unique sampleContract)
  | .artifactRecord _ => .ok (.complete "0x6001")
  | .getCode _ => .ok "0x6002"
  | .proxyRecord _ => .ok none
  | .engineStart _ _ => .ok (some sampleBeacon)
  | .readBeaconImplementation _ => .ok (.implementation sampleBeacon)
  | .queueTurn | .addProxyRecord _ _ => .ok ()
  | .entry (.setAddress _) _ | .entry (.setTransactionHash _) _ => .ok ()
  | .hostNew _ _ => .ok ⟨some behindBeacon.address, some behindBeacon.transactionHash⟩
  | .waitForTransactionReceipt _ => .ok (.obj [("receipt", .obj [("result", .str "SUCCESS")])])
  | .attach _ address => .ok ⟨address, [], true⟩
  | _ => .error (.error "not asked for")

def hostLedgerAfter (s : Ledger sampleEngine) : HostOp sampleEngine → Ledger sampleEngine
  | .readProxySlots address => { s with shown := insert (address, sampleSlots) s.shown }
  | .hostNew contract _ => { s with created := insert (contract, behindBeacon) s.created }
  | .waitForTransactionReceipt hash => { s with confirmed := insert hash s.confirmed }
  | .addProxyRecord key kind => { s with record := insert (key, kind) s.record }
  | _ => s

theorem hostLedgerAnswers_allowed : (hostLedgerWorld sampleArtifacts).Allows
    fun s op => (hostLedgerReply op, hostLedgerAfter s op) := by
  intro s op
  have same : ∀ {op : HostOp sampleEngine} {r}, s.HostHolds sampleArtifacts ⟨op, r⟩ →
      HostLedgerStep sampleArtifacts s op r s := fun holds =>
    ⟨subset_rfl, subset_rfl, subset_rfl, subset_rfl, holds, fun _ _ h => .inl h⟩
  cases op with
  | readProxySlots address =>
    exact ⟨subset_rfl, subset_rfl, Set.subset_insert .., subset_rfl, .inl rfl, fun _ _ h => .inl h⟩
  | hostNew contract args =>
    exact ⟨Set.subset_insert .., subset_rfl, subset_rfl, subset_rfl, .inl rfl, fun _ _ h => .inl h⟩
  | waitForTransactionReceipt hash =>
    exact ⟨subset_rfl, Set.subset_insert .., subset_rfl, subset_rfl, fun _ _ _ => .inl rfl,
      fun _ _ h => .inl h⟩
  | addProxyRecord key kind =>
    refine ⟨subset_rfl, subset_rfl, subset_rfl, subset_rfl, trivial, ?_⟩
    rintro _ _ (⟨⟨⟩⟩ | h)
    · exact .inr rfl
    · exact .inl h
  | resolveArtifact name => exact same rfl
  | _ => exact same trivial

def sampleWiring : Environment := { sampleEnvironment with codec := base58CheckCodec zeroChecksum }

def sampleHostLedgers : (Bool → HostTask sampleEngine Unit) × Ledger sampleEngine :=
  Pool.schedule (fun _ s op => (hostLedgerReply op, hostLedgerAfter s op))
    [(false, 6), (true, 30), (false, 30)]
    (fun i => (sideBySide i).produced sampleWiring, emptyLedger)

theorem produced_backed_beside :
    sampleHostLedgers.2.KeyBacked sampleArtifacts (base58CheckCodec zeroChecksum) adoptedAddress
        .uups ∧
      sampleHostLedgers.2.KeyBacked sampleArtifacts (base58CheckCodec zeroChecksum)
        behindBeacon.address .beacon := by
  have hbacked := produced_backed sampleArtifacts (base58CheckCodec zeroChecksum)
    (fun _ => sampleWiring) sideBySide emptyLedger sampleHostLedgers.2 sampleHostLedgers.1
    (fun _ => rfl) (fun _ _ h => absurd h (Set.notMem_empty _))
    (Pool.reaches_schedule (fun _ => hostLedgerAnswers_allowed) _ _)
  exact ⟨hbacked _ _ (.inl rfl), hbacked _ _ (.inr (.inl rfl))⟩

end TronUpgrades.Tronbox
