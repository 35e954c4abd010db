import TronUpgrades.Adoption.Confirmed

/-!
# What a reused implementation is reported with

`deployImplementation` and `prepareUpgrade` over the record and over what each
contract's entry names. Both are shared with every other operation on the
network; a `Session` is any history of those.
-/

namespace TronUpgrades.Adoption

open Effects Tronbox Record Address
open Hardhat (Manifest)

section
variable {E : Engine}

-- ---------------------------------------------------------------------------
-- The network between two operations
-- ---------------------------------------------------------------------------

/-- What operations leave to one another: the record, and the transaction that
the entry of each contract names. -/
structure NetworkState (E : Engine) where
  record : Manifest E
  held : Nat → Option String

/-- What is made of the entry's getter: no hash, an empty one and a throw are
alike. -/
def heldHash : Except Failure (Option String) → Option String
  | .ok hash => hash.filter (· ≠ "")
  | .error _ => none

def NetworkState.names (s : NetworkState E) (contract : ContractAbstraction E) : Option String :=
  heldHash (.ok (s.held contract.id))

def heldAfter (held : Nat → Option String) : Event (hostEffects E) Failure → Nat → Option String
  | ⟨.entry (.setTransactionHash hash) contract, .ok _⟩ =>
    Function.update held contract.id (some hash)
  | ⟨.entry .deleteTransactionHash contract, .ok _⟩ => Function.update held contract.id none
  | _ => held

/-- The engine answers at once only with the address on record. -/
def NetworkState.Answers (s : NetworkState E) : Event (hostEffects E) Failure → Prop
  | ⟨.entry .transactionHash contract, r⟩ => heldHash r = s.names contract
  | ⟨.engineStart version _, .ok (some address)⟩ =>
    ∃ entry, s.record.impl? (E.linkedWithoutMetadata version) = some entry ∧
      entry.address = address
  | _ => True

structure NetworkStep (s : NetworkState E) (op : HostOp E) (r : Except Failure op.Reply)
    (s' : NetworkState E) : Prop where
  record : RecordStep s.record op r s'.record
  held : s'.held = heldAfter s.held ⟨op, r⟩
  answers : s.Answers ⟨op, r⟩

abbrev networkWorld (E : Engine) :
    World (hostEffects E) Failure (Tracked (NetworkState E) (hostEffects E) Failure) :=
  .tracking NetworkStep fun _ => True

abbrev Networked (E : Engine) := Tracked (NetworkState E) (hostEffects E) Failure

-- ---------------------------------------------------------------------------
-- The two operations
-- ---------------------------------------------------------------------------

inductive ReportingCall (E : Engine)
  | deployImplementation (contract : ContractAbstraction E)
  | prepareUpgrade (proxy : String) (contract : ContractAbstraction E)

def ReportingCall.contract : ReportingCall E → ContractAbstraction E
  | .deployImplementation contract | .prepareUpgrade _ contract => contract

def ReportingCall.run (env : Environment) (resolved : ResolvedForProxyOps E) :
    ReportingCall E → HostTask E ImplementationDeployment
  | .deployImplementation contract => runDeployImplementation ⟨productionToolkit env, resolved⟩ contract
  | .prepareUpgrade proxy contract =>
    runPrepareUpgrade ⟨productionToolkit env, resolved⟩ proxy contract

/-- Something was deployed. -/
def Created (h : HostHistory E) : Prop :=
  ∃ contract args deployed, Answered h (.hostNew contract args) deployed

/-- The engine had an address for the version. -/
def Resolved (h : HostHistory E) (version : E.Version) (address : String) : Prop :=
  ∃ redeploy, Answered h (.engineStart version redeploy) (some address)

theorem Created.later {h h' : HostHistory E} (hc : Created h) (hh : h <:+ h') : Created h' := by
  obtain ⟨contract, args, deployed, hd⟩ := hc
  exact ⟨contract, args, deployed, hd.later hh⟩

-- ---------------------------------------------------------------------------
-- What neither deploys nor has the engine look
-- ---------------------------------------------------------------------------

def quiet : HostOp E → Bool
  | .entry (.setTransactionHash _) _ | .entry .deleteTransactionHash _ | .hostNew _ _
  | .engineStart _ _ | .engineSettle _ _ _ | .addProxyRecord _ _ => false
  | _ => true

/-- The same state, and nothing more resolved. -/
structure Calm (c c' : Networked E) : Prop extends c.Still c' where
  resolved : ∀ version address, Resolved c'.history version address →
    Resolved c.history version address

variable {c c' c'' : Networked E} {α β : Type}

theorem Calm.refl (c : Networked E) : Calm c c := ⟨.refl c, fun _ _ h => h⟩

theorem Calm.trans (h : Calm c c') (h' : Calm c' c'') : Calm c c'' :=
  ⟨h.toStill.trans h'.toStill, fun version address hr =>
    h.resolved version address (h'.resolved version address hr)⟩

theorem resolved_cons {h : HostHistory E} {op : HostOp E} {r : Except Failure op.Reply}
    {version : E.Version} {address : String} (hr : Resolved (⟨op, r⟩ :: h) version address) :
    Resolved h version address ∨
      ∃ redeploy, (⟨op, r⟩ : Event (hostEffects E) Failure) =
        ⟨.engineStart version redeploy, .ok (some address)⟩ := by
  obtain ⟨redeploy, hr⟩ := hr
  rcases List.mem_cons.mp hr with heq | hr
  · exact .inr ⟨redeploy, heq.symm⟩
  · exact .inl ⟨redeploy, hr⟩

theorem Calm.cons {op : HostOp E} {r : Except Failure op.Reply} {s' : NetworkState E}
    (hs : s' = c.state) (hop : ∀ version redeploy, op ≠ .engineStart version redeploy) :
    Calm c ⟨s', ⟨op, r⟩ :: c.history⟩ := by
  refine ⟨⟨hs, List.suffix_cons ..⟩, fun version address hr => ?_⟩
  rcases resolved_cons hr with hr | ⟨redeploy, heq⟩
  · exact hr
  · cases heq
    exact absurd rfl (hop version redeploy)

theorem NetworkStep.quiet {s s' : NetworkState E} {op : HostOp E} {r : Except Failure op.Reply}
    (h : NetworkStep s op r s') (hop : quiet op = true) : s' = s := by
  have hrecord : s'.record = s.record := by
    refine h.record.idle ?_
    cases op <;> first | rfl | cases hop
  have hheld : s'.held = s.held := by
    rw [h.held]
    cases op with
    | entry access contract => cases access <;> first | rfl | cases hop
    | _ => rfl
  cases s
  cases s'
  exact congrArg₂ NetworkState.mk hrecord hheld

theorem calm_moves : Moves (networkWorld E) (fun _ _ => True) (fun op => quiet op = true) Calm where
  refl := Calm.refl
  trans _ _ _ := Calm.trans
  guard _ _ _ := trivial
  step := by
    rintro c op r ⟨s', _⟩ hop ⟨hstep, -, rfl⟩
    refine .cons (hstep.quiet hop) ?_
    rintro version redeploy rfl
    cases hop

abbrev Quiet (x : HostTask E α) : Prop := x.Asks fun op => quiet op = true

theorem hostCall_quiet {op : HostOp E} (hop : quiet op = true) : Quiet (hostCall op) :=
  Script.Asks.perform hop

theorem wp.calm {x : HostTask E α} {f : α → HostTask E β} {Q : Except Failure β → Networked E → Prop}
    (hx : Quiet x) (ok : ∀ a c', Calm c c' → wp (networkWorld E) (fun _ _ => True) (f a) Q c')
    (error : ∀ e c', Calm c c' → Q (.error e) c') :
    wp (networkWorld E) (fun _ _ => True) (x.bind f) Q c :=
  wp.bind (calm_moves.along hx c) ok error

-- ---------------------------------------------------------------------------
-- One fetch
-- ---------------------------------------------------------------------------

/-- Once something is deployed, nothing more is to be said. -/
theorem wp.created {x : HostTask E α} {Q : Except Failure α → Networked E → Prop}
    (hc : Created c.history) (hQ : ∀ o c', Created c'.history → Q o c') :
    wp (networkWorld E) (fun _ _ => True) x Q c :=
  wp_mono (fun o c' later => hQ o c' (hc.later later)) (wp.grows x c)

/-- A deployment that does not come about leaves everything as it is. -/
theorem hostDeploy_created {contract : ContractAbstraction E} {args : List Json} :
    wp (networkWorld E) (fun _ _ => True) (hostDeploy contract args)
      (fun o c' => Created c'.history ∨ (∃ e, o = .error e) ∧ Calm c c') c := by
  unfold hostDeploy
  simp only [Script.bind_eq, Script.pure_eq]
  refine wp.ofExcept_bind (fun _ _ => ?_) fun e _ => .inr ⟨⟨e, rfl⟩, .refl c⟩
  refine wp.ofExcept_bind (fun _ _ => ?_) fun e _ => .inr ⟨⟨e, rfl⟩, .refl c⟩
  refine wp.ofExcept_bind (fun _ _ => ?_) fun e _ => .inr ⟨⟨e, rfl⟩, .refl c⟩
  refine wp.track trivial (fun deployed s' hstep _ => ?_) fun e s' hstep => ?_
  · exact wp.created ⟨contract, args, deployed, .head⟩ fun _ _ => .inl
  · refine .inr ⟨⟨e, rfl⟩, .cons ?_ (by rintro _ _ ⟨⟩)⟩
    have hrecord : s'.record = c.state.record := hstep.record.idle rfl
    have hheld : s'.held = c.state.held := hstep.held
    obtain ⟨⟨record, held⟩, h⟩ := c
    obtain ⟨record', held'⟩ := s'
    exact congrArg₂ NetworkState.mk hrecord hheld

/-- The entry of the version, by its address. -/
def NetworkState.Vouches (s : NetworkState E) (version : E.Version) (address : String) : Prop :=
  ∃ entry, s.record.impl? (E.linkedWithoutMetadata version) = some entry ∧ entry.address = address

/-- Without a deployment the record may have lost the version's entry, and what
was resolved is the entry's address, with which the call ends. -/
structure Looked (version : E.Version) (c : Networked E) (r : Except Failure String)
    (c' : Networked E) : Prop where
  held : c'.state.held = c.state.held
  vouched : ∀ address, c'.state.Vouches version address → c.state.Vouches version address
  resolved : ∀ version' address, Resolved c'.history version' address →
    Resolved c.history version' address ∨
      version' = version ∧ r = .ok address ∧ c.state.Vouches version address

section
variable {validated : ValidatedImplementation E} {resolved : ResolvedForProxyOps E}
  {contract : ContractAbstraction E} {args : List Json}

/-- An engine that rejects has removed the entry, or changed nothing. -/
theorem Looked.rejected {op : HostOp E} {e : Failure} {s' : NetworkState E}
    {version : E.Version} (hcalm : Calm c c') (hversion : engineVersion? op = some version)
    (hstored : ∀ version layout deployment, op ≠ .engineSettle version layout (.ok deployment))
    (hstep : NetworkStep c'.state op (.error e) s') :
    Looked version c (.error e) ⟨s', ⟨op, .error e⟩ :: c'.history⟩ := by
  have hstate := hcalm.state
  refine ⟨?_, ?_, ?_⟩
  · rw [← hstate]
    refine hstep.held.trans ?_
    cases op with
    | engineStart | engineSettle => rfl
    | _ => cases hversion
  · rintro address ⟨entry, hentry, haddress⟩
    refine ⟨entry, ?_, haddress⟩
    rw [← hstate]
    have hrecord := hstep.record
    generalize c'.state.record = m, s'.record = m' at hrecord hentry
    cases hrecord with
    | addProxyRecord => cases hversion
    | stored => exact absurd rfl (hstored _ _ _)
    | removed => exact Hardhat.impl?_removed hentry
    | rejected => exact hentry
  · intro version' address hr
    rcases resolved_cons hr with hr | ⟨redeploy, heq⟩
    · exact .inl (hcalm.resolved _ _ hr)
    · cases heq

theorem NetworkStep.started {s s' : NetworkState E} {version : E.Version} {redeploy : Bool}
    {address : Option String} (h : NetworkStep s (.engineStart version redeploy) (.ok address) s') :
    s' = s := by
  obtain ⟨record, held⟩ := s
  obtain ⟨record', held'⟩ := s'
  have hheld : held' = held := h.held
  cases h.record with
  | started => exact congrArg _ hheld
  | elsewhere hop => cases hop

/-- A settlement without a deployment is a failure. -/
theorem engineSettle_rejects {s s' : NetworkState E} {version : E.Version} {layout : E.Layout}
    {e : Failure} {r : Except Failure String}
    (h : NetworkStep s (.engineSettle version layout (.error e)) r s') : ∃ e', r = .error e' := by
  have hrecord := h.record
  generalize s.record = m, s'.record = m' at hrecord
  cases hrecord with
  | removed => exact ⟨_, rfl⟩
  | rejected => exact ⟨_, rfl⟩
  | elsewhere hop => cases hop

/-- One call of the engine's. -/
theorem engineCall_looks :
    wp (networkWorld E) (fun _ _ => True)
      (engineCall validated resolved WriteBack.deployment (hostDeploy contract args))
      (fun o c' => Created c'.history ∨
        ∃ r, o = .ok (r, none) ∧ Looked validated.version c r c') c := by
  unfold engineCall
  simp only [Script.bind_eq, Script.pure_eq]
  refine wp.trackAttempt trivial fun started s' hstep _ => ?_
  rcases started with e | _ | address
  · exact .inr ⟨_, rfl, .rejected (.refl c) rfl nofun hstep⟩
  · have called : Calm c ⟨s', ⟨.engineStart validated.version
        (resolved.redeployImplementation = .always), .ok none⟩ :: c.history⟩ := by
      refine ⟨⟨hstep.started, List.suffix_cons ..⟩, fun version address hr => ?_⟩
      rcases resolved_cons hr with hr | ⟨redeploy, heq⟩
      · exact hr
      · cases heq
    refine wp.bind (R := fun o c' => Created c'.history ∨
      (∃ e, o = .ok (.error e)) ∧ Calm c c') (wp_attempt.mpr ?_) ?_ ?_
    · split
      · exact .inr ⟨⟨_, rfl⟩, called⟩
      · refine wp_mono ?_ hostDeploy_created
        rintro o c' (hc | ⟨⟨e, rfl⟩, hcalm⟩)
        · exact .inl hc
        · exact .inr ⟨⟨e, rfl⟩, called.trans hcalm⟩
    · rintro callback c' (hc | ⟨⟨e, heq⟩, hcalm⟩)
      · exact wp.created hc fun _ _ => .inl
      · cases heq
        refine wp.trackAttempt trivial fun settled s'' hstep _ => ?_
        obtain ⟨e', rfl⟩ := engineSettle_rejects hstep
        exact .inr ⟨_, rfl, .rejected hcalm rfl nofun hstep⟩
    · rintro e c' (hc | ⟨⟨_, ⟨⟩⟩, -⟩)
      exact .inl hc
  · refine .inr ⟨_, rfl, congrArg _ hstep.started, ?_, fun version' address' hr => ?_⟩
    · rw [hstep.started]
      exact fun _ h => h
    · rcases resolved_cons hr with hr | ⟨redeploy, heq⟩
      · exact .inl hr
      · cases heq
        exact .inr ⟨rfl, rfl, hstep.answers⟩

/-- Without a deployment: what was resolved is what the fetch ends with. -/
structure Fetches (c : Networked E) (o : Except Failure (Fetched WriteBack)) (c' : Networked E) :
    Prop where
  held : c'.state.held = c.state.held
  reused : ∀ fetched, o = .ok fetched → fetched.deployed = none
  resolved : ∀ version address, Resolved c'.history version address →
    o = .ok ⟨address, none⟩ ∧ c.state.Vouches version address

theorem Fetches.failed {e e' : Failure} (h : Fetches c (.error e) c') :
    Fetches c (.error e') c' :=
  ⟨h.held, nofun, fun version address hr => by cases (h.resolved version address hr).1⟩

/-- One call, or two where the engine has removed an entry. -/
theorem fetch_looks {env : Environment}
    (unresolved : ∀ version address, ¬ Resolved c.history version address) :
    wp (networkWorld E) (fun _ _ => True)
      (fetchOrDeployImplementation env validated resolved WriteBack.deployment
        (hostDeploy contract args))
      (fun o c' => Created c'.history ∨ Fetches c o c') c := by
  unfold fetchOrDeployImplementation throughRecordLock
  simp only [Script.bind_eq, Script.pure_eq]
  refine wp.catching (R := fun o c' => Created c'.history ∨ Fetches c o c') ?_ (fun _ _ h => h) ?_
  · refine wp.bind engineCall_looks ?_ ?_
    · rintro _ c' (hc | ⟨first, heq, hfirst⟩)
      · exact wp.created hc fun _ _ => .inl
      · cases heq
        cases first with
        | ok address =>
          refine .inr ⟨hfirst.held, fun _ h => by cases h; rfl, fun version address' hr => ?_⟩
          rcases hfirst.resolved version address' hr with hr | ⟨rfl, heq, hvouched⟩
          · exact absurd hr (unresolved version address')
          · cases heq
            exact ⟨rfl, hvouched⟩
        | error e =>
          have still : ∀ version address, ¬ Resolved c'.history version address := by
            intro version address hr
            rcases hfirst.resolved version address hr with hr | ⟨-, heq, -⟩
            · exact unresolved version address hr
            · cases heq
          dsimp only
          split
          · exact .inr ⟨hfirst.held, nofun,
              fun version address hr => absurd hr (still version address)⟩
          · refine wp.bind engineCall_looks ?_ ?_
            · rintro _ c'' (hc | ⟨second, heq, hsecond⟩)
              · exact wp.created hc fun _ _ => .inl
              · cases heq
                refine wp.ofExcept_bind (fun address hsecond' => ?_) fun e' hsecond' => ?_
                · refine .inr ⟨hsecond.held.trans hfirst.held, fun _ h => by cases h; rfl,
                    fun version address' hr => ?_⟩
                  rcases hsecond.resolved version address' hr with hr | ⟨rfl, heq, hvouched⟩
                  · exact absurd hr (still version address')
                  · cases hsecond'.symm.trans heq
                    exact ⟨rfl, hfirst.vouched address hvouched⟩
                · refine .inr ⟨hsecond.held.trans hfirst.held, nofun, fun version address' hr => ?_⟩
                  rcases hsecond.resolved version address' hr with hr | ⟨-, heq, -⟩
                  · exact absurd hr (still version address')
                  · cases hsecond'.symm.trans heq
            · rintro e' c'' (hc | ⟨_, ⟨⟩, -⟩)
              exact .inl hc
    · rintro e c' (hc | ⟨_, ⟨⟩, -⟩)
      exact .inl hc
  · rintro e c' (hc | hfetches)
    · exact wp.created hc fun _ _ => .inl
    · split <;> exact .inr hfetches.failed

end

-- ---------------------------------------------------------------------------
-- The operations
-- ---------------------------------------------------------------------------

/-- What a reuse ends with, by what the contract's entry names at its start. -/
structure Reports (contract : ContractAbstraction E) (operation : String) (c : Networked E)
    (o : Except Failure ImplementationDeployment) (version : E.Version) (address : String) :
    Prop where
  vouched : c.state.Vouches version address
  outcome : o = (transactionIdentity (c.state.names contract) operation).map (⟨address, ·⟩)

section
variable {env : Environment} {resolved : ResolvedForProxyOps E} {contract : ContractAbstraction E}

theorem readWriteBackHash_reads : wp (networkWorld E) (fun _ _ => True)
    (readWriteBackHash hostEntry contract)
    (fun o c' => Calm c c' ∧ o = .ok (c.state.names contract)) c := by
  unfold readWriteBackHash
  refine wp_catching.mpr ⟨trivial, ?_⟩
  rintro r ⟨s', _⟩ ⟨hstep, -, rfl⟩
  have hcalm : Calm c ⟨s', ⟨.entry .transactionHash contract, r⟩ :: c.history⟩ :=
    .cons (hstep.quiet rfl) nofun
  have hread : heldHash r = c.state.names contract := hstep.answers
  rw [← hread]
  cases r <;> exact ⟨hcalm, rfl⟩

theorem readWriteBack_quiet : Quiet (readWriteBack (hostEntry (E := E)) contract) := by
  refine Script.Asks.bind (Script.Asks.catching ?_ fun _ => trivial) fun _ => ?_
  · exact (hostCall_quiet rfl).bind fun _ => trivial
  · refine Script.Asks.bind (Script.Asks.catching ?_ fun _ => trivial) fun _ => trivial
    exact (hostCall_quiet rfl).bind fun _ => trivial

theorem deployImplementationStep_reports {validated : ValidatedImplementation E}
    (unresolved : ∀ version address, ¬ Resolved c.history version address) :
    wp (networkWorld E) (fun _ _ => True)
      (deployImplementationStep ⟨productionToolkit env, resolved⟩ contract validated)
      (fun o c' => Created c'.history ∨ ∀ version address, Resolved c'.history version address →
        c.state.Vouches version address ∧ o = .ok (address, c.state.names contract)) c := by
  unfold deployImplementationStep
  simp only [Script.bind_eq, Script.pure_eq]
  refine wp.calm readWriteBack_quiet (fun prior c₁ hcalm => ?_) fun e c₁ hcalm => ?_
  · have still : ∀ version address, ¬ Resolved c₁.history version address :=
      fun version address hr => unresolved version address (hcalm.resolved version address hr)
    refine wp.bind (fetch_looks still) ?_ ?_
    · rintro fetched c₂ (hc | hfetches)
      · exact wp.created hc fun _ _ => .inl
      · unfold settleImplementation
        rw [hfetches.reused fetched rfl]
        refine wp.bind readWriteBackHash_reads ?_ ?_
        · rintro hash c₃ ⟨hcalm', ⟨⟩⟩
          refine .inr fun version address hr => ?_
          have hheld : c₂.state.held = c.state.held := hfetches.held.trans (congrArg _ hcalm.state)
          have hnames : c₂.state.names contract = c.state.names contract := by
            simp only [NetworkState.names, hheld]
          obtain ⟨heq, hvouched⟩ := hfetches.resolved version address (hcalm'.resolved _ _ hr)
          cases heq
          rw [hcalm.state] at hvouched
          rw [hnames]
          exact ⟨hvouched, rfl⟩
        · rintro e c₃ ⟨-, ⟨⟩⟩
    · rintro e c₂ (hc | hfetches)
      · exact .inl hc
      · refine .inr fun version address hr => ?_
        cases (hfetches.resolved version address hr).1
  · refine .inr fun version address hr => ?_
    exact absurd (hcalm.resolved version address hr) (unresolved version address)

theorem validateImplementation_quiet (name : String) (resolved : ResolvedForProxyOps E) :
    Quiet (validateImplementation name resolved) :=
  validateImplementation_asks (fun _ => rfl) (fun _ => rfl) (fun _ => rfl) fun _ => rfl

theorem deployImplementationThroughQueue_reports {operation : String}
    (unresolved : ∀ version address, ¬ Resolved c.history version address) :
    wp (networkWorld E) (fun _ _ => True)
      (deployImplementationThroughQueue ⟨productionToolkit env, resolved⟩ contract operation)
      (fun o c' => Created c'.history ∨ ∀ version address, Resolved c'.history version address →
        Reports contract operation c o version address) c := by
  have idle : ∀ {e : Failure} {c'}, Calm c c' → Created c'.history ∨ ∀ version address,
      Resolved c'.history version address →
        Reports contract operation c (.error e) version address :=
    fun hcalm => .inr fun version address hr =>
      absurd (hcalm.resolved version address hr) (unresolved version address)
  unfold deployImplementationThroughQueue
  simp only [Script.bind_eq, Script.pure_eq]
  refine wp.ofExcept_bind (fun name _ => ?_) fun e _ => idle (.refl c)
  refine wp.calm (validateImplementation_quiet name resolved) (fun validated c₁ hcalm => ?_)
    fun e _ => idle
  refine wp.ofExcept_bind (fun _ _ => ?_) fun e _ => idle hcalm
  refine wp.bind (R := fun o c' => Created c'.history ∨ ∀ version address,
    Resolved c'.history version address → c.state.Vouches version address ∧
      o = .ok (address, c.state.names contract)) ?_ ?_ ?_
  · refine wp.calm (hostCall_quiet rfl) (fun _ c₂ hcalm' => ?_) fun e c₂ hcalm' => ?_
    · have turned := hcalm.trans hcalm'
      rw [← turned.state]
      exact deployImplementationStep_reports fun version address hr =>
        unresolved version address (turned.resolved version address hr)
    · refine .inr fun version address hr => ?_
      exact absurd ((hcalm.trans hcalm').resolved version address hr) (unresolved version address)
  · rintro ⟨address, hash⟩ c' (hc | hstep)
    · exact wp.created hc fun _ _ => .inl
    · refine wp.ofExcept_bind (fun transaction ht => ?_) fun e ht => ?_
      all_goals
        refine .inr fun version address' hr => ?_
        obtain ⟨hvouched, heq⟩ := hstep version address' hr
        cases heq
        refine ⟨hvouched, ?_⟩
        rw [ht]
        rfl
  · rintro e c' (hc | hstep)
    · exact .inl hc
    · refine .inr fun version address hr => ?_
      cases (hstep version address hr).2

theorem sessionProxyRecord_quiet (address : String) :
    Quiet (sessionProxyRecord (E := E) env address) := by
  refine Script.Asks.ofExcept.bind fun _ => (hostCall_quiet rfl).catching fun _ => ?_
  split <;> trivial

theorem storedLayoutFor_quiet (address : String) :
    Quiet (storedLayoutFor (E := E) env address) := by
  refine Script.Asks.bind (Script.Asks.ofExcept.bind fun _ =>
    (hostCall_quiet rfl).catching fun _ => ?_) fun record => ?_
  · split <;> trivial
  · split <;> trivial

theorem runPrepareUpgrade_reports {proxy : String}
    (unresolved : ∀ version address, ¬ Resolved c.history version address) :
    wp (networkWorld E) (fun _ _ => True)
      (runPrepareUpgrade ⟨productionToolkit env, resolved⟩ proxy contract)
      (fun o c' => Created c'.history ∨ ∀ version address, Resolved c'.history version address →
        Reports contract "prepareUpgrade" c o version address) c := by
  have idle : ∀ {e : Failure} {c'}, Calm c c' → Created c'.history ∨ ∀ version address,
      Resolved c'.history version address →
        Reports contract "prepareUpgrade" c (.error e) version address :=
    fun hcalm => .inr fun version address hr =>
      absurd (hcalm.resolved version address hr) (unresolved version address)
  unfold runPrepareUpgrade
  simp only [Script.bind_eq]
  refine wp.ofExcept_bind (fun canonical _ => ?_) fun e _ => idle (.refl c)
  refine wp.ofExcept_bind (fun _ _ => ?_) fun e _ => idle (.refl c)
  refine wp.calm (hostCall_quiet rfl) (fun slots c₁ h₁ => ?_) fun e _ => idle
  refine wp.ofExcept_bind (fun found _ => ?_) fun e _ => idle h₁
  refine wp.calm (sessionProxyRecord_quiet canonical) (fun record c₂ h₂ => ?_)
    fun e _ h => idle (h₁.trans h)
  have h₂ := h₁.trans h₂
  refine wp.ofExcept_bind (fun kind _ => ?_) fun e _ => idle h₂
  refine wp.ofExcept_bind (fun name _ => ?_) fun e _ => idle h₂
  refine wp.calm (validateImplementation_quiet name _) (fun validated c₃ h₃ => ?_)
    fun e _ h => idle (h₂.trans h)
  have h₃ := h₂.trans h₃
  refine wp.ofExcept_bind (fun _ _ => ?_) fun e _ => idle h₃
  refine wp.calm (storedLayoutFor_quiet _) (fun layout c₄ h₄ => ?_)
    fun e _ h => idle (h₃.trans h)
  have h₄ := h₃.trans h₄
  refine wp.calm (Script.Asks.ofExcept.bind fun _ => Script.Asks.ofExcept) (fun _ c₅ h₅ => ?_)
    fun e _ h => idle (h₄.trans h)
  have h₅ := h₄.trans h₅
  refine wp_mono ?_ (deployImplementationThroughQueue_reports fun version address hr =>
    unresolved version address (h₅.resolved version address hr))
  rintro o c' (hc | hreports)
  · exact .inl hc
  · refine .inr fun version address hr => ?_
    obtain ⟨hvouched, houtcome⟩ := hreports version address hr
    rw [h₅.state] at hvouched houtcome
    exact ⟨hvouched, houtcome⟩

end

-- ---------------------------------------------------------------------------
-- Histories of operations
-- ---------------------------------------------------------------------------

/-- One of the two operations as it went. -/
structure Reported (E : Engine) where
  contract : ContractAbstraction E
  before : NetworkState E
  history : HostHistory E
  outcome : Except Failure ImplementationDeployment

/-- It found the implementation on record and deployed nothing. -/
def Reported.Reuses (p : Reported E) (version : E.Version) (address : String) : Prop :=
  Resolved p.history version address ∧ ¬ Created p.history

/-- Each reuse succeeds with the recorded address and its recorded transaction. -/
def Reported.Tells (p : Reported E) : Prop :=
  ∀ version address, p.Reuses version address → ∃ entry hash,
    p.before.record.impl? (E.linkedWithoutMetadata version) = some entry ∧
      entry.address = address ∧ entry.txHash = some hash ∧ p.outcome = .ok ⟨address, hash⟩

/-- At the start, the contract's entry names the transaction on record. -/
def Reported.Named (p : Reported E) : Prop :=
  ∀ version address, p.Reuses version address → ∃ entry hash,
    p.before.record.impl? (E.linkedWithoutMetadata version) = some entry ∧
      entry.txHash = some hash ∧ p.before.names p.contract = some hash

/-- Operations one after another, each to its end and from what the one before
it left; those that report an implementation are listed. -/
inductive Session : List (Reported E) → NetworkState E → Prop
  | start (s) : Session [] s
  | reporting {past s o c} (env : Environment) (resolved : ResolvedForProxyOps E)
      (call : ReportingCall E) : Session past s →
      Script.Reaches (networkWorld E) (call.run env resolved, ⟨s, []⟩) (.ofExcept o, c) →
      Session (⟨call.contract, s, c.history, o⟩ :: past) c.state
  | other {past s} {α : Type} {x : HostTask E α} {o c} : Session past s →
      Script.Reaches (networkWorld E) (x, ⟨s, []⟩) (.ofExcept o, c) → Session past c.state

theorem ReportingCall.reports (env : Environment) (resolved : ResolvedForProxyOps E)
    (call : ReportingCall E) (s : NetworkState E) : ∃ operation,
    wp (networkWorld E) (fun _ _ => True) (call.run env resolved)
      (fun o c' => Created c'.history ∨ ∀ version address, Resolved c'.history version address →
        Reports call.contract operation ⟨s, []⟩ o version address) ⟨s, []⟩ := by
  have unresolved : ∀ version address, ¬ Resolved (E := E) [] version address := by
    rintro version address ⟨_, h⟩
    cases h
  cases call with
  | deployImplementation contract =>
    exact ⟨_, deployImplementationThroughQueue_reports unresolved⟩
  | prepareUpgrade proxy contract => exact ⟨_, runPrepareUpgrade_reports unresolved⟩

theorem transactionIdentity_ok {hash : Option String} {operation transaction : String}
    (h : transactionIdentity hash operation = .ok transaction) : hash = some transaction := by
  unfold transactionIdentity at h
  split at h
  · split at h <;> cases h
    rfl
  · cases h

/-- A reuse tells the truth where the entry and the record name one
transaction. -/
theorem Reports.tells_iff {contract : ContractAbstraction E} {operation : String}
    {o : Except Failure ImplementationDeployment} {version : E.Version} {address : String}
    (h : Reports contract operation c o version address) :
    (∃ entry hash, c.state.record.impl? (E.linkedWithoutMetadata version) = some entry ∧
      entry.address = address ∧ entry.txHash = some hash ∧ o = .ok ⟨address, hash⟩) ↔
    ∃ entry hash, c.state.record.impl? (E.linkedWithoutMetadata version) = some entry ∧
      entry.txHash = some hash ∧ c.state.names contract = some hash := by
  obtain ⟨⟨own, hown, haddress⟩, rfl⟩ := h
  constructor
  · rintro ⟨entry, hash, hentry, -, hhash, houtcome⟩
    refine ⟨entry, hash, hentry, hhash, ?_⟩
    obtain ⟨transaction, hid, heq⟩ : ∃ transaction,
        transactionIdentity (c.state.names contract) operation = .ok transaction ∧
          transaction = hash := by
      cases hid : transactionIdentity (c.state.names contract) operation with
      | error e =>
        rw [hid] at houtcome
        cases houtcome
      | ok transaction =>
        rw [hid] at houtcome
        cases houtcome
        exact ⟨hash, rfl, rfl⟩
    rw [transactionIdentity_ok hid, heq]
  · rintro ⟨entry, hash, hentry, hhash, hnames⟩
    cases hown.symm.trans hentry
    refine ⟨own, hash, hown, haddress, hhash, ?_⟩
    have hne : hash ≠ "" := by simpa using (Option.filter_eq_some_iff.mp hnames).2
    simp [hnames, transactionIdentity, hne, Except.map]

/-- In every history, every reuse, and exactly those. -/
theorem reuse_told_iff {past : List (Reported E)} {s : NetworkState E} (h : Session past s) :
    ∀ p ∈ past, p.Tells ↔ p.Named := by
  induction h with
  | start => exact fun _ hp => absurd hp List.not_mem_nil
  | other _ _ ih => exact ih
  | @reporting past s o c env resolved call _ hr ih =>
    intro p hp
    rcases List.mem_cons.mp hp with rfl | hp
    · obtain ⟨operation, hcall⟩ := call.reports env resolved s
      have hend : Created c.history ∨ ∀ version address, Resolved c.history version address →
          Reports call.contract operation ⟨s, []⟩ o version address :=
        wp_ofExcept.mp (hcall.reaches hr)
      refine forall₂_congr fun version address => forall_congr' fun hreuses => ?_
      obtain ⟨hresolved, hcreated⟩ := hreuses
      exact ((hend.resolve_left hcreated) version address hresolved).tells_iff
    · exact ih p hp

end

-- ---------------------------------------------------------------------------
-- A proxy deployed before its implementation is asked for
-- ---------------------------------------------------------------------------

def proxyArtifact : ContractAbstraction sampleEngine :=
  { sampleContract with id := 1, contractName := some "TRC1967Proxy" }

/-- Every deployment goes through: `0xe1` creates the implementation, `0xd1` a
proxy. -/
def reuseReply (s : NetworkState sampleEngine) :
    (op : HostOp sampleEngine) → Except Failure op.Reply
  | .entry .transactionHash contract => .ok (s.held contract.id)
  | .entry (.setAddress _) _ | .entry (.setTransactionHash _) _ | .queueTurn | .say _
  | .addProxyRecord _ _ => .ok ()
  | .entry .isDeployed _ => .ok false
  | .deriveValidationInput _ => .ok (.ok true)
  | .resolveArtifact name => .ok (.unique (if name = "Box" then sampleContract else proxyArtifact))
  | .artifactRecord _ => .ok (.complete "0x6001")
  | .hostNew contract _ => .ok (if contract.id = 0
      then ⟨some "0x0000000000000000000000000000000000000011", some "0xe1"⟩
      else ⟨some "0x0000000000000000000000000000000000000022", some "0xd1"⟩)
  | .waitForTransactionReceipt _ => .ok (.obj [("receipt", .obj [("result", .str "SUCCESS")])])
  | .transactionSender _ => .ok none
  | .engineStart version redeploy => .ok (if redeploy then none else
      (s.record.impl? (sampleEngine.linkedWithoutMetadata version)).map (·.address))
  | .engineSettle _ _ callback => callback.map (·.address)
  | .attach _ address => .ok ⟨address, [], true⟩
  | _ => .error (.error "not asked for")

def reuseHost (c : Networked sampleEngine) (op : HostOp sampleEngine) :
    Except Failure op.Reply × Networked sampleEngine :=
  (reuseReply c.state op,
    ⟨⟨adoptionRecord c.state.record op, heldAfter c.state.held ⟨op, reuseReply c.state op⟩⟩,
      ⟨op, reuseReply c.state op⟩ :: c.history⟩)

def startState : NetworkState sampleEngine := ⟨emptyManifest, fun _ => none⟩

def deployedBox : Except Failure DeployedProxy × Networked sampleEngine :=
  (runDeployProxy ⟨productionToolkit sampleEnvironment, sampleOptions⟩ sampleContract []).run
    reuseHost ⟨startState, []⟩

def reusedBox : Except Failure ImplementationDeployment × Networked sampleEngine :=
  ((ReportingCall.deployImplementation sampleContract).run sampleEnvironment sampleOptions).run
    reuseHost ⟨deployedBox.2.state, []⟩

theorem reuseHost_allowed : (networkWorld sampleEngine).Allows reuseHost := by
  intro c op
  refine ⟨⟨?_, rfl, ?_⟩, trivial, rfl⟩
  · cases op with
    | engineSettle version layout callback =>
      cases callback with
      | ok deployment => exact .stored nofun
      | error e => exact .rejected
    | addProxyRecord => exact .addProxyRecord
    | engineStart version redeploy => exact .started fun h => if_pos h
    | entry access contract =>
      cases access with
      | address | resetAddress | deleteTransactionHash => exact .rejected
      | _ => exact .elsewhere rfl nofun
    | say | queueTurn | deriveValidationInput | resolveArtifact | artifactRecord | hostNew
    | waitForTransactionReceipt | transactionSender | attach => exact .elsewhere rfl nofun
    | _ => exact .rejected
  · cases op with
    | entry access contract => cases access <;> first | rfl | trivial
    | engineStart version redeploy =>
      cases redeploy with
      | true => trivial
      | false =>
        change c.state.Answers ⟨.engineStart version false, .ok ((c.state.record.impl?
          (sampleEngine.linkedWithoutMetadata version)).map (·.address))⟩
        cases hentry : c.state.record.impl? (sampleEngine.linkedWithoutMetadata version) with
        | none => trivial
        | some entry => exact ⟨entry, hentry, rfl⟩
    | _ => trivial

theorem deployedBox_session : Session [] deployedBox.2.state :=
  .other (.start startState) (reaches_run reuseHost_allowed _ _)

def reusedReport : Reported sampleEngine :=
  ⟨sampleContract, deployedBox.2.state, reusedBox.2.history, reusedBox.1⟩

theorem reusedBox_session : Session [reusedReport] reusedBox.2.state :=
  .reporting sampleEnvironment sampleOptions (.deployImplementation sampleContract)
    deployedBox_session (reaches_run reuseHost_allowed _ _)

/-- The implementation's own transaction is `0xe1`; the proxy's is reported. -/
theorem proxy_hash_reported : ∃ past s, Session (E := sampleEngine) past s ∧
    ¬ ∀ p ∈ past, p.Tells := by
  have hresolved : Resolved reusedBox.2.history "0x6001"
      "0x0000000000000000000000000000000000000011" :=
    ⟨false, List.mem_of_getElem? (i := 1) rfl⟩
  have hcreated : ¬ Created reusedBox.2.history := by
    rintro ⟨contract, args, deployed, h⟩
    have hall : reusedBox.2.history.all (fun event => !HostOp.spends event.op) = true := rfl
    cases List.all_eq_true.mp hall _ h
  have hreported : reusedReport.outcome =
      .ok ⟨"0x0000000000000000000000000000000000000011", "0xd1"⟩ := rfl
  refine ⟨_, _, reusedBox_session, fun hall => ?_⟩
  obtain ⟨entry, hash, hentry, -, hhash, houtcome⟩ :=
    hall _ List.mem_cons_self _ _ ⟨hresolved, hcreated⟩
  cases hentry
  cases hhash
  simp [hreported] at houtcome

theorem reusedBox_told_iff : reusedReport.Tells ↔ reusedReport.Named :=
  reuse_told_iff reusedBox_session reusedReport List.mem_cons_self

end TronUpgrades.Adoption
