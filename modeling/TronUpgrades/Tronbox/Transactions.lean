import TronUpgrades.Effects.Trace
import TronUpgrades.Tronbox.Ownership
import TronUpgrades.Tronbox.RecordBacked

/-!
# What a transaction replaces

Any number of migrations on one chain, where a transaction may land long after
it was sent and others send theirs too. A migration sends only to upgrade a
proxy or a beacon, or to move the ownership of an admin; and what it read and
compared before is what the chain shows where it sends, unless it was overtaken
by what it does not control.
-/

namespace TronUpgrades.Tronbox

open Effects Address

section
variable {E : Engine}

-- ---------------------------------------------------------------------------
-- What a run knows where it sends
-- ---------------------------------------------------------------------------

/-- What a run has been answered that a transaction of its own rests on. -/
inductive Grounds (codec : AddressCodec) (run : ToolkitHistory E) : FacadeRequest → Prop
  | proxy {resolved : ResolvedForProxyOps E} {proxy : String} {contract : ContractAbstraction E}
      {plan : ProxyUpgradePlan E} {replacement : String}
      (cleared : ProxyUpgradeCleared codec resolved proxy contract plan run)
      (settled : Answered run (.fetchSettles plan.validated resolved) replacement) :
      Grounds codec run (plan.request replacement).toFacade
  | beacon {resolved : ResolvedForProxyOps E} {beaconAddress beacon : String}
      {contract : ContractAbstraction E} {validated : ValidatedImplementation E}
      {replacement : String}
      (cleared : BeaconUpgradeCleared codec resolved beaconAddress contract beacon validated run)
      (settled : Answered run (.fetchSettles validated resolved) replacement) :
      Grounds codec run (upgradeBeaconRequest beacon replacement)
  | ownership {proxy slot admin target : String} {implementation beacon owner : Option String}
      (slots : Answered run (.proxySlots proxy) (.code implementation (some slot) beacon))
      (spelled : canonicalizeAddress codec slot = .ok admin)
      (held : Answered run (.ownerOf admin) owner) (moves : owner ≠ some target) :
      Grounds codec run (transferRequest admin target)

/-- A run's first transaction, on its own grounds. -/
def OwnGrounds (codec : AddressCodec) (h : ToolkitHistory E) (op : ToolkitOp E) : Prop :=
  ∀ request, op = .send request → sendCount h = 0 ∧ Grounds codec h request

/-- What a process has heard since its operation under way began. It is that
operation's run, which asks for a transaction here, its first. -/
structure OwnRun (codec : AddressCodec) (wildcard : Bool) (request : FacadeRequest)
    (run heard : ToolkitHistory E) : Prop where
  latest : run <+: heard
  operation : ∃ (op : Operation E) (next : _),
    Script.Reaches .free (op.run codec wildcard, []) (.call (.send request) next, run)
  first : sendCount run = 0

/-- The same within a program, whose earlier runs may have sent theirs. -/
def grounded (codec : AddressCodec) (wildcard : Bool) (h : ToolkitHistory E) (op : ToolkitOp E) :
    Prop :=
  ∀ request, op = .send request →
    ∃ run, OwnRun codec wildcard request run h ∧ Grounds codec run request

section
variable {codec : AddressCodec} {wildcard : Bool} {resolved : ResolvedForProxyOps E}
  {contract : ContractAbstraction E}

theorem grounded_of_unsent {x : Task (toolkitEffects E) α} {h : ToolkitHistory E}
    (hx : x.Asks fun op => ToolkitOp.sends op = false) :
    wp .free (OwnGrounds codec) x (fun _ _ => True) h := by
  refine wp.of_asks (wp_all fun _ _ => trivial) hx ?_
  rintro h op hop request rfl
  cases hop

/-- A guard under which nothing sends is kept by sending nothing. -/
theorem grounded_of_never {x : Task (toolkitEffects E) α}
    {P : ToolkitHistory E → ToolkitOp E → Prop} {Q : Except Failure α → ToolkitHistory E → Prop}
    (hx : wp .free (committingOnly P) x Q []) (never : ∀ h request, ¬ P h (.send request)) :
    wp .free (OwnGrounds codec) x (fun _ _ => True) [] := by
  refine wp_mono (fun _ _ _ => trivial) (wp_guard_mono ?_ hx)
  rintro h op hcommits request rfl
  exact (never h request (hcommits rfl)).elim

theorem runUpgradeProxy_grounded {proxy : String} :
    wp .free (OwnGrounds codec)
      (runUpgradeProxy (E := E) ⟨anyToolkit codec wildcard, resolved⟩ proxy contract)
      (fun _ _ => True) [] := by
  refine wp_mono (fun _ _ _ => trivial) (wp_guard_mono ?_ runUpgradeProxy_wp)
  rintro h op hspends request rfl
  obtain ⟨plan, hcleared, hsend⟩ := hspends rfl
  obtain ⟨hfirst, replacement, hsettled, rfl, -⟩ := hsend request rfl
  exact ⟨hfirst, .proxy hcleared hsettled⟩

theorem runUpgradeBeacon_grounded {beaconAddress : String} :
    wp .free (OwnGrounds codec)
      (runUpgradeBeacon (E := E) ⟨anyToolkit codec wildcard, resolved⟩ beaconAddress contract)
      (fun _ _ => True) [] := by
  refine wp_mono (fun _ _ _ => trivial) (wp_guard_mono ?_ runUpgradeBeacon_wp)
  rintro h op hspends request rfl
  obtain ⟨beacon, validated, hcleared, hsend⟩ := hspends rfl
  obtain ⟨hfirst, replacement, hsettled, rfl⟩ := hsend request rfl
  exact ⟨hfirst, .beacon hcleared hsettled⟩

theorem adminOf_ok {proxy slot : String} {slots : ProxySlotsRead}
    (h : adminOf proxy slots = .ok slot) :
    ∃ implementation beacon, slots = .code implementation (some slot) beacon := by
  unfold adminOf at h
  split at h
  · cases h
    exact ⟨_, _, rfl⟩
  · cases h

/-- The admin slot and the owner are read before the ownership is moved. -/
theorem runTransferProxyAdminOwnership_grounded (resolved : ResolvedForProxyOps E)
    {proxy newOwner : String} :
    wp .free (OwnGrounds codec)
      (runTransferProxyAdminOwnership (E := E) ⟨anyToolkit codec wildcard, resolved⟩ proxy newOwner)
      (fun _ _ => True) [] := by
  have pass : ∀ (e : Failure) (h' : ToolkitHistory E), Unsent [] h' → True := fun _ _ _ => trivial
  suffices hown : wp .free (spendingOnly (OwnGrounds codec))
      (runTransferProxyAdminOwnership (E := E) ⟨anyToolkit codec wildcard, resolved⟩ proxy newOwner)
      (fun _ _ => True) [] by
    refine wp_guard_mono ?_ hown
    rintro h op hspends request rfl
    exact hspends rfl request rfl
  unfold runTransferProxyAdminOwnership
  simp only [Script.bind_eq, Script.pure_eq, anyToolkit]
  refine wp.ofExcept_bind (fun proxyAddress _ => ?_) fun _ _ => trivial
  refine wp.ofExcept_bind (fun target _ => ?_) fun _ _ => trivial
  refine wp.askUnspent (.refl []) rfl pass fun slots stay => ?_
  refine wp.ofExcept_bind (fun slot hslot => ?_) fun _ _ => trivial
  refine wp.ofExcept_bind (fun admin hadmin => ?_) fun _ _ => trivial
  refine wp.askUnspent stay rfl pass fun owner stay => ?_
  split
  · trivial
  rename_i hmoves
  unfold sendTransfer
  simp only [Script.bind_eq, Script.pure_eq]
  refine wp.askUnspent stay rfl pass fun sender stay => ?_
  refine wp.ofExcept_bind (fun _ _ => ?_) fun _ _ => trivial
  refine wp.askUnspent stay rfl pass fun _ stay => ?_
  refine wp.bind (R := fun _ _ => True) ?_ (fun _ _ _ => ?_) fun _ _ _ => trivial
  · refine wp.askUnspent stay rfl pass fun _ stay => ?_
    refine wp.bind (callThroughFacade_wp fun h' stay' => ?_) (fun _ _ _ => ?_) fun _ _ _ => trivial
    · rintro request ⟨⟩
      refine ⟨(stay.trans stay').2, ?_⟩
      obtain ⟨implementation, beacon, rfl⟩ := adminOf_ok hslot
      have hshown : Answered h' (.proxySlots proxyAddress)
          (.code implementation (some slot) beacon) := .later (by simp [Answered]) stay'.1
      have hheld : Answered h' (.ownerOf admin) owner := .later (by simp [Answered]) stay'.1
      exact .ownership hshown hadmin hheld hmoves
    · unfold settleTransfer
      refine wp.bind confirmUpgrade_wp (fun _ h' _ => ?_) fun _ _ _ => trivial
      refine wp.askUnspent (.refl h') rfl (fun _ _ _ => trivial) fun observed _ => ?_
      exact wp.ofExcept_bind (fun _ _ => trivial) fun _ _ => trivial
  · exact wp.ofExcept_bind (fun _ _ => trivial) fun _ _ => trivial

theorem ToolkitOp.sends_of_isPlain (op : ToolkitOp E) (h : op.isPlain = true) :
    op.sends = false := by
  cases op <;> first | rfl | cases h

theorem classify_unsent {address : String} (slots : ProxySlotsRead) :
    (classify (anyToolkit (E := E) codec wildcard) address slots).Asks
      fun op => ToolkitOp.sends op = false := by
  unfold classify
  split
  · trivial
  · refine (toolkitCall_asks ToolkitOp.sends_of_isPlain rfl).bind fun read => ?_
    cases read <;> trivial
  · trivial
  · refine (toolkitCall_asks ToolkitOp.sends_of_isPlain rfl).bind fun read => ?_
    cases read <;> trivial

theorem runForceImport_unsent {address : String} :
    (runForceImport (E := E) ⟨anyToolkit codec wildcard, resolved⟩ address contract).Asks
      fun op => ToolkitOp.sends op = false := by
  have plain := ToolkitOp.sends_of_isPlain (E := E)
  refine Script.Asks.ofExcept.bind fun address => (toolkitCall_asks plain rfl).bind fun slots =>
    (classify_unsent slots).bind ?_
  rintro ⟨found, implementation⟩
  refine Script.Asks.ofExcept.bind fun _ => Script.Asks.ofExcept.bind fun _ =>
    (toolkitCall_asks plain rfl).bind fun _ => Script.Asks.ofExcept.bind fun _ =>
    (toolkitCall_asks plain rfl).bind fun _ => Script.Asks.ofExcept.bind fun _ =>
    Script.Asks.bind ?_ fun absent => Script.Asks.ofExcept.bind fun _ =>
    Script.Asks.ofExcept.bind fun _ => (fetch_asks plain ?_).bind fun _ =>
    Script.Asks.bind ?_ fun _ => (toolkitCall_asks plain rfl).bind fun _ =>
    Script.Asks.ofExcept.bind fun _ => trivial
  · cases found.recordedAs with
    | none => trivial
    | some kind =>
      refine (toolkitCall_asks plain rfl).bind fun existing => ?_
      cases existing with
      | none => trivial
      | some recorded => exact Script.Asks.ofExcept.bind fun _ => trivial
  · exact (readWriteBackHash_asks (anyEntry_plain plain) contract).bind fun _ => trivial
  · unfold recordAdopted
    split
    · exact Script.Asks.when (Script.Asks.perform rfl)
    · trivial

theorem Operation.run_grounded (op : Operation E) :
    wp .free (OwnGrounds codec) (op.run codec wildcard) (fun _ _ => True) [] := by
  cases op with
  | deployProxy resolved contract args =>
    refine grounded_of_never runDeployProxy_commits fun h request hcommits => ?_
    obtain ⟨plan, -, ⟨-, hop | hop⟩ | ⟨_, ⟨-, hop⟩ | ⟨_, _, _, -, hop⟩⟩⟩ := hcommits <;> cases hop
  | upgradeProxy resolved proxy contract => exact runUpgradeProxy_grounded
  | deployBeacon resolved contract =>
    refine grounded_of_never runDeployBeacon_commits fun h request hcommits => ?_
    obtain ⟨_, _, _, -, ⟨-, hop | hop⟩ | ⟨_, -, hop⟩⟩ := hcommits <;> cases hop
  | deployBeaconProxy resolved beacon contract args =>
    refine grounded_of_never runDeployBeaconProxy_commits fun h request hcommits => ?_
    obtain ⟨_, _, _, -, ⟨-, hop⟩ | ⟨_, _, _, -, -, hop⟩⟩ := hcommits <;> cases hop
  | upgradeBeacon resolved beacon contract => exact runUpgradeBeacon_grounded
  | deployImplementation resolved contract =>
    exact grounded_of_unsent (deployImplementationThroughQueue_asks ToolkitOp.sends_of_isPlain)
  | prepareUpgrade resolved proxy contract =>
    exact grounded_of_unsent (runPrepareUpgrade_asks ToolkitOp.sends_of_isPlain)
  | forceImport resolved address contract => exact grounded_of_unsent runForceImport_unsent
  | transferProxyAdminOwnership resolved proxy newOwner =>
    exact runTransferProxyAdminOwnership_grounded resolved

theorem migration_grounded (migration : Migration E α) :
    wp .free (grounded codec wildcard) (migration.implemented (Operation.run codec wildcard))
      (fun _ _ => True) [] := by
  refine wp.implemented (fun op h => ?_) migration []
  refine wp.onward (h := []) op.run_grounded.reached ?_
  rintro run _ ⟨hown, next, hr⟩ request rfl
  obtain ⟨hfirst, hgrounds⟩ := hown request rfl
  exact ⟨run, ⟨List.prefix_append run h, ⟨op, next, hr⟩, hfirst⟩, hgrounds⟩

end

-- ---------------------------------------------------------------------------
-- The chain
-- ---------------------------------------------------------------------------

section
variable {ι : Type}

/-- What migrations have done on one chain, latest first. -/
abbrev ToolkitTrace (ι : Type) (E : Engine) := Trace ι (toolkitEffects E) Failure

def sent (request : FacadeRequest) (reply : Except Failure Json) :
    Event (toolkitEffects E) Failure :=
  ⟨.send request, reply⟩

def shownSlots (address : String) (slots : ProxySlotsRead) : Event (toolkitEffects E) Failure :=
  ⟨.proxySlots address, .ok slots⟩

def shownBeacon (address : String) (read : BeaconRead) : Event (toolkitEffects E) Failure :=
  ⟨.readBeaconImplementation address, .ok read⟩

def ConfirmationVerdict.isFinal : ConfirmationVerdict → Bool
  | .indeterminate _ => false
  | _ => true

/-- What became of the transaction was asked and said. -/
def ToldIn (later : ToolkitTrace ι E) (reply : Except Failure Json) : Prop :=
  ∃ json hash i verdict, reply = .ok json ∧ callTransactionHash json = some hash ∧
    (i, ⟨.confirm hash, .ok verdict⟩) ∈ later ∧ verdict.isFinal = true

theorem ToldIn.later {later : ToolkitTrace ι E} {reply : Except Failure Json}
    (h : ToldIn later reply) (prior : ToolkitTrace ι E) : ToldIn (prior ++ later) reply := by
  obtain ⟨json, hash, i, verdict, hreply, hhash, hmem, hfinal⟩ := h
  exact ⟨json, hash, i, verdict, hreply, hhash, List.mem_append_right _ hmem, hfinal⟩

/-- What the processes see of a chain, by what they have done to it. -/
structure Chain (ι : Type) (E : Engine) where
  slots : ToolkitTrace ι E → String → ProxySlotsRead
  beacon : ToolkitTrace ι E → String → BeaconRead
  /-- The transaction may change what the address shows. -/
  touches : FacadeRequest → String → Prop
  /-- A transaction that is nobody's here may do so at this moment. -/
  outside : ToolkitTrace ι E → String → Prop

namespace Chain

variable (chain : Chain ι E)

/-- A transaction to the address was sent, and nobody was told of its end. -/
def UnderWay (trace : ToolkitTrace ι E) (address : String) : Prop :=
  ∃ later i request reply before, trace = later ++ (i, sent request reply) :: before ∧
    chain.touches request address ∧ ¬ ToldIn later reply

/-- What may change what an address shows. -/
inductive Moves (address : String) (entry : ι × Event (toolkitEffects E) Failure)
    (before : ToolkitTrace ι E) : Prop
  | transaction {request : FacadeRequest} (send : entry.2.op = .send request)
      (touches : chain.touches request address)
  | underWay (underWay : chain.UnderWay before address)
  | outside (outside : chain.outside before address)

/-- Contracts that exist show what they show until something moves them. -/
structure Keeps : Prop where
  slots : ∀ entry before address, chain.slots before address ≠ .noCode →
    ¬ chain.Moves address entry before →
      chain.slots (entry :: before) address = chain.slots before address
  beacon : ∀ entry before address implementation,
    chain.beacon before address = .implementation implementation →
    ¬ chain.Moves address entry before →
      chain.beacon (entry :: before) address = .implementation implementation

/-- What the chain answers is what it shows. -/
def allows (before : ToolkitTrace ι E) (_ : ι) : Event (toolkitEffects E) Failure → Prop
  | ⟨.proxySlots address, .ok slots⟩ => slots = chain.slots before address
  | ⟨.readBeaconImplementation address, .ok read⟩ => read = chain.beacon before address
  | _ => True

/-- Since `earlier` something moved the address that the process neither sent
since nor was told the end of before. -/
inductive Overtaken (i : ι) (address : String) (earlier since : ToolkitTrace ι E) : Prop
  | underWay (underWay : chain.UnderWay earlier address)
  | transaction {j : ι} {request : FacadeRequest} {reply : Except Failure Json} (other : j ≠ i)
      (mem : (j, sent request reply) ∈ since) (touches : chain.touches request address)
  | outside {entry : ι × Event (toolkitEffects E) Failure} {meanwhile : ToolkitTrace ι E}
      (suffix : entry :: meanwhile <:+ since)
      (outside : chain.outside (meanwhile ++ earlier) address)

/-- The process read at a moment `earlier` that `P` holds of the chain, and it
still does, or was overtaken. -/
def Stands (i : ι) (address : String) (reading : Event (toolkitEffects E) Failure)
    (P : ToolkitTrace ι E → Prop) (trace : ToolkitTrace ι E) : Prop :=
  ∃ since earlier, trace = since ++ earlier ∧ (i, reading) ∈ since ∧ P earlier ∧
    (P trace ∨ chain.Overtaken i address earlier since)

variable {chain} {i : ι} {address : String} {earlier since : ToolkitTrace ι E}

variable [DecidableEq ι]

/-- What moved the address while the process sent nothing is not the process's. -/
theorem Moves.overtakes {entry : ι × Event (toolkitEffects E) Failure}
    {meanwhile : ToolkitTrace ι E} (m : chain.Moves address entry (meanwhile ++ earlier))
    (suffix : entry :: meanwhile <:+ since)
    (unsent : sendCount (Trace.heardBy i since) = 0) :
    chain.Overtaken i address earlier since := by
  have others : ∀ {j request reply}, (j, sent request reply) ∈ since → j ≠ i := by
    rintro j request reply hmem rfl
    exact List.countP_eq_zero.mp unsent _ (Trace.mem_heardBy.mpr hmem) rfl
  cases m with
  | transaction send touches =>
    obtain ⟨j, op, reply⟩ := entry
    cases send
    have hmem := suffix.mem List.mem_cons_self
    exact .transaction (others hmem) hmem touches
  | outside outside => exact .outside suffix outside
  | underWay underWay =>
    obtain ⟨later, j, request, reply, before, hsplit, touches, untold⟩ := underWay
    obtain ⟨prior, rfl, hprior⟩ | ⟨rest, rfl, hrest⟩ := List.append_eq_append_iff.mp hsplit
    · exact .underWay ⟨prior, j, request, reply, before, hprior, touches,
        fun told => untold (told.later _)⟩
    · cases rest with
      | nil =>
        refine .underWay ⟨[], j, request, reply, before, hrest.symm, touches, ?_⟩
        rintro ⟨_, _, _, _, -, -, hmem, -⟩
        cases hmem
      | cons entry' rest =>
        obtain ⟨rfl, -⟩ := List.cons.inj hrest
        have hmem := suffix.mem (List.mem_cons_of_mem entry
          (List.mem_append_right later List.mem_cons_self))
        exact .transaction (others hmem) hmem touches

/-- What a run read is so where it has sent nothing, or was overtaken. -/
theorem Stands.of_read {P : ToolkitTrace ι E → Prop} {trace : ToolkitTrace ι E}
    {run : ToolkitHistory E} {reading : Event (toolkitEffects E) Failure}
    (keeps : ∀ entry before, P before → ¬ chain.Moves address entry before → P (entry :: before))
    (read : ∀ later before, trace = later ++ (i, reading) :: before → P before)
    (own : run <+: Trace.heardBy i trace) (first : sendCount run = 0) (hread : reading ∈ run) :
    chain.Stands i address reading P trace := by
  obtain ⟨rest, own⟩ := own
  obtain ⟨h', h, rfl⟩ := List.append_of_mem hread
  rw [List.append_assoc] at own
  obtain ⟨later, before, rfl, hlater, -⟩ := Trace.heardBy_split own.symm
  have hbefore := read later before rfl
  refine ⟨later ++ [(i, reading)], before, List.append_cons .., by simp, hbefore, ?_⟩
  rw [List.append_cons]
  refine (Trace.unless_ended keeps hbefore _).imp_right ?_
  rintro ⟨entry, meanwhile, hsuffix, hmoves⟩
  refine hmoves.overtakes hsuffix (List.countP_eq_zero.mpr fun event hevent => ?_)
  rw [Trace.heardBy_append, Trace.heardBy_self, Trace.heardBy_nil, hlater] at hevent
  refine List.countP_eq_zero.mp first event ?_
  rw [List.append_cons]
  exact List.mem_append_left h hevent

/-- What a transaction rests on: the grounds its run has, which has sent nothing
yet, with what the chain showed of what is replaced. -/
inductive Justified (chain : Chain ι E) (codec : AddressCodec) (wildcard : Bool) (i : ι)
    (trace : ToolkitTrace ι E) : FacadeRequest → Prop
  | proxy {run : ToolkitHistory E} {resolved : ResolvedForProxyOps E} {proxy : String}
      {contract : ContractAbstraction E} {plan : ProxyUpgradePlan E}
      {implementation replacement : String} {admin : Option String} {layout : E.Layout}
      (own : OwnRun codec wildcard (plan.request replacement).toFacade run (Trace.heardBy i trace))
      (cleared : ProxyUpgradeCleared codec resolved proxy contract plan run)
      (stands : chain.Stands i plan.proxyAddress
        (shownSlots plan.proxyAddress (.code (some implementation) admin none))
        (fun t => chain.slots t plan.proxyAddress = .code (some implementation) admin none) trace)
      (recorded : Answered run (.storedLayoutFor implementation) layout)
      (compared : Answered run (.assertStorageCompatible layout plan.validated resolved) ())
      (settled : Answered run (.fetchSettles plan.validated resolved) replacement) :
      Justified chain codec wildcard i trace (plan.request replacement).toFacade
  | beacon {run : ToolkitHistory E} {resolved : ResolvedForProxyOps E}
      {beaconAddress beacon : String} {contract : ContractAbstraction E}
      {validated : ValidatedImplementation E} {implementation replacement : String}
      {layout : E.Layout}
      (own : OwnRun codec wildcard (upgradeBeaconRequest beacon replacement) run
        (Trace.heardBy i trace))
      (cleared : BeaconUpgradeCleared codec resolved beaconAddress contract beacon validated run)
      (stands : chain.Stands i beacon (shownBeacon beacon (.implementation implementation))
        (fun t => chain.beacon t beacon = .implementation implementation) trace)
      (recorded : Answered run (.storedLayoutFor implementation) layout)
      (compared : Answered run (.assertStorageCompatible layout validated resolved) ())
      (settled : Answered run (.fetchSettles validated resolved) replacement) :
      Justified chain codec wildcard i trace (upgradeBeaconRequest beacon replacement)
  | ownership {run : ToolkitHistory E} {proxy slot admin target : String}
      {implementation beacon owner : Option String}
      (own : OwnRun codec wildcard (transferRequest admin target) run (Trace.heardBy i trace))
      (stands : chain.Stands i proxy (shownSlots proxy (.code implementation (some slot) beacon))
        (fun t => chain.slots t proxy = .code implementation (some slot) beacon) trace)
      (spelled : canonicalizeAddress codec slot = .ok admin)
      (held : Answered run (.ownerOf admin) owner) (moves : owner ≠ some target) :
      Justified chain codec wildcard i trace (transferRequest admin target)

variable {codec : AddressCodec} {wildcard : Bool} {trace : ToolkitTrace ι E}

theorem Stands.slots {slots : ProxySlotsRead} {run : ToolkitHistory E} (keeps : chain.Keeps)
    (answers : ∀ later before event, trace = later ++ (i, event) :: before →
      chain.allows before i event)
    (own : run <+: Trace.heardBy i trace) (first : sendCount run = 0)
    (hslots : Answered run (.proxySlots address) slots) (hcode : slots ≠ .noCode) :
    chain.Stands i address (shownSlots address slots)
      (fun t => chain.slots t address = slots) trace := by
  refine .of_read (fun entry before hshown hmoves => ?_) (fun later before hsplit => ?_) own first
    hslots
  · rw [← hshown]
    exact keeps.slots entry before address (by rwa [hshown]) hmoves
  · exact (answers later before _ hsplit).symm

theorem Stands.beacon {implementation : String} {run : ToolkitHistory E} (keeps : chain.Keeps)
    (answers : ∀ later before event, trace = later ++ (i, event) :: before →
      chain.allows before i event)
    (own : run <+: Trace.heardBy i trace) (first : sendCount run = 0)
    (hread : Answered run (.readBeaconImplementation address) (.implementation implementation)) :
    chain.Stands i address (shownBeacon address (.implementation implementation))
      (fun t => chain.beacon t address = .implementation implementation) trace := by
  refine .of_read (fun entry before => keeps.beacon entry before address implementation)
    (fun later before hsplit => ?_) own first hread
  exact (answers later before _ hsplit).symm

theorem Justified.of_grounded {request : FacadeRequest} (keeps : chain.Keeps)
    (answers : ∀ later before event, trace = later ++ (i, event) :: before →
      chain.allows before i event)
    (hgrounded : grounded codec wildcard (Trace.heardBy i trace) (.send request)) :
    chain.Justified codec wildcard i trace request := by
  obtain ⟨run, own, hgrounds⟩ := hgrounded request rfl
  cases hgrounds with
  | proxy cleared settled =>
    obtain ⟨implementation, admin, layout, hslots, hlayout, hcompared, -⟩ := cleared.compared
    have hstands := Stands.slots keeps answers own.latest own.first hslots ProxySlotsRead.noConfusion
    exact .proxy own cleared hstands hlayout hcompared settled
  | beacon cleared settled =>
    obtain ⟨implementation, layout, hread, hlayout, hcompared⟩ := cleared.compared
    have hstands := Stands.beacon keeps answers own.latest own.first hread
    exact .beacon own cleared hstands hlayout hcompared settled
  | ownership hslots spelled held moves =>
    have hstands := Stands.slots keeps answers own.latest own.first hslots ProxySlotsRead.noConfusion
    exact .ownership own hstands spelled held moves

end Chain

/-- Whatever migrations run side by side on one chain, and however their
operations and the landings of their transactions interleave, a transaction is
the first of its operation's run, and upgrades or moves an ownership on what
that run read; and what it read of what it replaces is so where it is sent, or
was overtaken. -/
theorem transactions_justified [DecidableEq ι] (chain : Chain ι E) (keeps : chain.Keeps)
    (codec : AddressCodec) (wildcard : ι → Bool) (migrations : ι → Migration E α)
    (xs : ι → Task (toolkitEffects E) α) (later before : ToolkitTrace ι E) (i : ι)
    (request : FacadeRequest) (reply : Except Failure Json)
    (run : Pool.Reaches (World.traced chain.allows)
      (fun i => (migrations i).implemented (Operation.run codec (wildcard i)), [])
      (xs, later ++ (i, sent request reply) :: before)) :
    chain.Justified codec (wildcard i) i before request := by
  have hall := Pool.traced (G := fun i => grounded codec (wildcard i))
    (fun i => migration_grounded (migrations i)) run
  refine Chain.Justified.of_grounded keeps (fun later' before' event hsplit => ?_)
    (hall later before i (sent request reply) rfl).1
  subst hsplit
  exact (hall (later ++ (i, sent request reply) :: later') before' i event (by simp)).2

end

end

-- One process reads a proxy's slots, another upgrades the proxy, and the first
-- one sends its own upgrade after that.

def racedProxy : String := "0x1111111111111111111111111111111111111111"

def racedImplementation (trace : ToolkitTrace Bool sampleEngine) : String :=
  bif trace.any fun entry => ToolkitOp.sends entry.2.op then behindBeacon.address else sampleBeacon

def racedChain : Chain Bool sampleEngine where
  slots trace _ := .code (some (racedImplementation trace)) none none
  beacon _ _ := .notABeacon
  touches _ _ := True
  outside _ _ := False

theorem racedChain_keeps : racedChain.Keeps where
  slots entry before address _ hmoves := by
    have hsends : ToolkitOp.sends entry.2.op = false := by
      cases hop : entry.2.op with
      | send request => exact (hmoves (.transaction hop trivial)).elim
      | _ => rfl
    simp only [racedChain, racedImplementation, List.any_cons]
    rw [hsends]
    rfl
  beacon _ _ _ _ hread := by cases hread

def racedReply (trace : ToolkitTrace Bool sampleEngine) :
    (op : ToolkitOp sampleEngine) → Except Failure op.Reply
  | .proxySlots address => .ok (racedChain.slots trace address)
  | .validateImplementation _ _ => .ok sampleValidated
  | .processProxyKind _ _ _ => .ok .uups
  | .storedLayoutFor _ => .ok "0x6001"
  | .readUpgradeInterfaceVersion _ => .ok (some "5.0.0")
  | .fetchStarts _ _ => .ok 0
  | .fetchSettles _ _ => .ok behindBeacon.address
  | .requireDeployer | .queueTurn | .assertStorageCompatible _ _ _ => .ok ()
  | .proxyArtifact _ => .ok sampleContract
  | .attach _ address => .ok ⟨address, ["upgradeToAndCall"], true⟩
  | .send _ => .ok (.str "0xd1")
  | _ => .error (.error "not asked for")

def racedAnswer (i : Bool) (trace : ToolkitTrace Bool sampleEngine) (op : ToolkitOp sampleEngine) :
    Except Failure op.Reply × ToolkitTrace Bool sampleEngine :=
  (racedReply trace op, (i, ⟨op, racedReply trace op⟩) :: trace)

theorem racedAnswer_allowed (i : Bool) :
    (World.traced racedChain.allows i).Allows (racedAnswer i) := by
  intro trace op
  refine ⟨?_, rfl⟩
  cases op <;> first | rfl | trivial

def upgradesOfBoth (_ : Bool) : Migration sampleEngine Unit := do
  let _ ← Script.perform (S := operationEffects sampleEngine)
    (.upgradeProxy sampleOptions racedProxy sampleContract)

def raced : (Bool → Task (toolkitEffects sampleEngine) Unit) × ToolkitTrace Bool sampleEngine :=
  Pool.schedule racedAnswer [(false, 14), (true, 15), (false, 1)]
    (fun i => (upgradesOfBoth i).implemented (Operation.run (base58CheckCodec zeroChecksum) false),
      [])

def racedRequest : FacadeRequest :=
  ⟨"ITronUpgradesUUPS", racedProxy, "upgradeToAndCall",
    [.str behindBeacon.address, .str "0x"]⟩

theorem transactions_justified_raced :
    racedChain.Justified (base58CheckCodec zeroChecksum) false false raced.2.tail racedRequest := by
  have run := Pool.reaches_schedule racedAnswer_allowed [(false, 14), (true, 15), (false, 1)]
    (fun i => (upgradesOfBoth i).implemented (Operation.run (base58CheckCodec zeroChecksum) false),
      [])
  exact transactions_justified racedChain racedChain_keeps (base58CheckCodec zeroChecksum)
    (fun _ => false) upgradesOfBoth raced.1 [] raced.2.tail false racedRequest (.ok (.str "0xd1"))
    run

end TronUpgrades.Tronbox
