import TronUpgrades.Adoption.Import

/-!
# Adopting what the chain confirms

`adoption_confirmed_iff`: an adoption spends nothing, writes nothing of a
contract that the chain does not confirm, and stores a layout before it records
a proxy. Three things it leaves to what it finds: the kind on record where it
records none itself, the layouts under other versions, and the artifact's slot.
-/

namespace TronUpgrades.Adoption

open Effects Tronbox Address
open Hardhat (Manifest)

section
variable {E : Engine} (env : Environment) (situation : Situation)
  (resolved : ResolvedForProxyOps E) (contract : ContractAbstraction E)
  (deploys : String → String → Prop) (m : Manifest E) (input : String)

/-- The record as an adoption may leave it, also where it fails. `deploys` says
which transaction created the contract at which address. -/
structure RecordKept (m' : Manifest E) : Prop where
  ordered : ∀ a, m'.kindOf a ≠ m.kindOf a → ∃ found implementation canonical,
    situation.found a = some (found, implementation) ∧
      canonicalizeAddress env.codec implementation = .ok canonical ∧
      (m'.layoutForAddress canonical).isSome = true
  layouts : m.LayoutsAgree → m'.LayoutsAgree
  hashes : ∀ key entry hash, m'.impl? key = some entry → entry.txHash = some hash →
    (∃ before, m.impl? key = some before ∧ before.txHash = some hash) ∨ deploys hash entry.address

/-- Nothing is spent, and nothing written of what the chain does not confirm. -/
structure ConfirmedOnly (c : Recorded E) : Prop
    extends RecordKept env situation deploys m c.state where
  unspent : ∀ event ∈ c.history, HostOp.spends event.op = false
  confirmed : (∃ event ∈ c.history, writesRecord event.op = true) →
    ∃ address found implementation, canonicalizeAddress env.codec input = .ok address ∧
      Verified situation resolved contract m address found implementation ∧
      ∀ kind, m.kindOf address = some kind → found = .proxy kind

/-- What has to hold of the record and the slot when an operation is asked for. -/
structure Storable (c : Recorded E) (op : HostOp E) : Prop where
  kind : writesRecord op = true → ∀ address found implementation,
    canonicalizeAddress env.codec input = .ok address →
      situation.found address = some (found, implementation) →
      ∀ kind, m.kindOf address = some kind → found = .proxy kind
  layouts : ∀ version layout deployment, op = .engineSettle version layout (.ok deployment) →
    m.LayoutsAgree → ∀ key entry, key ≠ E.linkedWithoutMetadata version →
      c.state.impl? key = some entry → deployment.address ∈ entry.addresses →
      entry.layout = c.state.keptLayout version layout
  hashes : ∀ version layout deployment, op = .engineSettle version layout (.ok deployment) →
    c.state.impl? (E.linkedWithoutMetadata version) = none →
      ∀ hash, situation.slotHash = some hash →
        (∃ before, m.impl? (E.linkedWithoutMetadata version) = some before ∧
          before.txHash = some hash) ∨ deploys hash deployment.address

variable {env situation resolved contract deploys m input}
variable {c c' : Recorded E} {op : HostOp E} {r : Except Failure op.Reply}

theorem ConfirmedOnly.start :
    ConfirmedOnly env situation resolved contract deploys m input ⟨m, []⟩ where
  unspent _ hevent := absurd hevent List.not_mem_nil
  confirmed := by
    rintro ⟨_, ⟨⟩, _⟩
  ordered a hne := absurd rfl hne
  layouts h := h
  hashes key entry hash hentry hhash := .inl ⟨entry, hentry, hhash⟩

/-- The engine's own steps leave the proxies as they were, so that only the
implementations are to be looked at. -/
theorem RecordKept.ofImpls {m' : Manifest E} (hproxies : m'.proxies = m.proxies)
    (layouts : m.LayoutsAgree → m'.LayoutsAgree)
    (hashes : ∀ key entry hash, m'.impl? key = some entry → entry.txHash = some hash →
      (∃ before, m.impl? key = some before ∧ before.txHash = some hash) ∨
        deploys hash entry.address) : RecordKept env situation deploys m m' where
  ordered a hne := absurd (by simp only [Manifest.kindOf, hproxies]) hne
  layouts := layouts
  hashes := hashes

theorem RecordStep.kept (hstep : RecordStep c.state op r c'.state)
    (hguard : Adopts env situation resolved contract m input c op)
    (hstorable : Storable env situation deploys m input c op)
    (hkept : RecordKept env situation deploys m c.state) :
    RecordKept env situation deploys m c'.state := by
  obtain ⟨s, h⟩ := c
  obtain ⟨s', h'⟩ := c'
  cases hstep with
  | proxyRecord | started | rejected | elsewhere => exact hkept
  | @addProxyRecord address kind =>
    obtain ⟨found, implementation, canonical, hfound, hcanonical, hlayout⟩ :=
      hguard.records address kind rfl
    refine ⟨fun a hne => ?_, hkept.layouts, hkept.hashes⟩
    by_cases ha : address = a
    · subst ha
      exact ⟨found, implementation, canonical, hfound, hcanonical, hlayout⟩
    · refine hkept.ordered a fun heq => hne ?_
      exact (Hardhat.kindOf_addProxy kind a).trans ((if_neg ha).trans heq)
  | @stored version layout deployment =>
    refine .ofImpls (hguard.engine rfl) (fun hm => ?_) fun key entry hash hentry hhash => ?_
    · exact (Hardhat.layoutsAgree_recordImpl (hkept.layouts hm)).mpr
        (hstorable.layouts version layout deployment rfl hm)
    · by_cases hkey : key = E.linkedWithoutMetadata version
      · subst hkey
        cases hentry.symm.trans Hardhat.impl?_recordImpl_self
        cases hbefore : s.impl? (E.linkedWithoutMetadata version) with
        | none =>
          rw [hbefore] at hhash
          have hslot : deployment.transactionHash = some hash := hhash
          rw [hguard.settles version layout deployment rfl] at hslot
          exact hstorable.hashes version layout deployment rfl hbefore hash hslot
        | some before =>
          rw [hbefore] at hhash
          exact hkept.hashes _ before hash hbefore hhash
      · exact hkept.hashes key entry hash ((Hardhat.impl?_recordImpl_of_ne hkey).symm.trans hentry)
          hhash
  | removed hversion hremoved =>
    refine .ofImpls (hguard.engine (by rw [hversion]; rfl)) (fun hm => ?_)
      fun key entry hash hentry hhash => ?_
    · exact Hardhat.layoutsAgree_removed (hkept.layouts hm)
    · exact hkept.hashes key entry hash (Hardhat.impl?_removed hentry) hhash

/-- One step. -/
theorem ConfirmedOnly.step (hstep : (situation.world contract).step c op r c')
    (hguard : Adopts env situation resolved contract m input c op)
    (hstorable : Storable env situation deploys m input c op)
    (h : ConfirmedOnly env situation resolved contract deploys m input c) :
    ConfirmedOnly env situation resolved contract deploys m input c' := by
  obtain ⟨hstep, -, hhistory⟩ := hstep
  refine ⟨hstep.kept hguard hstorable h.toRecordKept, ?_, ?_⟩
  · intro event hevent
    rw [hhistory] at hevent
    rcases List.mem_cons.mp hevent with rfl | hevent
    · exact hguard.unspent
    · exact h.unspent event hevent
  · rintro ⟨event, hevent, hwrites⟩
    rw [hhistory] at hevent
    rcases List.mem_cons.mp hevent with rfl | hevent
    · obtain ⟨address, found, implementation, haddress, hverified⟩ := hguard.verified hwrites
      exact ⟨address, found, implementation, haddress, hverified,
        hstorable.kind hwrites address found implementation haddress hverified.shown⟩
    · exact h.confirmed ⟨event, hevent, hwrites⟩

/-- Whatever is asked for may fail without having done anything. -/
theorem answers_error (hop : ∀ contract', op ≠ .entry .transactionHash contract') (e : Failure) :
    situation.Answers contract ⟨op, .error e⟩ := by
  cases op with
  | entry access contract' =>
    cases access with
    | transactionHash => exact absurd rfl (hop contract')
    | _ => trivial
  | _ => trivial

theorem Storable.of_confirmed (hguard : Adopts env situation resolved contract m input c op)
    (hc : ConfirmedOnly env situation resolved contract deploys m input c)
    (hnext : ∀ r c', (situation.world contract).step c op r c' →
      ConfirmedOnly env situation resolved contract deploys m input c') :
    Storable env situation deploys m input c op := by
  have store : ∀ version layout deployment, op = .engineSettle version layout (.ok deployment) →
      RecordKept env situation deploys m (c.state.stored version layout deployment) := by
    rintro version layout deployment rfl
    exact (hnext (.ok deployment.address)
      ⟨c.state.stored version layout deployment,
        ⟨.engineSettle version layout (.ok deployment), .ok deployment.address⟩ :: c.history⟩
      ⟨.stored nofun, trivial, rfl⟩).toRecordKept
  refine ⟨fun hwrites => ?_, ?_, ?_⟩
  · intro address found implementation haddress hfound
    have hlater := hnext (.error (.error "")) ⟨c.state, ⟨op, .error (.error "")⟩ :: c.history⟩
      ⟨.rejected, answers_error ?_ _, rfl⟩
    · obtain ⟨address', found', implementation', haddress', hverified, hkind⟩ :=
        hlater.confirmed ⟨_, List.mem_cons_self, hwrites⟩
      cases haddress.symm.trans haddress'
      cases hfound.symm.trans hverified.shown
      exact hkind
    · rintro contract' rfl
      cases hwrites
  · intro version layout deployment hop hm
    exact (Hardhat.layoutsAgree_recordImpl (hc.layouts hm)).mp
      ((store version layout deployment hop).layouts hm)
  · intro version layout deployment hop hnone hash hslot
    have hentry : (c.state.stored version layout deployment).impl?
        (E.linkedWithoutMetadata version) = some ⟨deployment.address, deployment.transactionHash,
          layout, none⟩ := by
      have hself : (c.state.stored version layout deployment).impl?
          (E.linkedWithoutMetadata version) = some _ := Hardhat.impl?_recordImpl_self
      rwa [hnone] at hself
    exact (store version layout deployment hop).hashes _ _ hash hentry
      ((hguard.settles version layout deployment hop).trans hslot)

/-- Every state of every run is as the chain confirms it, if and only if
whatever is asked for on the way is storable. -/
theorem adoption_confirmed_iff
    (again : ∀ a, canonicalizeAddress env.codec input = .ok a →
      canonicalizeAddress env.codec a = .ok a) :
    (∀ y c, Script.Reaches (situation.world contract)
        (runForceImport ⟨productionToolkit env, resolved⟩ input contract, ⟨m, []⟩) (y, c) →
      ConfirmedOnly env situation resolved contract deploys m input c) ↔
    ∀ op next c, Script.Reaches (situation.world contract)
        (runForceImport ⟨productionToolkit env, resolved⟩ input contract, ⟨m, []⟩)
        (.call op next, c) →
      Storable env situation deploys m input c op := by
  have hadopts := runForceImport_adopts situation resolved contract m again
  constructor
  · intro hall op next c hr
    refine .of_confirmed (hadopts.calls hr) (hall _ c hr) fun r c' hstep => ?_
    exact hall _ c' (hr.tail (.call hstep))
  · intro hstorable y c hr
    refine wp.invariant hadopts .start ?_ hr
    intro c op next r c' hr hguard hc hstep
    exact hc.step hstep hguard (hstorable op next c hr)

end

-- ---------------------------------------------------------------------------
-- An artifact that a proxy was deployed from
-- ---------------------------------------------------------------------------

/-- A transparent proxy over an implementation, both by `deployProxy`, which
left the proxy's transaction in the artifact's slot. -/
def proxiedBox : Situation where
  slots _ := .code (some "0x0000000000000000000000000000000000000011")
    (some "0x0000000000000000000000000000000000000043") none
  beacon _ := .notABeacon
  code _ := "0x6002"
  slot := .ok (some "0xd1")

def emptyManifest : Manifest sampleEngine := ⟨.empty, [], none⟩

/-- A project with one artifact, and an engine that stores what it is given. -/
def adoptionReply (situation : Situation) (m : Manifest sampleEngine) :
    (op : HostOp sampleEngine) → Except Failure op.Reply
  | .readProxySlots address => .ok (situation.slots address)
  | .readBeaconImplementation beacon => .ok (situation.beacon beacon)
  | .getCode address => .ok (situation.code address)
  | .entry .transactionHash _ => situation.slot
  | .deriveValidationInput _ => .ok (.ok true)
  | .resolveArtifact _ => .ok (.unique sampleContract)
  | .artifactRecord _ => .ok (.complete "0x6001")
  | .proxyRecord address => .ok (m.kindOf address)
  | .engineStart _ _ => .ok none
  | .engineSettle _ _ callback => callback.map (·.address)
  | .addProxyRecord _ _ => .ok ()
  | .attach _ address => .ok ⟨address, [], true⟩
  | _ => .error (.error "not asked for")

def adoptionRecord (m : Manifest sampleEngine) : HostOp sampleEngine → Manifest sampleEngine
  | .engineSettle version layout (.ok deployment) => m.stored version layout deployment
  | .addProxyRecord address kind => m.addProxy kind address
  | _ => m

def adoptionHost (situation : Situation) (c : Recorded sampleEngine) (op : HostOp sampleEngine) :
    Except Failure op.Reply × Recorded sampleEngine :=
  (adoptionReply situation c.state op,
    ⟨adoptionRecord c.state op, ⟨op, adoptionReply situation c.state op⟩ :: c.history⟩)

theorem adoptionHost_allowed (situation : Situation) :
    (situation.world sampleContract).Allows (adoptionHost situation) := by
  intro c op
  refine ⟨?_, ?_, rfl⟩
  · cases op with
    | engineSettle version layout callback =>
      cases callback with
      | ok deployment => exact .stored nofun
      | error e => exact .rejected
    | addProxyRecord => exact .addProxyRecord
    | proxyRecord => exact .proxyRecord
    | engineStart => exact .started fun _ => rfl
    | entry access contract =>
      cases access with
      | transactionHash =>
        show RecordStep c.state (.entry .transactionHash contract) situation.slot c.state
        cases situation.slot with
        | ok hash => exact .elsewhere rfl nofun
        | error e => exact .rejected
      | _ => exact .rejected
    | readProxySlots | readBeaconImplementation | getCode | deriveValidationInput
    | resolveArtifact | artifactRecord | attach => exact .elsewhere rfl nofun
    | _ => exact .rejected
  · cases op with
    | entry access contract =>
      cases access with
      | transactionHash => exact fun _ => rfl
      | _ => trivial
    | readProxySlots | readBeaconImplementation | getCode => rfl
    | _ => trivial

/-- The implementation was created by `0xe1`; on record it is `0xd1`. -/
theorem proxy_hash_stored :
    ¬ ∀ y c, Script.Reaches (proxiedBox.world sampleContract)
        (runForceImport ⟨productionToolkit sampleEnvironment, sampleOptions⟩
          "0x0000000000000000000000000000000000000022" sampleContract, ⟨emptyManifest, []⟩) (y, c) →
      ConfirmedOnly sampleEnvironment proxiedBox sampleOptions sampleContract
        (fun hash _ => hash = "0xe1") emptyManifest
        "0x0000000000000000000000000000000000000022" c := by
  intro hall
  have hc := hall _ _ (reaches_run (adoptionHost_allowed proxiedBox) _ _)
  rcases hc.hashes "0x6001"
    ⟨"0x0000000000000000000000000000000000000011", some "0xd1", "0x6001", none⟩ "0xd1" rfl rfl with
    ⟨before, hbefore, -⟩ | hdeployed
  · cases hbefore
  · exact absurd hdeployed (by decide)

theorem proxiedBox_confirmed_iff :
    (∀ y c, Script.Reaches (proxiedBox.world sampleContract)
        (runForceImport ⟨productionToolkit sampleEnvironment, sampleOptions⟩
          "0x0000000000000000000000000000000000000022" sampleContract, ⟨emptyManifest, []⟩) (y, c) →
      ConfirmedOnly sampleEnvironment proxiedBox sampleOptions sampleContract
        (fun hash _ => hash = "0xe1") emptyManifest
        "0x0000000000000000000000000000000000000022" c) ↔
    ∀ op next c, Script.Reaches (proxiedBox.world sampleContract)
        (runForceImport ⟨productionToolkit sampleEnvironment, sampleOptions⟩
          "0x0000000000000000000000000000000000000022" sampleContract, ⟨emptyManifest, []⟩)
        (.call op next, c) →
      Storable sampleEnvironment proxiedBox (fun hash _ => hash = "0xe1") emptyManifest
        "0x0000000000000000000000000000000000000022" c op :=
  adoption_confirmed_iff (by rintro _ ⟨⟩; rfl)

end TronUpgrades.Adoption
