import TronUpgrades.Hardhat.Manifest

/-!
# The registered layout

Runs of the Hardhat operations over one manifest. `registered_layouts`: what
was recorded stays findable by address and an operation leaves the entries of
other versions alone; after `forceImport` the implementation's layout is the one
kept under the contract's own version, unless an entry of another version holds
the address too. `record_not_kept` runs into each of the exceptions.
-/

namespace TronUpgrades.Hardhat

open Effects Tronbox Keyed

section
variable {E : Engine}

-- ---------------------------------------------------------------------------
-- Operations on a manifest
-- ---------------------------------------------------------------------------

/-- The two halves of the engine's `fetchOrDeployGetDeployment`. -/
def Op.isEngine : Op E → Bool
  | .engineStart _ _ | .engineSettle _ _ _ => true
  | _ => false

/-- The version whose entry the operation may write. -/
def Op.version? : Op E → Option E.Version
  | .engineStart version _ | .engineSettle version _ _ | .recordImpl version _ _ => some version
  | _ => none

def Op.onManifest : Op E → Bool
  | .getManifest | .proxyRecordOf _ | .layoutForAddress _ | .addProxyToManifest _ _ => true
  | op => op.version?.isSome

def Op.concerns (op : Op E) (key : String) : Bool :=
  op.version?.any fun version => E.linkedWithoutMetadata version == key

/-- The engine says that it has removed the entry. -/
def removes (key : String) (event : Event (effects E) Failure) : Bool :=
  event.op.isEngine && event.op.concerns key && match event.reply with
    | .error error => error.isRemoved
    | .ok _ => false

/-- How the engine leaves a manifest, for what it is asked and answers. -/
abbrev EngineWrites (E : Engine) :=
  Manifest E → (op : Op E) → Except Failure op.Reply → Manifest E → Prop

/-- It works on the entry of the version it is asked for: a deployment is set
or merged there, and only an invalid one is removed. -/
structure EngineLaws (engine : EngineWrites E) : Prop where
  others : ∀ {m op r m' key}, engine m op r m' → op.concerns key = false →
    m'.impl? key = m.impl? key
  own : ∀ {m op r m' key entry}, engine m op r m' → removes key ⟨op, r⟩ = false →
    m.impl? key = some entry →
      ∃ entry', m'.impl? key = some entry' ∧ entry'.layout = entry.layout ∧
        ∀ a, entry.covers a = true → entry'.covers a = true

variable (getAddress : String → String) (engine : EngineWrites E)

inductive ManifestStep : Manifest E → (op : Op E) → Except Failure op.Reply → Manifest E → Prop
  | rejected {m op e} : op.isEngine = false → ManifestStep m op (.error e) m
  | getManifest {m} : ManifestStep m .getManifest (.ok ()) (m.canonicalized getAddress)
  | proxyRecordOf {m address} :
      ManifestStep m (.proxyRecordOf address) (.ok ((m.proxyRecordOf address).map (·.kind))) m
  | layoutForAddress {m address layout} : m.layoutForAddress address = some layout →
      ManifestStep m (.layoutForAddress address) (.ok layout) m
  | addProxyToManifest {m kind address proxies} :
      ManifestStep m (.addProxyToManifest kind address) (.ok ()) { m with proxies }
  | recordImpl {m version layout address} : ManifestStep m (.recordImpl version layout address)
      (.ok ()) (m.recordImpl version layout address none)
  | engine {m op r m'} : op.isEngine = true → engine m op r m' → ManifestStep m op r m'
  | elsewhere {m op a} : op.onManifest = false → ManifestStep m op (.ok a) m

/-- A manifest, and everything that was asked and answered. -/
abbrev Ledger (E : Engine) := Manifest E × History (effects E) Failure

def manifestWorld : World (effects E) Failure (Ledger E) where
  step c op r c' := ManifestStep getAddress engine c.1 op r c'.1 ∧ c'.2 = ⟨op, r⟩ :: c.2

/-- The operations that touch a manifest. -/
inductive ManifestCall (E : Engine)
  | operation (call : Call E)
  | deployImplementation (contractName : String) (opts : Options E)
  | forceImport (addressOrInstance contractName : String) (opts : Options E)

def ManifestCall.script : ManifestCall E → HardhatTask E Unit
  | .operation call => do
    let _ ← call.script
  | .deployImplementation contractName opts => do
    let _ ← Hardhat.deployImplementation contractName opts
  | .forceImport addressOrInstance contractName opts =>
    Hardhat.forceImport addressOrInstance contractName opts

/-- One call after the other; one that fails does not end the run. -/
def runAll : List (ManifestCall E) → HardhatTask E Unit
  | [] => return ()
  | call :: calls => do
    let _ ← call.script.attempt
    runAll calls

-- ---------------------------------------------------------------------------
-- What every operation keeps
-- ---------------------------------------------------------------------------

variable {getAddress engine}
variable {m m' m'' : Manifest E} {since since' : History (effects E) Failure}

/-- An entry, and what has become of it since. -/
structure EntryKept (getAddress : String → String) (since : History (effects E) Failure)
    (key : String) (entry entry' : ImplEntry E) : Prop where
  layout : entry'.layout = entry.layout
  addresses : ∀ a, entry.covers a = true →
    entry'.covers a = true ∨ entry'.covers (canon getAddress a) = true
  untouched : (∀ event ∈ since, event.op.concerns key = false) →
    entry' = entry ∨ entry' = entry.canonicalized getAddress

def Kept (getAddress : String → String) (since : History (effects E) Failure)
    (m m' : Manifest E) : Prop :=
  ∀ key entry, m.impl? key = some entry → (∀ event ∈ since, removes key event = false) →
    ∃ entry', m'.impl? key = some entry' ∧ EntryKept getAddress since key entry entry'

theorem EntryKept.refl (key : String) (entry : ImplEntry E) :
    EntryKept getAddress since key entry entry :=
  ⟨rfl, fun _ ha => .inl ha, fun _ => .inl rfl⟩

theorem Kept.of_same (h : ∀ key, m'.impl? key = m.impl? key) : Kept getAddress since m m' :=
  fun key entry hentry _ => ⟨entry, (h key).trans hentry, .refl key entry⟩

theorem Kept.trans (hg : Checksum getAddress) (h : Kept getAddress since m m')
    (h' : Kept getAddress since' m' m'') : Kept getAddress (since' ++ since) m m'' := by
  intro key entry hentry hremoves
  obtain ⟨entry', hentry', hlayout, haddresses, huntouched⟩ := h key entry hentry
    fun event hevent => hremoves event (List.mem_append_right _ hevent)
  obtain ⟨entry'', hentry'', hlayout', haddresses', huntouched'⟩ := h' key entry' hentry'
    fun event hevent => hremoves event (List.mem_append_left _ hevent)
  refine ⟨entry'', hentry'', hlayout'.trans hlayout, fun a ha => ?_, fun hconcerns => ?_⟩
  · rcases haddresses a ha with ha | ha
    · exact haddresses' a ha
    · have hagain := haddresses' _ ha
      rw [canon_canon hg, or_self] at hagain
      exact .inr hagain
  · have hfirst := huntouched fun event hevent => hconcerns event (List.mem_append_right _ hevent)
    have hthen := huntouched' fun event hevent => hconcerns event (List.mem_append_left _ hevent)
    rcases hfirst with rfl | rfl
    · exact hthen
    · rw [canonicalized_canonicalized hg, or_self] at hthen
      exact .inr hthen

theorem Kept.canonicalized : Kept getAddress since m (m.canonicalized getAddress) := by
  intro key entry hentry _
  refine ⟨entry.canonicalized getAddress, ?_, rfl, fun a ha => .inr ?_, fun _ => .inr rfl⟩
  · rw [impl?_canonicalized, hentry]
    rfl
  · rw [ImplEntry.covers_iff] at ha ⊢
    rw [canonicalized_addresses]
    exact List.mem_map_of_mem ha

theorem Kept.recordImpl {version : E.Version} {layout : E.Layout} {address : String} :
    Kept getAddress [⟨.recordImpl version layout address, .ok ()⟩] m
      (m.recordImpl version layout address none) := by
  intro key entry hentry _
  by_cases hkey : key = E.linkedWithoutMetadata version
  · subst hkey
    refine ⟨_, impl?_recordImpl_self, ?_, fun a ha => .inl ?_, fun hconcerns => ?_⟩
    · rw [hentry]
      rfl
    · rw [hentry]
      exact mergedEntry_keeps ha
    · have hconcerned := hconcerns _ List.mem_cons_self
      simp [Op.concerns, Op.version?] at hconcerned
  · exact ⟨entry, (impl?_recordImpl_of_ne hkey).trans hentry, .refl key entry⟩

/-- What one operation keeps. -/
theorem ManifestStep.kept (laws : EngineLaws engine) {op : Op E} {r : Except Failure op.Reply}
    (h : ManifestStep getAddress engine m op r m') : Kept getAddress [⟨op, r⟩] m m' := by
  cases h with
  | getManifest => exact .canonicalized
  | recordImpl => exact .recordImpl
  | engine _ hengine =>
    intro key entry hentry hremoves
    cases hconcerns : op.concerns key with
    | false => exact ⟨entry, (laws.others hengine hconcerns).trans hentry, .refl key entry⟩
    | true =>
      obtain ⟨entry', hentry', hlayout, haddresses⟩ :=
        laws.own hengine (hremoves _ List.mem_cons_self) hentry
      refine ⟨entry', hentry', hlayout, fun a ha => .inl (haddresses a ha), fun hnot => ?_⟩
      rw [hnot _ List.mem_cons_self] at hconcerns
      cases hconcerns
  | _ => exact .of_same fun _ => rfl

/-- What a run keeps, from any of its states to any later one. -/
theorem reaches_kept (hg : Checksum getAddress) (laws : EngineLaws engine) {α : Type}
    {c c' : HardhatTask E α × Ledger E}
    (run : Script.Reaches (manifestWorld getAddress engine) c c') :
    ∃ since, c'.2.2 = since ++ c.2.2 ∧ Kept getAddress since c.2.1 c'.2.1 := by
  induction run with
  | refl => exact ⟨[], rfl, .of_same fun _ => rfl⟩
  | tail _ hstep ih =>
    obtain ⟨since, hsince, hkept⟩ := ih
    cases hstep with
    | @call s op r s' next hstep =>
      obtain ⟨hstep, hhistory⟩ := hstep
      refine ⟨⟨op, r⟩ :: since, ?_, hkept.trans hg (hstep.kept laws)⟩
      rw [hhistory, List.cons_append]
      exact congrArg _ hsince

-- ---------------------------------------------------------------------------
-- What an import registers
-- ---------------------------------------------------------------------------

variable {α β : Type} {x : HardhatTask E α} {f : α → HardhatTask E β} {contractName : String}
  {h h' : History (effects E) Failure}

/-- The script, where it returns, leaves a manifest and a history such that. -/
def Leaves (getAddress : String → String) (engine : EngineWrites E) (x : HardhatTask E α)
    (Q : α → Manifest E → History (effects E) Failure → Prop) (m : Manifest E)
    (h : History (effects E) Failure) : Prop :=
  wp (manifestWorld getAddress engine) (fun _ _ => True) x
    (fun o c => ∀ a, o = .ok a → Q a c.1 c.2) (m, h)

theorem Leaves.mono {Q R : α → Manifest E → History (effects E) Failure → Prop}
    (hx : Leaves getAddress engine x Q m h) (hQ : ∀ a m' h', Q a m' h' → R a m' h') :
    Leaves getAddress engine x R m h :=
  wp_mono (fun _ c hc a ha => hQ a c.1 c.2 (hc a ha)) hx

theorem Leaves.bind {Q : α → Manifest E → History (effects E) Failure → Prop}
    {R : β → Manifest E → History (effects E) Failure → Prop}
    (hx : Leaves getAddress engine x Q m h)
    (next : ∀ a m' h', Q a m' h' → Leaves getAddress engine (f a) R m' h') :
    Leaves getAddress engine (x.bind f) R m h :=
  wp.bind hx (fun a c hc => next a c.1 c.2 (hc a rfl)) fun _ _ _ => error_returns

theorem Leaves.ofExcept {r : Except Failure α}
    {R : β → Manifest E → History (effects E) Failure → Prop}
    (next : ∀ a, r = .ok a → Leaves getAddress engine (f a) R m h) :
    Leaves getAddress engine ((Script.ofExcept r).bind f) R m h :=
  wp.ofExcept_bind next fun _ _ => error_returns

/-- An operation that is not on the manifest leaves it as it is. -/
theorem Leaves.elsewhere {op : Op E} {f : op.Reply → HardhatTask E β}
    {R : β → Manifest E → History (effects E) Failure → Prop} (hop : op.onManifest = false)
    (next : ∀ a, Leaves getAddress engine (f a) R m (⟨op, .ok a⟩ :: h)) :
    Leaves getAddress engine ((ask op).bind f) R m h := by
  refine wp.perform_bind (S := effects E) trivial ?_ fun _ _ _ => error_returns
  rintro a ⟨m', h'⟩ ⟨hstep, rfl⟩
  cases hstep with
  | elsewhere => exact next a
  | engine hengine => cases op <;> cases hengine <;> cases hop
  | _ => cases hop

/-- The contract as it was compiled since, for one kind or another. -/
def CompiledAs (h h' : History (effects E) Failure) (contractName : String) (opts : Options E)
    (contract : UpgradeableContract E) : Prop :=
  ∃ artifact input, AnsweredSince (S := effects E) h h' (.readArtifact contractName) artifact ∧
    AnsweredSince (S := effects E) h h'
      (.validationInput (artifact.sourceName ++ ":" ++ artifact.contractName)) (some input) ∧
    upgradeableContract artifact input opts = .ok contract

theorem upgradeableContractFor_leaves {opts : Options E} :
    Leaves getAddress engine (upgradeableContractFor contractName opts)
      (fun contract m' h' => m' = m ∧ h <:+ h' ∧ CompiledAs h h' contractName opts contract) m h := by
  unfold upgradeableContractFor
  simp only [Script.bind_eq]
  refine .elsewhere rfl fun artifact => .elsewhere rfl fun input => ?_
  cases input with
  | none => exact .ofExcept nofun
  | some input =>
    refine wp_ofExcept.mpr fun contract hcontract => ⟨rfl, ?_, artifact, input, ?_, ?_, hcontract⟩
    · exact (List.suffix_cons ..).trans (List.suffix_cons ..)
    · exact (AnsweredSince.head List.suffix_rfl).later (List.suffix_cons ..)
    · exact .head (List.suffix_cons ..)

theorem validateImplementation_leaves {opts : Options E} :
    Leaves getAddress engine (validateImplementation contractName opts)
      (fun contract m' h' => m' = m ∧ h <:+ h' ∧ CompiledAs h h' contractName opts contract) m h := by
  refine upgradeableContractFor_leaves.bind ?_
  rintro contract _ h' ⟨rfl, hsuffix, hcompiled⟩
  refine .ofExcept fun _ _ => ?_
  rintro _ ⟨⟩
  exact ⟨rfl, hsuffix, hcompiled⟩

/-- What is at an address, by what the chain has answered since. -/
inductive ImplementationAt (h h' : History (effects E) Failure) (a : String) : String → Prop
  | proxy {impl} : AnsweredSince (S := effects E) h h' (.getImplementationAddressFromProxy a)
      (some impl) → ImplementationAt h h' a impl
  | beacon {impl} :
      AnsweredSince (S := effects E) h h' (.getImplementationAddressFromProxy a) none →
      AnsweredSince (S := effects E) h h' (.isBeacon a) true →
      AnsweredSince (S := effects E) h h' (.getImplementationAddressFromBeacon a) impl →
      ImplementationAt h h' a impl
  | bare : AnsweredSince (S := effects E) h h' (.getImplementationAddressFromProxy a) none →
      ImplementationAt h h' a a

/-- No entry of another version holds the address. -/
def HeldByNoOther (m : Manifest E) (key impl : String) : Prop :=
  ∀ key' entry, key' ≠ key → m.impl? key' = some entry → entry.covers impl = false

/-- An import of `impl` as the contract, from the manifest `m`. -/
def Registers (m m' : Manifest E) (contract : UpgradeableContract E) (impl : String) : Prop :=
  HeldByNoOther m (E.linkedWithoutMetadata contract.version) impl →
    m'.layoutForAddress impl =
      some (((m.impl? (E.linkedWithoutMetadata contract.version)).map (·.layout)).getD
        contract.layout)

theorem CompiledAs.widen {opts : Options E} {contract : UpgradeableContract E}
    {h₀ h₁ : History (effects E) Failure} (hc : CompiledAs h h' contractName opts contract)
    (hh : h₀ <:+ h) (hh' : h' <:+ h₁) : CompiledAs h₀ h₁ contractName opts contract := by
  obtain ⟨artifact, input, hartifact, hinput, hcompiled⟩ := hc
  exact ⟨artifact, input, (hartifact.earlier hh).later hh', (hinput.earlier hh).later hh', hcompiled⟩

theorem ImplementationAt.later {a impl : String} {h₁ : History (effects E) Failure}
    (hi : ImplementationAt h h' a impl) (hh' : h' <:+ h₁) : ImplementationAt h h₁ a impl := by
  cases hi with
  | proxy hproxy => exact .proxy (hproxy.later hh')
  | beacon hnone hbeacon himpl =>
    exact .beacon (hnone.later hh') (hbeacon.later hh') (himpl.later hh')
  | bare hnone => exact .bare (hnone.later hh')

theorem Registers.of_impls {contract : UpgradeableContract E} {impl : String}
    (himpls : m'.impls = (m.recordImpl contract.version contract.layout impl none).impls) :
    Registers m m' contract impl := by
  intro hother
  rw [Manifest.layoutForAddress, himpls]
  exact layoutForAddress_recordImpl hother

-- The operations on the manifest.

theorem getManifest_leaves : Leaves getAddress engine (ask .getManifest)
    (fun _ m' h' => m' = m.canonicalized getAddress ∧ h <:+ h') m h := by
  refine wp_perform.mpr ⟨trivial, ?_⟩
  rintro r ⟨m', h'⟩ ⟨hstep, rfl⟩ a rfl
  cases hstep with
  | getManifest => exact ⟨rfl, List.suffix_cons ..⟩
  | engine hengine => cases hengine
  | elsewhere hop => cases hop

theorem recordImpl_leaves {version : E.Version} {layout : E.Layout} {address : String} :
    Leaves getAddress engine (ask (.recordImpl version layout address))
      (fun _ m' h' => m' = m.recordImpl version layout address none ∧ h <:+ h') m h := by
  refine wp_perform.mpr ⟨trivial, ?_⟩
  rintro r ⟨m', h'⟩ ⟨hstep, rfl⟩ a rfl
  cases hstep with
  | recordImpl => exact ⟨rfl, List.suffix_cons ..⟩
  | engine hengine => cases hengine
  | elsewhere hop => cases hop

theorem addProxyToManifest_leaves {kind : ProxyKind} {address : String} :
    Leaves getAddress engine (ask (.addProxyToManifest kind address))
      (fun _ m' h' => m'.impls = m.impls ∧ h <:+ h') m h := by
  refine wp_perform.mpr ⟨trivial, ?_⟩
  rintro r ⟨m', h'⟩ ⟨hstep, rfl⟩ a rfl
  cases hstep with
  | addProxyToManifest => exact ⟨rfl, List.suffix_cons ..⟩
  | engine hengine => cases hengine
  | elsewhere hop => cases hop

theorem getContractAt_leaves {name address : String} :
    Leaves getAddress engine (ask (.getContractAt name address))
      (fun _ m' h' => m' = m ∧ h <:+ h') m h := by
  refine wp_perform.mpr ⟨trivial, ?_⟩
  rintro r ⟨m', h'⟩ ⟨hstep, rfl⟩ a rfl
  cases hstep with
  | engine hengine => cases hengine
  | elsewhere hop => exact ⟨rfl, List.suffix_cons ..⟩

theorem isBeaconContract_leaves {address : String} :
    Leaves getAddress engine (isBeaconContract address)
      (fun isBeacon m' h' => m' = m ∧ h <:+ h' ∧
        (isBeacon = true → AnsweredSince (S := effects E) h h' (.isBeacon address) true)) m h := by
  refine wp_catching.mpr (wp_perform.mpr ⟨trivial, ?_⟩)
  rintro (e | isBeacon) ⟨m', h'⟩ ⟨hstep, rfl⟩
  · have hm : m' = m := by
      cases hstep with
      | rejected => rfl
      | engine hengine => cases hengine
    subst hm
    dsimp only
    split
    · rintro _ ⟨⟩
      exact ⟨rfl, List.suffix_cons .., nofun⟩
    · exact nofun
  · rintro _ ⟨⟩
    cases hstep with
    | engine hengine => cases hengine
    | elsewhere =>
      refine ⟨rfl, List.suffix_cons .., ?_⟩
      rintro rfl
      exact .head List.suffix_rfl

/-- An import under the contract's name: the contract as compiled, registered
from the manifest that was there. -/
def ImportsAs (h h' : History (effects E) Failure) (m m' : Manifest E) (contractName : String)
    (opts : Options E) (impl : String) : Prop :=
  ∃ contract kind, CompiledAs h h' contractName { opts with kind } contract ∧
    Registers m m' contract impl

theorem ImportsAs.earlier {opts : Options E} {impl : String} {h₀ : History (effects E) Failure}
    (hi : ImportsAs h h' m m' contractName opts impl) (hh : h₀ <:+ h) :
    ImportsAs h₀ h' m m' contractName opts impl := by
  obtain ⟨contract, kind, hcompiled, hregisters⟩ := hi
  exact ⟨contract, kind, hcompiled.widen hh List.suffix_rfl, hregisters⟩

/-- The end of every import: the contract validated, recorded, and attached. -/
theorem importing_leaves {impl name address : String} {opts : Options E}
    {kind : Option ProxyKind} {h₀ : History (effects E) Failure} (hh₀ : h₀ <:+ h)
    (register : HardhatTask E Unit) (hregister : ∀ m h, Leaves getAddress engine register
      (fun _ m' h' => m'.impls = m.impls ∧ h <:+ h') m h) :
    Leaves getAddress engine
      ((validateImplementation contractName { opts with kind }).bind fun contract =>
        (ask (.recordImpl contract.version contract.layout impl)).bind fun _ =>
          register.bind fun _ => ask (.getContractAt name address))
      (fun _ m' h' => h₀ <:+ h' ∧ ImportsAs h₀ h' m m' contractName opts impl) m h := by
  refine validateImplementation_leaves.bind ?_
  rintro contract _ h₁ ⟨rfl, hh₁, hcompiled⟩
  refine recordImpl_leaves.bind ?_
  rintro _ _ h₂ ⟨rfl, hh₂⟩
  refine (hregister _ _).bind ?_
  rintro _ m₃ h₃ ⟨himpls, hh₃⟩
  refine wp_mono ?_ getContractAt_leaves
  rintro _ ⟨m₄, h₄⟩ hend _ rfl
  obtain ⟨rfl, hh₄⟩ := hend () rfl
  have hrest : h₁ <:+ h₄ := (hh₂.trans hh₃).trans hh₄
  exact ⟨hh₀.trans (hh₁.trans hrest), contract, kind, hcompiled.widen hh₀ hrest, .of_impls himpls⟩

/-- The kind is the option's, or what the proxy and the draft show. -/
theorem importKind_leaves {address : String} {opts : Options E} (draft : UpgradeableContract E) :
    Leaves getAddress engine (match opts.kind with
      | some kind => .pure kind
      | none => (ask (.isBeaconProxy address)).bind fun isBeaconProxy =>
        if isBeaconProxy = true then .pure .beacon
        else .ofExcept (foreignError (E.inferProxyKind draft.validations draft.version)))
      (fun _ m' h' => m' = m ∧ h <:+ h') m h := by
  split
  · rintro _ ⟨⟩
    exact ⟨rfl, List.suffix_rfl⟩
  · refine .elsewhere rfl fun isBeaconProxy => ?_
    split
    · rintro _ ⟨⟩
      exact ⟨rfl, List.suffix_cons ..⟩
    · exact wp_ofExcept.mpr fun _ _ => ⟨rfl, List.suffix_cons ..⟩

theorem importProxy_leaves {address impl : String} {opts : Options E} :
    Leaves getAddress engine (importProxy address impl contractName opts)
      (fun _ m' h' => h <:+ h' ∧ ImportsAs h h' m m' contractName opts impl) m h := by
  unfold importProxy
  simp only [Script.bind_eq]
  refine upgradeableContractFor_leaves.bind ?_
  rintro draft _ h₁ ⟨rfl, hh₁, -⟩
  refine (importKind_leaves draft).bind ?_
  rintro kind _ h₂ ⟨rfl, hh₂⟩
  have hh : h <:+ h₂ := hh₁.trans hh₂
  split
  · refine .elsewhere rfl fun word => .ofExcept fun _ _ => ?_
    exact importing_leaves (hh.trans (List.suffix_cons ..)) _ fun m h => addProxyToManifest_leaves
  · exact importing_leaves hh _ fun m h => addProxyToManifest_leaves

/-- An import of an address: what is there becomes registered. -/
def Imported (h h' : History (effects E) Failure) (m m' : Manifest E)
    (addressOrInstance contractName : String) (opts : Options E) : Prop :=
  ∃ address impl,
    AnsweredSince (S := effects E) h h' (.resolveAddress addressOrInstance) address ∧
    ImplementationAt h h' address impl ∧ ImportsAs h h' m m' contractName opts impl

theorem Leaves.imported {addressOrInstance address impl : String} {opts : Options E}
    {h₁ : History (effects E) Failure} (hh : h <:+ h₁)
    (hresolved : AnsweredSince (S := effects E) h h₁ (.resolveAddress addressOrInstance) address)
    (hat : ImplementationAt h h₁ address impl) {x : HardhatTask E Unit}
    (himport : Leaves getAddress engine x (fun _ m' h' => h₁ <:+ h' ∧
      ImportsAs h₁ h' m m' contractName opts impl) m h₁) :
    Leaves getAddress engine x
      (fun _ m' h' => Imported h h' m m' addressOrInstance contractName opts) m h₁ := by
  refine himport.mono ?_
  rintro _ m' h' ⟨hh', himports⟩
  exact ⟨address, impl, hresolved.later hh', hat.later hh', himports.earlier hh⟩

/-- The addresses respelled first, then one import for what the chain shows. -/
theorem forceImport_leaves {addressOrInstance : String} {opts : Options E} :
    Leaves getAddress engine (forceImport addressOrInstance contractName opts)
      (fun _ m' h' => Imported h h' (m.canonicalized getAddress) m' addressOrInstance
        contractName opts) m h := by
  unfold forceImport
  simp only [Script.bind_eq]
  refine getManifest_leaves.bind ?_
  rintro _ _ h₁ ⟨rfl, hh₁⟩
  refine .elsewhere rfl fun address => .elsewhere rfl fun hasCode => .ofExcept fun _ _ => ?_
  refine .elsewhere rfl fun implAddress => ?_
  have hresolved : AnsweredSince (S := effects E) h
      (⟨.resolveAddress addressOrInstance, .ok address⟩ :: h₁)
      (.resolveAddress addressOrInstance) address := .head hh₁
  have hasked : h <:+ ⟨.hasCode address, .ok hasCode⟩ ::
      ⟨.resolveAddress addressOrInstance, .ok address⟩ :: h₁ :=
    (hh₁.trans (List.suffix_cons ..)).trans (List.suffix_cons ..)
  have hread := hasked.trans
    (List.suffix_cons (⟨.getImplementationAddressFromProxy address, .ok implAddress⟩) _)
  cases implAddress with
  | some impl =>
    refine .imported hread ?_ (.proxy (.head hasked)) importProxy_leaves
    exact (hresolved.later (List.suffix_cons ..)).later (List.suffix_cons ..)
  | none =>
    have hnone : AnsweredSince (S := effects E) h (⟨.getImplementationAddressFromProxy address,
        .ok none⟩ :: ⟨.hasCode address, .ok hasCode⟩ ::
          ⟨.resolveAddress addressOrInstance, .ok address⟩ :: h₁)
        (.getImplementationAddressFromProxy address) none := .head hasked
    refine isBeaconContract_leaves.bind ?_
    rintro isBeacon _ h₂ ⟨rfl, hh₂, hbeacon⟩
    have unregistered (m : Manifest E) (h : History (effects E) Failure) :
        Leaves getAddress engine (.pure ()) (fun _ m' h' => m'.impls = m.impls ∧ h <:+ h') m h := by
      rintro _ ⟨⟩
      exact ⟨rfl, List.suffix_rfl⟩
    have hresolved' := (hresolved.later (List.suffix_cons ..)).later
      ((List.suffix_cons ..).trans hh₂)
    split
    · rename_i hisBeacon
      refine .elsewhere rfl fun impl => ?_
      refine .imported (hread.trans (hh₂.trans (List.suffix_cons ..))) (hresolved'.later
        (List.suffix_cons ..)) (.beacon ?_ ?_ (.head (hread.trans hh₂))) ?_
      · exact hnone.later (hh₂.trans (List.suffix_cons ..))
      · exact ((hbeacon hisBeacon).earlier hread).later (List.suffix_cons ..)
      · exact importing_leaves List.suffix_rfl _ unregistered
    · refine .imported (hread.trans hh₂) hresolved' (.bare (hnone.later hh₂)) ?_
      exact importing_leaves List.suffix_rfl _ unregistered

-- ---------------------------------------------------------------------------
-- The record over whole runs
-- ---------------------------------------------------------------------------

/-- What is left of an earlier manifest. An address stays findable, under its
own spelling or the checksummed one. -/
structure RecordKept (getAddress : String → String) (since : History (effects E) Failure)
    (m m' : Manifest E) : Prop where
  findable : ∀ key entry a, m.impl? key = some entry → entry.covers a = true →
    (∀ event ∈ since, removes key event = false) →
      (m'.layoutForAddress a).isSome = true ∨
        (m'.layoutForAddress (canon getAddress a)).isSome = true
  others : ∀ key entry, m.impl? key = some entry →
    (∀ event ∈ since, event.op.concerns key = false) →
      m'.impl? key = some entry ∨ m'.impl? key = some (entry.canonicalized getAddress)

theorem Kept.recordKept (h : Kept getAddress since m m') : RecordKept getAddress since m m' := by
  constructor
  · intro key entry a hentry ha hremoves
    obtain ⟨entry', hentry', hkept⟩ := h key entry hentry hremoves
    exact (hkept.addresses a ha).imp (layoutForAddress_isSome hentry')
      (layoutForAddress_isSome hentry')
  · intro key entry hentry hconcerns
    have hremoves (event) (hevent : event ∈ since) : removes key event = false := by
      simp [removes, hconcerns event hevent]
    obtain ⟨entry', hentry', hkept⟩ := h key entry hentry hremoves
    rw [hentry']
    exact (hkept.untouched hconcerns).imp (congrArg some) (congrArg some)

/-- From any state of a run to any later one. -/
def RunsKeepRecord (getAddress : String → String) (engine : EngineWrites E)
    (calls : List (ManifestCall E)) (start : Manifest E) : Prop :=
  ∀ c c', Script.Reaches (manifestWorld getAddress engine) (runAll calls, (start, [])) c →
    Script.Reaches (manifestWorld getAddress engine) c c' →
      ∃ since, c'.2.2 = since ++ c.2.2 ∧ RecordKept getAddress since c.2.1 c'.2.1

/-- Whatever was recorded before, by whatever operations. -/
def ImportsRegister (getAddress : String → String) (engine : EngineWrites E) : Prop :=
  ∀ addressOrInstance contractName opts m h m' h',
    Script.Reaches (manifestWorld getAddress engine)
      (forceImport addressOrInstance contractName opts, (m, h)) (.pure (), (m', h')) →
    Imported h h' (m.canonicalized getAddress) m' addressOrInstance contractName opts

/-- Runs keep what was recorded, and an import registers the layout that is
kept under its contract's version. -/
theorem registered_layouts (hg : Checksum getAddress) (laws : EngineLaws engine)
    (calls : List (ManifestCall E)) (start : Manifest E) :
    RunsKeepRecord getAddress engine calls start ∧ ImportsRegister getAddress engine := by
  constructor
  · intro c c' _ run
    obtain ⟨since, hsince, hkept⟩ := reaches_kept hg laws run
    exact ⟨since, hsince, hkept.recordKept⟩
  · intro addressOrInstance contractName opts m h m' h' run
    exact forceImport_leaves.returns run () rfl

end

-- ---------------------------------------------------------------------------
-- Layouts that are not the contract's own
-- ---------------------------------------------------------------------------

/-- An engine that records what was deployed and drops what is invalid. -/
inductive RecordsAndDrops {E : Engine} :
    Manifest E → (op : Op E) → Except Failure op.Reply → Manifest E → Prop
  | keeps {m op r} : RecordsAndDrops m op r m
  | records {m version layout callback deployed} : RecordsAndDrops m
      (.engineSettle version layout callback) (.ok deployed)
      (m.recordImpl version layout deployed.address deployed.txHash)
  | drops {m version redeploy error} : error.isRemoved = true → RecordsAndDrops m
      (.engineStart version redeploy) (.error error)
      { m with impls := m.impls.erase (E.linkedWithoutMetadata version) }

theorem recordsAndDrops_laws {E : Engine} : EngineLaws (RecordsAndDrops (E := E)) := by
  constructor
  · intro m op r m' key h hconcerns
    cases h with
    | keeps => rfl
    | @records version =>
      have hkey : E.linkedWithoutMetadata version ≠ key := by
        simpa [Op.concerns, Op.version?] using hconcerns
      exact impl?_recordImpl_of_ne hkey.symm
    | @drops version =>
      have hkey : E.linkedWithoutMetadata version ≠ key := by
        simpa [Op.concerns, Op.version?] using hconcerns
      exact OrderedMap.get?_erase_of_ne _ hkey.symm
  · intro m op r m' key entry h hremoves hentry
    cases h with
    | keeps => exact ⟨entry, hentry, rfl, fun _ ha => ha⟩
    | @records version =>
      by_cases hkey : key = E.linkedWithoutMetadata version
      · subst hkey
        refine ⟨_, impl?_recordImpl_self, ?_, fun a ha => ?_⟩
        · rw [hentry]
          rfl
        · rw [hentry]
          exact mergedEntry_keeps ha
      · exact ⟨entry, (impl?_recordImpl_of_ne hkey).trans hentry, rfl, fun _ ha => ha⟩
    | @drops version redeploy error hremoved =>
      have hkey : E.linkedWithoutMetadata version ≠ key := by
        simpa [removes, Op.isEngine, Op.concerns, Op.version?, hremoved] using hremoves
      exact ⟨entry, (OrderedMap.get?_erase_of_ne _ hkey.symm).trans hentry, rfl, fun _ ha => ha⟩

/-- Candidates are known by their names, which are their layouts too. -/
def labelledEngine : Engine :=
  { sampleEngine with
    ValidationInput := String
    Validations := String
    validate := .ok
    getUnlinkedBytecode := fun _ bytecode => .ok bytecode
    inferProxyKind := fun _ _ => .ok .uups
    getErrors := fun _ _ _ _ => .ok []
    getStorageLayout := fun label _ => .ok label }

def labelledOptions : Options labelledEngine where
  kind := none
  unsafeSkipStorageCheck := false
  constructorArgs := []
  redeployImplementation := none
  useDeployedImplementation := false
  txOverrides := []
  getTxResponse := false
  owner := none
  call := .omitted
  engineOptions := false

/-- Renaming a variable changes the layout and not the code. -/
def labelledArtifact (contractName : String) : Artifact labelledEngine where
  sourceName := "contracts"
  contractName
  abi := ()
  bytecode := if contractName = "Token" then "0x6002" else "0x6001"

def blank : Manifest labelledEngine := ⟨.empty, [], none⟩

def spelt : String := "0xa1a1a1a1a1a1a1a1a1a1a1a1a1a1a1a1a1a1a1a1"

def respelt : String := "0xA1A1A1A1A1A1A1A1A1A1A1A1A1A1A1A1A1A1A1A1"

def checksummed (address : String) : String := if address = spelt then respelt else address

theorem checksummed_checksum : Checksum checksummed := by
  constructor
  · intro address haddress
    unfold checksummed
    split
    · decide
    · exact haddress
  · intro address _
    by_cases h : address = spelt
    · subst h
      decide
    · simp [checksummed, h]

/-- A proxy in front of one implementation, for every name the same chain. -/
def importReply (m : Manifest labelledEngine) :
    (op : Op labelledEngine) → Except Failure op.Reply × Manifest labelledEngine
  | .getManifest => (.ok (), m.canonicalized checksummed)
  | .resolveAddress reference => (.ok reference, m)
  | .hasCode _ => (.ok true, m)
  | .getImplementationAddressFromProxy _ => (.ok (some "impl"), m)
  | .isBeaconProxy _ => (.ok false, m)
  | .readArtifact contractName => (.ok (labelledArtifact contractName), m)
  | .validationInput fullyQualifiedName => (.ok (some fullyQualifiedName), m)
  | .recordImpl version layout address => (.ok (), m.recordImpl version layout address none)
  | .addProxyToManifest kind address => (.ok (), { m with proxies := ⟨address, kind⟩ :: m.proxies })
  | .getContractAt _ _ => (.ok (), m)
  | .engineStart version _ => (.error (.foreign { message := "invalid deployment", removed := true }),
    { m with impls := m.impls.erase version })
  | _ => (.error (.error "not asked for"), m)

def importHost (c : Ledger labelledEngine) (op : Op labelledEngine) :
    Except Failure op.Reply × Ledger labelledEngine :=
  ((importReply c.1 op).1, (importReply c.1 op).2, ⟨op, (importReply c.1 op).1⟩ :: c.2)

theorem importHost_allowed : (manifestWorld checksummed RecordsAndDrops).Allows importHost := by
  rintro ⟨m, h⟩ op
  refine ⟨?_, rfl⟩
  cases op with
  | getManifest => exact .getManifest
  | recordImpl => exact .recordImpl
  | addProxyToManifest => exact .addProxyToManifest
  | engineStart => exact .engine rfl (.drops rfl)
  | engineSettle => exact .engine rfl .keeps
  | _ => first | exact .elsewhere rfl | exact .rejected rfl

/-- The ledger that the import of the proxy under the name leaves. -/
def imported (contractName : String) (c : Ledger labelledEngine) : Ledger labelledEngine :=
  ((forceImport "proxy" contractName labelledOptions).run importHost c).2

theorem imported_reached (contractName : String) (c : Ledger labelledEngine) :
    Script.Reaches (manifestWorld checksummed RecordsAndDrops)
      (forceImport "proxy" contractName labelledOptions, c) (.pure (), imported contractName c) :=
  reaches_run importHost_allowed (forceImport "proxy" contractName labelledOptions) c

def labelledContract (contractName : String) : UpgradeableContract labelledEngine where
  artifact := labelledArtifact contractName
  validations := "contracts" ++ ":" ++ contractName
  version := (labelledArtifact contractName).bytecode ++ ""
  layout := "contracts" ++ ":" ++ contractName
  errors := []

theorem imported_compiled (contractName : String) (c : Ledger labelledEngine) :
    CompiledAs c.2 (imported contractName c).2 contractName
      { labelledOptions with kind := some .uups } (labelledContract contractName) := by
  have hartifact : AnsweredSince (S := effects labelledEngine) c.2 (imported contractName c).2
      (.readArtifact contractName) (labelledArtifact contractName) :=
    ⟨(imported contractName c).2.drop 5, ⟨((imported contractName c).2.drop 5).take 7, rfl⟩,
      ⟨(imported contractName c).2.take 4, rfl⟩⟩
  have hinput : AnsweredSince (S := effects labelledEngine) c.2 (imported contractName c).2
      (.validationInput ("contracts" ++ ":" ++ contractName))
      (some ("contracts" ++ ":" ++ contractName)) :=
    ⟨(imported contractName c).2.drop 4, ⟨((imported contractName c).2.drop 4).take 8, rfl⟩,
      ⟨(imported contractName c).2.take 3, rfl⟩⟩
  exact ⟨_, _, hartifact, hinput, rfl⟩

/-- An import of the contract finds another layout registered. -/
def FindsAnother (contractName : String) (c : Ledger labelledEngine) : Prop :=
  ∃ c' contract kind, Script.Reaches (manifestWorld checksummed RecordsAndDrops)
      (forceImport "proxy" contractName labelledOptions, c) (.pure (), c') ∧
    CompiledAs c.2 c'.2 contractName { labelledOptions with kind } contract ∧
    c'.1.layoutForAddress "impl" ≠ some contract.layout

def recordedSpelt : Manifest labelledEngine := blank.recordImpl "0x6001" "contracts:Box" spelt none

/-- A variable renamed, a wrong contract corrected, an invalid deployment
dropped, an address respelled. -/
theorem record_not_kept :
    FindsAnother "BoxRenamed" (imported "Box" (blank, [])) ∧
    FindsAnother "Box" (imported "Token" (blank, [])) ∧
    (∃ x c, Script.Reaches (manifestWorld checksummed RecordsAndDrops)
        (deployImplementation "Box" labelledOptions, imported "Box" (blank, [])) (x, c) ∧
      ((imported "Box" (blank, [])).1.layoutForAddress "impl").isSome = true ∧
      c.1.layoutForAddress "impl" = none) ∧
    (imported "Token" (recordedSpelt, [])).1.impl? "0x6001" ≠ recordedSpelt.impl? "0x6001" := by
  refine ⟨?_, ?_, ?_, ?_⟩
  · refine ⟨_, _, _, imported_reached "BoxRenamed" _, imported_compiled "BoxRenamed" _, ?_⟩
    have hfound : (imported "BoxRenamed" (imported "Box" (blank, []))).1.layoutForAddress "impl" =
      some "contracts:Box" := rfl
    have hne : (some "contracts:Box" : Option String) ≠ some "contracts:BoxRenamed" := by decide
    rw [hfound]
    exact hne
  · refine ⟨_, _, _, imported_reached "Box" _, imported_compiled "Box" _, ?_⟩
    have hfound : (imported "Box" (imported "Token" (blank, []))).1.layoutForAddress "impl" =
      some "contracts:Token" := rfl
    have hne : (some "contracts:Token" : Option String) ≠ some "contracts:Box" := by decide
    rw [hfound]
    exact hne
  · exact ⟨_, _, reaches_run importHost_allowed (deployImplementation "Box" labelledOptions) _,
      rfl, rfl⟩
  · intro hsame
    have haddress : (some respelt : Option String) = some spelt :=
      congrArg (Option.map ImplEntry.address) hsame
    revert haddress
    decide

theorem registered_layouts_import :
    RunsKeepRecord checksummed RecordsAndDrops [.forceImport "proxy" "Box" labelledOptions] blank ∧
      ImportsRegister (E := labelledEngine) checksummed RecordsAndDrops :=
  registered_layouts checksummed_checksum recordsAndDrops_laws
    [.forceImport "proxy" "Box" labelledOptions] blank

end TronUpgrades.Hardhat
