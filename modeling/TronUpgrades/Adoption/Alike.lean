import TronUpgrades.Adoption.Confirmed
import TronUpgrades.Hardhat.Deployments
import TronUpgrades.Hardhat.Refusal

/-!
# The two plugins' adoptions

`forceImport` of both plugins, of one proxy and from one manifest. The TronBox
plugin records what the slots show, and a beacon proxy not at all; the Hardhat
plugin records the kind it is given or infers. `adopted_kinds` says when that
comes to the same.
-/

namespace TronUpgrades.Adoption

open Effects Tronbox Address
open Hardhat (Manifest Op Options Artifact)

-- ---------------------------------------------------------------------------
-- A proxy by its slots
-- ---------------------------------------------------------------------------

def slotsKind : ProxySlotsRead → Option ProxyKind
  | .noCode | .code none _ none => none
  | .code _ _ (some _) => some .beacon
  | .code (some _) admin none => some (if admin.isSome then .transparent else .uups)

/-- Where the proxy's implementation slot, or its beacon, points. -/
def Situation.target (situation : Situation) (address : String) : Option String :=
  match situation.slots address with
  | .noCode => none
  | .code _ _ (some beacon) =>
    match situation.beacon beacon with
    | .implementation implementation => some implementation
    | _ => none
  | .code implementation _ none => implementation

theorem found_of_slotsKind {situation : Situation} {address implementation : String}
    {kind : ProxyKind} {found : AdoptedKind}
    (hkind : slotsKind (situation.slots address) = some kind)
    (hfound : situation.found address = some (found, implementation)) :
    found = .proxy kind ∧ situation.target address = some implementation := by
  unfold Situation.found at hfound
  unfold Situation.target
  rcases hslots : situation.slots address with _ | ⟨_ | target, admin, _ | beacon⟩ <;>
    simp only [hslots, slotsKind, Option.some.injEq, reduceCtorEq] at hkind hfound ⊢
  · cases hbeacon : situation.beacon beacon with
    | implementation target =>
      rw [hbeacon] at hfound
      cases hfound
      exact ⟨congrArg _ hkind, rfl⟩
    | _ =>
      rw [hbeacon] at hfound
      cases hfound
  · cases hfound
    refine ⟨?_, rfl⟩
    rw [← hkind]
    cases admin <;> rfl
  · cases hbeacon : situation.beacon beacon with
    | implementation target =>
      rw [hbeacon] at hfound
      cases hfound
      exact ⟨congrArg _ hkind, rfl⟩
    | _ =>
      rw [hbeacon] at hfound
      cases hfound

section
variable {E : Engine}

-- ---------------------------------------------------------------------------
-- The Hardhat plugin's side
-- ---------------------------------------------------------------------------

/-- What Hardhat's project answers for the contract's name. -/
structure Candidate (E : Engine) where
  artifact : Artifact E
  input : E.ValidationInput

/-- What `forceImport` does to the manifest; what the engine's own deployments
do is not asked for. -/
def importStep (getAddress : String → String) (m : Manifest E) :
    (op : Op E) → Except Failure op.Reply → Manifest E → Prop
  | .engineStart _ _, _, _ | .engineSettle _ _ _, _, _ => True
  | .getManifest, .ok _, m' => m' = m.canonicalized getAddress
  | .recordImpl version layout address, .ok _, m' => m' = m.recordImpl version layout address none
  | .addProxyToManifest kind address, .ok _, m' => m' = m.addProxy kind address
  | _, .ok _, m' => m' = m
  | _, .error _, _ => True

/-- The engine's readers agree with the slots, in canonical spelling. -/
def Situation.Shows (situation : Situation) (codec : AddressCodec) (address : String)
    (candidate : Candidate E) : Event (Hardhat.effects E) Failure → Prop
  | ⟨.resolveAddress _, .ok a⟩ => a = address
  | ⟨.readArtifact _, .ok artifact⟩ => artifact = candidate.artifact
  | ⟨.validationInput _, .ok input⟩ => input = some candidate.input
  | ⟨.isBeaconProxy a, .ok answer⟩ =>
    answer = decide (slotsKind (situation.slots a) = some .beacon)
  | ⟨.getImplementationAddressFromProxy a, .ok implementation⟩ =>
    implementation = (situation.target a).bind fun target =>
      (canonicalizeAddress codec target).toOption
  | _ => True

abbrev importWorld (situation : Situation) (codec : AddressCodec) (getAddress : String → String)
    (address : String) (candidate : Candidate E) :
    World (Hardhat.effects E) Failure (Tracked (Manifest E) (Hardhat.effects E) Failure) :=
  .tracking (importStep getAddress) (situation.Shows codec address candidate)

/-- The kind that the Hardhat plugin records: the option's, else that of a beacon
proxy, else what the engine infers from the contract. -/
def importedKind (situation : Situation) (address : String) (candidate : Candidate E)
    (opts : Options E) : Except Failure ProxyKind :=
  match opts.kind with
  | some kind => .ok kind
  | none =>
    if slotsKind (situation.slots address) = some .beacon then .ok .beacon
    else do
      let draft ← Hardhat.upgradeableContract candidate.artifact candidate.input opts
      foreignError (E.inferProxyKind draft.validations draft.version)

variable {situation : Situation} {codec : AddressCodec} {getAddress : String → String}
  {address : String} {candidate : Candidate E} {m : Manifest E} {opts : Options E}
  {c c' : Tracked (Manifest E) (Hardhat.effects E) Failure} {contractName : String}

/-- Where the import returns, it leaves such a manifest. -/
abbrev Imports {α : Type} (situation : Situation) (codec : AddressCodec)
    (getAddress : String → String) (address : String) (candidate : Candidate E)
    (x : Hardhat.HardhatTask E α) (Q : α → Manifest E → Prop) (m : Manifest E)
    (h : History (Hardhat.effects E) Failure) : Prop :=
  wp (importWorld situation codec getAddress address candidate) (fun _ _ => True) x
    (fun o c => ∀ a, o = .ok a → Q a c.state) ⟨m, h⟩

theorem Imports.ask {β : Type} {op : Op E} {f : op.Reply → Hardhat.HardhatTask E β}
    {Q : β → Manifest E → Prop} {h : History (Hardhat.effects E) Failure}
    (next : ∀ a m', importStep getAddress m op (.ok a) m' →
      situation.Shows codec address candidate ⟨op, .ok a⟩ →
      Imports situation codec getAddress address candidate (f a) Q m' (⟨op, .ok a⟩ :: h)) :
    Imports situation codec getAddress address candidate ((Hardhat.ask op).bind f) Q m h :=
  wp.track (S := Hardhat.effects E) trivial next fun _ _ _ => nofun

theorem upgradeableContractFor_imports {h : History (Hardhat.effects E) Failure} :
    Imports situation codec getAddress address candidate
      (Hardhat.upgradeableContractFor contractName opts)
      (fun draft m' => m' = m ∧
        Hardhat.upgradeableContract candidate.artifact candidate.input opts = .ok draft) m h := by
  unfold Hardhat.upgradeableContractFor
  simp only [Script.bind_eq]
  refine .ask fun artifact m₁ hm₁ hartifact => .ask fun found m₂ hm₂ hinput => ?_
  obtain rfl : artifact = candidate.artifact := hartifact
  obtain rfl : found = some candidate.input := hinput
  obtain rfl : m₁ = m := hm₁
  obtain rfl : m₂ = m₁ := hm₂
  exact wp_ofExcept.mpr fun draft hdraft => ⟨rfl, hdraft⟩

theorem Imports.ofExcept {α β : Type} {r : Except Failure α} {f : α → Hardhat.HardhatTask E β}
    {Q : β → Manifest E → Prop} {h : History (Hardhat.effects E) Failure}
    (next : ∀ a, r = .ok a → Imports situation codec getAddress address candidate (f a) Q m h) :
    Imports situation codec getAddress address candidate ((Script.ofExcept r).bind f) Q m h :=
  wp.ofExcept_bind next fun _ _ => nofun

theorem Imports.bind {α β : Type} {x : Hardhat.HardhatTask E α} {f : α → Hardhat.HardhatTask E β}
    {P : α → Manifest E → Prop} {Q : β → Manifest E → Prop}
    {h : History (Hardhat.effects E) Failure}
    (hx : Imports situation codec getAddress address candidate x P m h)
    (next : ∀ a m' h', P a m' →
      Imports situation codec getAddress address candidate (f a) Q m' h') :
    Imports situation codec getAddress address candidate (x.bind f) Q m h :=
  wp.bind hx (fun a c hc => next a c.state c.history (hc a rfl)) fun _ _ _ => nofun

/-- The kind, as the import settles it over its draft. -/
theorem importedKind_imports {draft : Hardhat.UpgradeableContract E}
    {h : History (Hardhat.effects E) Failure}
    (hdraft : Hardhat.upgradeableContract candidate.artifact candidate.input opts = .ok draft) :
    Imports situation codec getAddress address candidate
      (match opts.kind with
        | some kind => .pure kind
        | none => (Hardhat.ask (.isBeaconProxy address)).bind fun isBeaconProxy =>
          if isBeaconProxy = true then .pure .beacon
          else .ofExcept (foreignError (E.inferProxyKind draft.validations draft.version)))
      (fun kind m' => m' = m ∧ importedKind situation address candidate opts = .ok kind) m h := by
  unfold importedKind
  cases opts.kind with
  | some kind =>
    rintro _ ⟨⟩
    exact ⟨rfl, rfl⟩
  | none =>
    refine .ask fun isBeacon m' hm' hshows => ?_
    obtain rfl : isBeacon = decide (slotsKind (situation.slots address) = some .beacon) := hshows
    obtain rfl : m' = m := hm'
    by_cases hbeacon : slotsKind (situation.slots address) = some .beacon
    · simp only [hbeacon, decide_true, if_true]
      rintro _ ⟨⟩
      exact ⟨rfl, rfl⟩
    · simp only [hbeacon, decide_false, if_false, Bool.false_eq_true, hdraft]
      exact wp_ofExcept.mpr fun kind hkind => ⟨rfl, hkind⟩

/-- The two writes, once the kind is settled. -/
theorem recording_imports {kind : ProxyKind} {target : String}
    {h : History (Hardhat.effects E) Failure}
    (hkind : importedKind situation address candidate opts = .ok kind) :
    Imports situation codec getAddress address candidate
      ((Hardhat.validateImplementation contractName { opts with kind := some kind }).bind
        fun contract => (Hardhat.ask (.recordImpl contract.version contract.layout target)).bind
          fun _ => (Hardhat.ask (.addProxyToManifest kind address)).bind
            fun _ => Hardhat.ask (.getContractAt contractName address))
      (fun _ m' => ∃ version kind, Holds m' version target ∧
        importedKind situation address candidate opts = .ok kind ∧
        ∀ a, m'.kindOf a = if address = a then some kind else m.kindOf a) m h := by
  unfold Hardhat.validateImplementation
  simp only [Script.bind_eq, Script.bind_assoc]
  refine upgradeableContractFor_imports.bind ?_
  rintro contract _ h₁ ⟨rfl, -⟩
  refine .ofExcept fun _ _ => .ask fun _ m₂ hm₂ _ => .ask fun _ m₃ hm₃ _ => ?_
  obtain rfl : m₂ = _ := hm₂
  obtain rfl : m₃ = _ := hm₃
  refine wp_perform.mpr ⟨trivial, ?_⟩
  rintro r ⟨m₄, _⟩ ⟨hstep, -, -⟩ _ rfl
  obtain rfl : m₄ = _ := hstep
  exact ⟨contract.version, kind, Holds.stored _ _ _ ⟨target, none⟩, hkind,
    Hardhat.kindOf_addProxy kind⟩

theorem importProxy_imports {target : String} {h : History (Hardhat.effects E) Failure} :
    Imports situation codec getAddress address candidate
      (Hardhat.importProxy address target contractName opts)
      (fun _ m' => ∃ version kind, Holds m' version target ∧
        importedKind situation address candidate opts = .ok kind ∧
        ∀ a, m'.kindOf a = if address = a then some kind else m.kindOf a) m h := by
  unfold Hardhat.importProxy
  simp only [Script.bind_eq]
  refine upgradeableContractFor_imports.bind ?_
  rintro draft _ h₁ ⟨rfl, hdraft⟩
  refine (importedKind_imports hdraft).bind ?_
  rintro kind _ h₂ ⟨rfl, hkind⟩
  split
  · refine .ask fun word m₃ hm₃ _ => .ofExcept fun _ _ => ?_
    obtain rfl : m₃ = _ := hm₃
    exact recording_imports hkind
  · exact recording_imports hkind

/-- The manifest respelled first, then one import of what the chain shows. -/
theorem forceImport_imports {reference target canonical : String}
    (htarget : situation.target address = some target)
    (hcanonical : canonicalizeAddress codec target = .ok canonical) :
    Imports situation codec getAddress address candidate
      (Hardhat.forceImport reference contractName opts)
      (fun _ m' => ∃ version kind, Holds m' version canonical ∧
        importedKind situation address candidate opts = .ok kind ∧
        ∀ a, m'.kindOf a = if address = a then some kind else
          (m.canonicalized getAddress).kindOf a) m [] := by
  unfold Hardhat.forceImport
  simp only [Script.bind_eq]
  refine .ask fun _ m₁ hm₁ _ => .ask fun a m₂ hm₂ ha => ?_
  obtain rfl : m₁ = _ := hm₁
  obtain rfl : m₂ = _ := hm₂
  obtain rfl : a = address := ha
  refine .ask fun hasCode m₃ hm₃ _ => .ofExcept fun _ _ => .ask fun found m₄ hm₄ hfound => ?_
  obtain rfl : m₃ = _ := hm₃
  obtain rfl : m₄ = _ := hm₄
  have hfound : found = (situation.target a).bind fun target =>
    (canonicalizeAddress codec target).toOption := hfound
  rw [htarget, Option.bind_some, hcanonical] at hfound
  subst hfound
  exact importProxy_imports

-- ---------------------------------------------------------------------------
-- Side by side
-- ---------------------------------------------------------------------------

/-- An operation under the kind is refused for the one on record. -/
def Contradicts (m : Manifest E) (address : String) (kind : ProxyKind) : Prop :=
  ∃ recorded, m.kindOf address = some recorded ∧ recorded ≠ kind

/-- What the two adoptions of a proxy leave, whose kind by its slots is `kind`. -/
structure AdoptedKinds (situation : Situation) (codec : AddressCodec) (address : String)
    (candidate : Candidate E) (opts : Options E) (kind : ProxyKind)
    (before tronbox hardhat : Manifest E) : Prop where
  implementation : ∃ target canonical version version',
    situation.target address = some target ∧ canonicalizeAddress codec target = .ok canonical ∧
      Holds tronbox version canonical ∧ Holds hardhat version' canonical
  bySlots : tronbox.kindOf address = if kind = .beacon then before.kindOf address else some kind
  byOption : ∃ imported, importedKind situation address candidate opts = .ok imported ∧
    hardhat.kindOf address = some imported
  alike : (tronbox.kindOf address = hardhat.kindOf address ∧
      hardhat.kindOf address = some kind) ↔
    if kind = .beacon then before.kindOf address = some .beacon
    else importedKind situation address candidate opts = .ok kind
  unrefused : kind ≠ .beacon → ¬ Contradicts tronbox address kind
  refused : Contradicts hardhat address kind ↔
    importedKind situation address candidate opts ≠ .ok kind

theorem recordedAs_proxy (kind : ProxyKind) :
    (AdoptedKind.proxy kind).recordedAs = if kind = .beacon then none else some kind := by
  cases kind <;> rfl

/-- The TronBox plugin's record is that of the slots, or untouched; the Hardhat
plugin's is that of the option or the inference. -/
theorem adopted_kinds {env : Environment} {resolved : ResolvedForProxyOps E}
    {contract : ContractAbstraction E} {input reference : String} {kind : ProxyKind}
    {outcome : AdoptionOutcome} {tronbox : Recorded E}
    {hardhat : Tracked (Manifest E) (Hardhat.effects E) Failure}
    (haddress : canonicalizeAddress env.codec input = .ok address)
    (again : canonicalizeAddress env.codec address = .ok address)
    (hkind : slotsKind (situation.slots address) = some kind) (hopts : resolved.kind = opts.kind)
    (htronbox : Script.Reaches (situation.world contract)
      (runForceImport ⟨productionToolkit env, resolved⟩ input contract,
        ⟨m.canonicalized getAddress, []⟩) (.pure outcome, tronbox))
    (hhardhat : Script.Reaches (importWorld situation env.codec getAddress address candidate)
      (Hardhat.forceImport reference contractName opts, ⟨m, []⟩) (.pure (), hardhat)) :
    AdoptedKinds situation env.codec address candidate opts kind (m.canonicalized getAddress)
      tronbox.state hardhat.state := by
  have hadopts := runForceImport_adopts situation resolved contract (m.canonicalized getAddress)
    fun a (ha : canonicalizeAddress env.codec input = .ok a) => by
      cases haddress.symm.trans ha
      exact again
  obtain ⟨address', found, target, canonical, version, haddress', hverified, hcanonical, hholds,
    hkinds⟩ := hadopts.returns htronbox outcome rfl
  cases haddress.symm.trans haddress'
  obtain ⟨rfl, htarget⟩ := found_of_slotsKind hkind hverified.shown
  obtain ⟨version', imported, hholds', himported, hkinds'⟩ :=
    (forceImport_imports htarget hcanonical).returns hhardhat () rfl
  have htronboxKind : tronbox.state.kindOf address =
      if kind = .beacon then (m.canonicalized getAddress).kindOf address else some kind := by
    rw [hkinds, if_pos rfl, recordedAs_proxy]
    split <;> rfl
  have hhardhatKind : hardhat.state.kindOf address = some imported := by
    rw [hkinds', if_pos rfl]
  -- a beacon proxy is imported as one: another kind asked for is refused by the other plugin
  have hbeacon : kind = .beacon → imported = .beacon := by
    rintro rfl
    unfold importedKind at himported
    cases hoption : opts.kind with
    | none =>
      rw [hoption] at himported
      simp only [hkind, if_true] at himported
      exact (Except.ok.inj himported).symm
    | some option =>
      rw [hoption] at himported
      cases hverified.requested option (hopts.trans hoption)
      exact (Except.ok.inj himported).symm
  refine ⟨⟨target, canonical, version, version', htarget, hcanonical, hholds, hholds'⟩,
    htronboxKind, ⟨imported, himported, hhardhatKind⟩, ?_, ?_, ?_⟩
  · rw [htronboxKind, hhardhatKind, himported]
    by_cases hk : kind = .beacon
    · rw [if_pos hk, if_pos hk, hbeacon hk, hk]
      exact ⟨fun h => h.1, fun h => ⟨h, rfl⟩⟩
    · rw [if_neg hk, if_neg hk]
      constructor
      · rintro ⟨-, ⟨⟩⟩
        rfl
      · rintro ⟨⟩
        exact ⟨rfl, rfl⟩
  · rintro hk ⟨recorded, hrecorded, hne⟩
    rw [htronboxKind, if_neg hk] at hrecorded
    exact hne (Option.some.inj hrecorded).symm
  · rw [himported]
    constructor
    · rintro ⟨recorded, hrecorded, hne⟩ ⟨⟩
      cases hhardhatKind.symm.trans hrecorded
      exact hne rfl
    · intro hne
      exact ⟨imported, hhardhatKind, fun heq => hne (congrArg _ heq)⟩

end

-- ---------------------------------------------------------------------------
-- A UUPS implementation behind a transparent proxy
-- ---------------------------------------------------------------------------

/-- The contract has the upgrade entry point. -/
def entryCandidate : Candidate sampleEngine := ⟨Hardhat.sampleArtifact, true⟩

def importReply (situation : Situation) (codec : AddressCodec) (address : String) :
    (op : Op sampleEngine) → Except Failure op.Reply
  | .resolveAddress _ => .ok address
  | .hasCode _ => .ok true
  | .getImplementationAddressFromProxy a => .ok ((situation.target a).bind fun target =>
      (canonicalizeAddress codec target).toOption)
  | .isBeaconProxy a => .ok (decide (slotsKind (situation.slots a) = some .beacon))
  | .readArtifact _ => .ok entryCandidate.artifact
  | .validationInput _ => .ok (some entryCandidate.input)
  | .getManifest | .recordImpl _ _ _ | .addProxyToManifest _ _ | .getContractAt _ _ => .ok ()
  | _ => .error (.error "not asked for")

def importRecord (m : Manifest sampleEngine) : Op sampleEngine → Manifest sampleEngine
  | .getManifest => m.canonicalized id
  | .recordImpl version layout address => m.recordImpl version layout address none
  | .addProxyToManifest kind address => m.addProxy kind address
  | _ => m

def importHost (situation : Situation) (codec : AddressCodec) (address : String)
    (c : Tracked (Manifest sampleEngine) (Hardhat.effects sampleEngine) Failure)
    (op : Op sampleEngine) : Except Failure op.Reply ×
      Tracked (Manifest sampleEngine) (Hardhat.effects sampleEngine) Failure :=
  (importReply situation codec address op,
    ⟨importRecord c.state op, ⟨op, importReply situation codec address op⟩ :: c.history⟩)

theorem importHost_allows (situation : Situation) (codec : AddressCodec) (address : String) :
    (importWorld situation codec id address entryCandidate).Allows
      (importHost situation codec address) := by
  intro c op
  refine ⟨?_, ?_, rfl⟩
  · cases op <;> first | rfl | trivial
  · cases op <;> first | rfl | trivial

/-- Both return, and their records of the proxy differ. -/
theorem inferred_kind_differs :
    ∃ outcome tronbox hardhat,
      slotsKind (proxiedBox.slots "0x0000000000000000000000000000000000000022") =
          some .transparent ∧
        Script.Reaches (proxiedBox.world sampleContract)
          (runForceImport ⟨productionToolkit sampleEnvironment, sampleOptions⟩
            "0x0000000000000000000000000000000000000022" sampleContract, ⟨emptyManifest, []⟩)
          (.pure outcome, tronbox) ∧
        Script.Reaches (importWorld proxiedBox sampleEnvironment.codec id
            "0x0000000000000000000000000000000000000022" entryCandidate)
          (Hardhat.forceImport "0x0000000000000000000000000000000000000022" "Box"
            Hardhat.sampleOptions, ⟨emptyManifest, []⟩) (.pure (), hardhat) ∧
        tronbox.state.kindOf "0x0000000000000000000000000000000000000022" = some .transparent ∧
        hardhat.state.kindOf "0x0000000000000000000000000000000000000022" = some .uups :=
  ⟨_, _, _, rfl, reaches_run (adoptionHost_allowed proxiedBox) _ _,
    reaches_run (importHost_allows proxiedBox sampleEnvironment.codec _) _ _, rfl, rfl⟩

/-- What the one leaves, and the other. -/
def tronboxAdopted : Manifest sampleEngine :=
  (emptyManifest.stored "0x6001" "0x6001"
    ⟨"0x0000000000000000000000000000000000000011", some "0xd1"⟩).addProxy .transparent
      "0x0000000000000000000000000000000000000022"

def hardhatAdopted : Manifest sampleEngine :=
  (emptyManifest.recordImpl "0x6001" "0x6001" "0x0000000000000000000000000000000000000011"
    none).addProxy .uups "0x0000000000000000000000000000000000000022"

theorem adopted_kinds_box :
    AdoptedKinds proxiedBox sampleEnvironment.codec "0x0000000000000000000000000000000000000022"
      entryCandidate Hardhat.sampleOptions .transparent (emptyManifest.canonicalized id)
      tronboxAdopted hardhatAdopted := by
  have htronbox := reaches_run (adoptionHost_allowed proxiedBox)
    (runForceImport ⟨productionToolkit sampleEnvironment, sampleOptions⟩
      "0x0000000000000000000000000000000000000022" sampleContract)
    ⟨emptyManifest.canonicalized id, []⟩
  have hhardhat := reaches_run
    (importHost_allows proxiedBox sampleEnvironment.codec "0x0000000000000000000000000000000000000022")
    (Hardhat.forceImport "0x0000000000000000000000000000000000000022" "Box" Hardhat.sampleOptions)
    ⟨emptyManifest, []⟩
  exact adopted_kinds (by rfl) (by rfl) rfl rfl htronbox hhardhat

end TronUpgrades.Adoption
