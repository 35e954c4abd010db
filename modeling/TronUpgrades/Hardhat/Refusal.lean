import TronUpgrades.Hardhat.Operations
import TronUpgrades.Tronbox.NoBricking

/-!
# Candidates without the upgrade entry point

What the three upgrade operations do with a candidate that would brick a UUPS
proxy. `upgradeProxy` checks the kind it settles on against the admin slot and
always refuses. The other two take the kind that the engine infers from the
candidate, or the caller's, as it is: once the proxy's record is lost they
refuse only what is named `uups` or is unacceptable for another reason.
-/

namespace TronUpgrades.Hardhat

open Effects Tronbox

/-- What an operation finds: the candidate as compiled, the layout stored for
the installed implementation, the record of the proxy. -/
structure Scene (E : Engine) where
  artifact : Artifact E
  input : E.ValidationInput
  currentLayout : Option E.Layout
  record : Option ProxyKind

section
variable {E : Engine}

/-- A deployment, or a transaction. -/
def Op.spends : Op E → Bool
  | .deployContract _ _ | .transact _ _ _ => true
  | _ => false

/-- The answers about a proxy with an implementation and neither admin nor
beacon, and about the candidate. Any of them may fail. -/
def Lawful (scene : Scene E) : Event (effects E) Failure → Prop
  | ⟨.readArtifact _, .ok artifact⟩ => artifact = scene.artifact
  | ⟨.validationInput _, .ok input⟩ => input = some scene.input
  | ⟨.layoutForAddress _, .ok layout⟩ => scene.currentLayout = some layout
  | ⟨.isTransparentOrUUPSProxy _, .ok answer⟩ => answer = true
  | ⟨.getSlot _ slot, .ok word⟩ =>
    slot = adminSlot ∨ slot = beaconSlot → slotToAddress word = zeroAddress
  | ⟨.proxyRecordOf _, .ok record⟩ => record = scene.record
  | ⟨.processProxyKind _ given validations version, .ok kind⟩ =>
    SettlesOn scene.record given validations version kind
  | _ => True

/-- The candidate, with the errors of the kind in the options. -/
def Scene.candidate (scene : Scene E) (opts : Options E) : Except Failure (UpgradeableContract E) :=
  upgradeableContract scene.artifact scene.input opts

/-- The kind the engine settles on for the proxy, from the options and the
candidate. -/
def SettledAs (scene : Scene E) (opts : Options E) (kind : ProxyKind) : Prop :=
  ∃ draft, scene.candidate opts = .ok draft ∧
    SettlesOn scene.record opts.kind draft.validations draft.version kind

/-- A candidate that is accepted under a kind, against the stored layout. -/
def SafeUnder (scene : Scene E) (opts : Options E) (kind : ProxyKind)
    (candidate : UpgradeableContract E) : Prop :=
  ∃ current, scene.candidate { opts with kind := some kind } = .ok candidate ∧
    candidate.errors = [] ∧ scene.currentLayout = some current ∧
    assertStorageCompatible current candidate.layout opts = .ok ()

/-- The kind is settled on, and the candidate is accepted under it. -/
def AcceptableAs (scene : Scene E) (opts : Options E) (kind : ProxyKind) : Prop :=
  SettledAs scene opts kind ∧ ∃ candidate, SafeUnder scene opts kind candidate

/-- No lawful run of the operation spends anything or succeeds. -/
structure Refuses {α : Type} (scene : Scene E) (x : HardhatTask E α) : Prop where
  unspent : ∀ op next h,
    Script.Reaches (.recorded fun _ => Lawful scene) (x, []) (.call op next, h) →
    Op.spends op = false
  failed : ∀ a h, ¬ Script.Reaches (.recorded fun _ => Lawful scene) (x, []) (.pure a, h)

variable {scene : Scene E} {opts : Options E} {α β : Type} {x : HardhatTask E α}
  {h : History (effects E) Failure} {contractName : String} {C : α → Prop}

/-- The weakest precondition that the operation, from here on, spends nothing
and returns only what satisfies `C`. -/
def Returns (scene : Scene E) (x : HardhatTask E α) (C : α → Prop)
    (h : History (effects E) Failure) : Prop :=
  wp (.recorded fun _ => Lawful scene) (fun _ op => Op.spends op = false) x
    (fun o _ => ∀ a, o = .ok a → C a) h

theorem Refuses.of_returns (hx : Returns scene x (fun _ => False) []) : Refuses scene x where
  unspent _ _ _ hr := hx.calls hr
  failed a _ hr := hx.returns hr a rfl

theorem Returns.ask {op : Op E} {f : op.Reply → HardhatTask E α} (hop : op.spends = false)
    (next : ∀ a, Lawful scene ⟨op, .ok a⟩ → ∀ h, Returns scene (f a) C h) :
    Returns scene ((ask op).bind f) C h := by
  apply wp.ask hop
  · exact fun a ha => next a ha _
  · exact fun e _ => error_returns

theorem Returns.ofExcept {r : Except Failure β} {f : β → HardhatTask E α}
    (next : ∀ b, r = .ok b → Returns scene (f b) C h) :
    Returns scene ((Script.ofExcept r).bind f) C h :=
  wp.ofExcept_bind next fun _ _ => error_returns

theorem Returns.bind {y : HardhatTask E β} {D : β → Prop} {f : β → HardhatTask E α}
    (hy : Returns scene y D h) (next : ∀ b, D b → ∀ h, Returns scene (f b) C h) :
    Returns scene (y.bind f) C h := by
  apply wp.bind hy
  · exact fun b t hD => next b (hD b rfl) t
  · exact fun e t _ => error_returns

-- ---------------------------------------------------------------------------
-- What each part returns
-- ---------------------------------------------------------------------------

theorem upgradeableContractFor_returns :
    Returns scene (upgradeableContractFor contractName opts)
      (fun data => scene.candidate opts = .ok data) h := by
  unfold upgradeableContractFor
  simp only [Script.bind_eq]
  refine Returns.ask rfl fun artifact hartifact h => ?_
  obtain rfl : artifact = scene.artifact := hartifact
  refine Returns.ask rfl fun input hinput h => ?_
  obtain rfl : input = some scene.input := hinput
  exact wp_ofExcept.mpr fun data hdata => hdata

theorem judgeAgainst_returns {reference : ReferenceImpl} :
    Returns scene (judgeAgainst contractName opts reference)
      (SafeUnder scene opts reference.kind) h := by
  unfold judgeAgainst validateImplementation
  simp only [Script.bind_eq, Script.pure_eq, Script.bind_assoc, Script.bind_pure]
  refine Returns.ask rfl fun current hcurrent h => ?_
  refine Returns.bind upgradeableContractFor_returns fun candidate hcandidate h => ?_
  refine Returns.ofExcept fun _ hnone => Returns.ofExcept fun _ hcompatible => ?_
  rintro _ ⟨⟩
  exact ⟨current, hcandidate, Decidable.not_not.mp (refuseIf_ok hnone), hcurrent, hcompatible⟩

theorem resolveReferenceImpl_returns {referenceAddress : String} :
    Returns scene (resolveReferenceImpl referenceAddress contractName opts)
      (fun reference => SettledAs scene opts reference.kind) h := by
  unfold resolveReferenceImpl
  simp only [Script.bind_eq, Script.pure_eq]
  refine Returns.ask rfl fun isProxy hproxy h => ?_
  obtain rfl : isProxy = true := hproxy
  refine Returns.bind upgradeableContractFor_returns fun draft hdraft h => ?_
  refine Returns.ask rfl fun kind hkind h => ?_
  refine Returns.ask rfl fun current _ h => ?_
  rintro _ ⟨⟩
  exact ⟨draft, hdraft, hkind⟩

theorem planUpgrade_returns {proxy : String}
    (huups : ¬ AcceptableAs scene opts .uups) :
    Returns scene (planUpgrade proxy contractName opts) (fun _ => False) h := by
  unfold planUpgrade
  simp only [Script.bind_eq, Script.pure_eq]
  refine Returns.ask rfl fun proxyAddress _ h => ?_
  refine Returns.ask rfl fun _ _ h => ?_
  refine Returns.ask rfl fun record _ h => ?_
  refine Returns.ask rfl fun beaconWord _ h => ?_
  refine Returns.ofExcept fun _ _ => ?_
  refine Returns.bind upgradeableContractFor_returns fun draft hdraft h => ?_
  refine Returns.ask rfl fun kind hkind h => ?_
  refine Returns.ofExcept fun _ hbeacon => ?_
  refine Returns.ask rfl fun current _ h => ?_
  refine Returns.bind judgeAgainst_returns fun candidate hsafe h => ?_
  refine Returns.ofExcept fun callData _ => Returns.ofExcept fun _ _ => ?_
  have hacceptable : AcceptableAs scene opts kind := ⟨⟨draft, hdraft, hkind⟩, candidate, hsafe⟩
  cases kind with
  | uups => exact absurd hacceptable huups
  | beacon => cases hbeacon
  | transparent =>
    -- the admin slot is empty
    rw [if_pos rfl]
    refine Returns.bind (D := fun _ => False) ?_ fun _ hfalse => hfalse.elim
    unfold adminEntry
    simp only [Script.bind_eq, Script.pure_eq]
    refine Returns.ask rfl fun word hword h => ?_
    have hadmin : slotToAddress word = zeroAddress := hword (.inl rfl)
    exact Returns.ofExcept fun _ hrefused => absurd hadmin (refuseIf_ok hrefused)

theorem upgradeProxy_refuses (proxy contractName : String)
    (huups : ¬ AcceptableAs scene opts .uups) :
    Refuses scene (upgradeProxy proxy contractName opts) :=
  .of_returns ((planUpgrade_returns huups).bind fun _ hfalse => hfalse.elim)

/-- What both deployed-reference operations do before anything else. -/
theorem judgeReference_returns {reference : String} {f : UpgradeableContract E → HardhatTask E α}
    (hno : ∀ kind, ¬ AcceptableAs scene opts kind) :
    Returns scene (do
      ask .getManifest
      let referenceAddress ← ask (.resolveAddress reference)
      let resolved ← resolveReferenceImpl referenceAddress contractName opts
      let contract ← judgeAgainst contractName opts resolved
      f contract) (fun _ => False) h := by
  simp only [Script.bind_eq]
  refine Returns.ask rfl fun _ _ h => ?_
  refine Returns.ask rfl fun referenceAddress _ h => ?_
  refine Returns.bind resolveReferenceImpl_returns fun resolved hsettled h => ?_
  refine Returns.bind judgeAgainst_returns fun candidate hsafe h => ?_
  exact absurd ⟨hsettled, candidate, hsafe⟩ (hno resolved.kind)

/-- The options by which `prepareUpgrade` may deploy. -/
def Deployable (opts : Options E) : Prop :=
  checkTxOverrides opts = .ok () ∧
    ¬ (opts.useDeployedImplementation && opts.redeployImplementation.isSome) = true

theorem resolveImplementation_returns (candidate : UpgradeableContract E)
    (hopts : ¬ Deployable opts) :
    Returns scene (resolveImplementation contractName opts (some candidate)) (fun _ => False)
      h := by
  unfold resolveImplementation
  simp only [Script.bind_eq, Script.pure_eq]
  refine Returns.ofExcept fun _ hoverrides => Returns.ofExcept fun _ hconflict => ?_
  exact absurd ⟨hoverrides, refuseIf_ok hconflict⟩ hopts

theorem prepareUpgrade_returns {reference : String} (hopts : ¬ Deployable opts) :
    Returns scene (prepareUpgrade reference contractName opts) (fun _ => False) h := by
  unfold prepareUpgrade
  simp only [Script.bind_eq]
  refine Returns.ask rfl fun _ _ h => ?_
  refine Returns.ask rfl fun referenceAddress _ h => ?_
  refine Returns.bind resolveReferenceImpl_returns fun resolved _ h => ?_
  refine Returns.bind judgeAgainst_returns fun candidate _ h => ?_
  exact resolveImplementation_returns candidate hopts

-- ---------------------------------------------------------------------------
-- What may succeed
-- ---------------------------------------------------------------------------

/-- Some lawful run of it, from wherever it is started, returns the value. -/
def MayReturn (scene : Scene E) (x : HardhatTask E α) (a : α) : Prop :=
  ∀ h, ∃ h', Script.Reaches (.recorded fun _ => Lawful scene) (x, h) (.pure a, h')

theorem MayReturn.pure (a : α) : MayReturn scene (.pure a) a := fun h => ⟨h, .refl⟩

theorem MayReturn.bind {f : α → HardhatTask E β} {a : α} {b : β} (hx : MayReturn scene x a)
    (hf : MayReturn scene (f a) b) : MayReturn scene (x.bind f) b := by
  intro h
  obtain ⟨h₁, hx⟩ := hx h
  obtain ⟨h₂, hf⟩ := hf h₁
  exact ⟨h₂, hx.bind.trans hf⟩

theorem MayReturn.catching {handler : Failure → HardhatTask E α} {a : α}
    (hx : MayReturn scene x a) : MayReturn scene (x.catching handler) a := by
  intro h
  obtain ⟨h', hx⟩ := hx h
  exact ⟨h', hx.catching⟩

theorem MayReturn.ofExcept {r : Except Failure α} {a : α} (hr : r = .ok a) :
    MayReturn scene (.ofExcept r) a := by
  subst hr
  exact .pure a

theorem MayReturn.ask (op : Op E) (a : op.Reply) (ha : Lawful scene ⟨op, .ok a⟩) :
    MayReturn scene (ask op) a := by
  intro h
  have hstep : (World.recorded fun _ => Lawful scene).step h op (.ok a) (⟨op, .ok a⟩ :: h) :=
    ⟨ha, rfl⟩
  exact ⟨_, .single (.call hstep)⟩

theorem upgradeableContractFor_mayReturn {draft : UpgradeableContract E}
    (hdraft : scene.candidate opts = .ok draft) :
    MayReturn scene (upgradeableContractFor contractName opts) draft :=
  .bind (.ask (.readArtifact _) scene.artifact rfl) (.bind (.ask (.validationInput _) (some scene.input) rfl)
    (.bind (.ofExcept rfl) (.ofExcept hdraft)))

theorem judgeAgainst_mayReturn {reference : ReferenceImpl} {candidate : UpgradeableContract E}
    (hsafe : SafeUnder scene opts reference.kind candidate) :
    MayReturn scene (judgeAgainst contractName opts reference) candidate := by
  obtain ⟨current, hcandidate, hnone, hcurrent, hcompatible⟩ := hsafe
  have hsafe : refuseIf (candidate.errors ≠ []) (.error (contractName ++ " is not upgrade-safe")) =
      .ok () := by
    simp [refuseIf, hnone]
  refine .bind (.ask (.layoutForAddress _) current hcurrent) (.bind (a := candidate) ?_ ?_)
  · exact .bind (upgradeableContractFor_mayReturn hcandidate) (.bind (.ofExcept hsafe) (.pure _))
  · exact .bind (.ofExcept hcompatible) (.pure _)

theorem resolveReferenceImpl_mayReturn {kind : ProxyKind} (referenceAddress : String)
    (hsettled : SettledAs scene opts kind) :
    MayReturn scene (resolveReferenceImpl referenceAddress contractName opts)
      ⟨kind, referenceAddress⟩ := by
  obtain ⟨draft, hdraft, hkind⟩ := hsettled
  refine .bind (.ask (.isTransparentOrUUPSProxy _) true rfl) ?_
  refine .bind (upgradeableContractFor_mayReturn hdraft) ?_
  exact .bind (.ask (.processProxyKind _ _ _ _) kind hkind) (.bind (.ask (.getImplementationAddress _) referenceAddress trivial) (.pure _))

theorem validateUpgradeReference_mayReturn {kind : ProxyKind} (reference : String)
    (hacceptable : AcceptableAs scene opts kind) :
    MayReturn scene (validateUpgradeReference reference contractName opts) () := by
  obtain ⟨hsettled, candidate, hsafe⟩ := hacceptable
  refine .bind (.ask .getManifest () trivial)
    (.bind (.ask (.resolveAddress _) reference trivial) ?_)
  refine .bind (resolveReferenceImpl_mayReturn reference hsettled) ?_
  exact .bind (judgeAgainst_mayReturn hsafe) (.pure _)

/-- An implementation the engine already knows is enough. -/
theorem prepareUpgrade_mayReturn {kind : ProxyKind} (reference : String)
    (hacceptable : AcceptableAs scene opts kind) (hopts : Deployable opts) :
    MayReturn scene (prepareUpgrade reference contractName opts) ⟨reference, none, false⟩ := by
  obtain ⟨hsettled, candidate, hsafe⟩ := hacceptable
  obtain ⟨hoverrides, hconflict⟩ := hopts
  refine .bind (.ask .getManifest () trivial)
    (.bind (.ask (.resolveAddress _) reference trivial) ?_)
  refine .bind (resolveReferenceImpl_mayReturn reference hsettled) ?_
  refine .bind (judgeAgainst_mayReturn hsafe) ?_
  refine .bind (.ofExcept hoverrides) (.bind (.ofExcept (a := ()) ?_) ?_)
  · simp only [refuseIf, if_neg hconflict]
  · refine .bind (.ask .getManifest () trivial) (.bind (.pure candidate) ?_)
    refine .bind (a := ⟨reference, none, false⟩) (.catching ?_) (.pure _)
    exact .bind (.ask (.engineStart _ _) (some ⟨reference, none, false⟩) trivial) (.pure _)

theorem Refuses.not_mayReturn {a : α} (hr : Refuses scene x) : ¬ MayReturn scene x a := by
  intro hx
  obtain ⟨h, hx⟩ := hx []
  exact hr.failed a h hx

-- ---------------------------------------------------------------------------
-- The candidate without the entry point
-- ---------------------------------------------------------------------------

/-- A compiled candidate has the errors of its kind, and the same data whatever
the kind. -/
theorem upgradeableContract_ok {artifact : Artifact E} {input : E.ValidationInput}
    {data : UpgradeableContract E} (h : upgradeableContract artifact input opts = .ok data) :
    ∃ unlinked encodedArgs, E.validate input = .ok data.validations ∧
      E.getUnlinkedBytecode data.validations artifact.bytecode = .ok unlinked ∧
      E.encodeDeploy artifact.abi opts.constructorArgs = .ok encodedArgs ∧
      data.version = E.getVersion unlinked artifact.bytecode encodedArgs ∧
      E.getErrors data.validations data.version opts.engineOptions (opts.kind.getD .transparent) =
        .ok data.errors := by
  unfold upgradeableContract at h
  obtain ⟨validations, hvalidate, h⟩ := bind_ok h
  obtain ⟨unlinked, hunlinked, h⟩ := bind_ok h
  obtain ⟨encodedArgs, hargs, h⟩ := bind_ok h
  obtain ⟨errors, herrors, h⟩ := bind_ok h
  obtain ⟨layout, hlayout, h⟩ := bind_ok h
  cases h
  exact ⟨unlinked, encodedArgs, mapError_ok hvalidate, mapError_ok hunlinked, mapError_ok hargs,
    rfl, mapError_ok herrors⟩

theorem candidate_same {kind : ProxyKind} {draft candidate : UpgradeableContract E}
    (hdraft : scene.candidate opts = .ok draft)
    (hcandidate : scene.candidate { opts with kind := some kind } = .ok candidate) :
    candidate.validations = draft.validations ∧ candidate.version = draft.version := by
  obtain ⟨unlinked, args, hvalidate, hunlinked, hargs, hversion, -⟩ :=
    upgradeableContract_ok hdraft
  obtain ⟨unlinked', args', hvalidate', hunlinked', hargs', hversion', -⟩ :=
    upgradeableContract_ok hcandidate
  have hv : candidate.validations = draft.validations :=
    Except.ok.inj (hvalidate'.symm.trans hvalidate)
  rw [hv, hunlinked] at hunlinked'
  obtain rfl := Except.ok.inj hunlinked'
  obtain rfl := Except.ok.inj (hargs'.symm.trans hargs)
  exact ⟨hv, hversion'.trans hversion.symm⟩

variable {hasEntry : E.Validations → E.Version → Prop} {allowsMissing : E.ValidationOptions → Prop}

theorem not_acceptable_uups (laws : EntryPointLaws E hasEntry allowsMissing)
    (hmissing : ¬ allowsMissing opts.engineOptions)
    (hentry : ∀ draft, scene.candidate opts = .ok draft →
      ¬ hasEntry draft.validations draft.version) : ¬ AcceptableAs scene opts .uups := by
  rintro ⟨⟨draft, hdraft, -⟩, candidate, current, hcandidate, hnone, -⟩
  obtain ⟨hv, hversion⟩ := candidate_same hdraft hcandidate
  obtain ⟨-, -, -, -, -, -, herrors⟩ := upgradeableContract_ok hcandidate
  refine laws.reports _ _ _ _ herrors ?_ hmissing hnone
  rw [hv, hversion]
  exact hentry draft hdraft

/-- The record or the caller names the kind `uups`. -/
def NamedUups (scene : Scene E) (opts : Options E) : Prop :=
  scene.record = some .uups ∨ opts.kind = some .uups

/-- The candidate fails for a reason that does not depend on the entry point. -/
def OtherwiseUnacceptable (scene : Scene E) (opts : Options E) : Prop :=
  ∀ kind, kind ≠ .uups → ¬ AcceptableAs scene opts kind

theorem settled_uups {kind : ProxyKind} (hnamed : NamedUups scene opts)
    (hsettled : SettledAs scene opts kind) : kind = .uups := by
  obtain ⟨draft, -, hkind, hrecord⟩ := hsettled
  rcases hnamed with hnamed | hnamed
  · exact (hrecord .uups hnamed).symm
  · rw [hnamed] at hkind
    exact hkind

theorem unacceptable_iff (huups : ¬ AcceptableAs scene opts .uups) :
    (∀ kind, ¬ AcceptableAs scene opts kind) ↔
      NamedUups scene opts ∨ OtherwiseUnacceptable scene opts := by
  constructor
  · exact fun hno => .inr fun kind _ => hno kind
  · rintro (hnamed | hother) kind hacceptable
    · obtain rfl := settled_uups hnamed hacceptable.1
      exact huups hacceptable
    · by_cases hkind : kind = .uups
      · exact huups (hkind ▸ hacceptable)
      · exact hother kind hkind hacceptable

/-- When each operation refuses a candidate without the entry point. -/
structure EntrylessRefused (scene : Scene E) (opts : Options E) (reference contractName : String) :
    Prop where
  upgradeProxy : Refuses scene (upgradeProxy reference contractName opts)
  validateUpgrade : Refuses scene (validateUpgradeReference reference contractName opts) ↔
    NamedUups scene opts ∨ OtherwiseUnacceptable scene opts
  prepareUpgrade : Refuses scene (prepareUpgrade reference contractName opts) ↔
    NamedUups scene opts ∨ OtherwiseUnacceptable scene opts ∨ ¬ Deployable opts

theorem entryless_refused (laws : EntryPointLaws E hasEntry allowsMissing) (scene : Scene E)
    (opts : Options E) (hmissing : ¬ allowsMissing opts.engineOptions)
    (hentry : ∀ draft, scene.candidate opts = .ok draft →
      ¬ hasEntry draft.validations draft.version) (reference contractName : String) :
    EntrylessRefused scene opts reference contractName := by
  have huups := not_acceptable_uups laws hmissing hentry
  refine ⟨upgradeProxy_refuses reference contractName huups, ?_, ?_⟩
  · rw [← unacceptable_iff huups]
    constructor
    · exact fun hr kind hacceptable =>
        hr.not_mayReturn (validateUpgradeReference_mayReturn reference hacceptable)
    · exact fun hno => .of_returns (judgeReference_returns hno)
  · rw [← or_assoc, ← unacceptable_iff huups]
    constructor
    · intro hr
      by_cases hopts : Deployable opts
      · exact .inl fun kind hacceptable =>
          hr.not_mayReturn (prepareUpgrade_mayReturn reference hacceptable hopts)
      · exact .inr hopts
    · rintro (hno | hopts)
      · exact .of_returns (judgeReference_returns hno)
      · exact .of_returns (prepareUpgrade_returns hopts)

end

-- ---------------------------------------------------------------------------
-- A lost record
-- ---------------------------------------------------------------------------

def sampleArtifact : Artifact sampleEngine where
  sourceName := "contracts/Brick.sol"
  contractName := "Brick"
  abi := ()
  bytecode := "0x6001"

/-- The candidate has no upgrade entry point, and the proxy's record is lost. -/
def lostRecord : Scene sampleEngine where
  artifact := sampleArtifact
  input := false
  currentLayout := some "0x6000"
  record := none

def sampleOptions : Options sampleEngine where
  kind := none
  unsafeSkipStorageCheck := false
  constructorArgs := []
  redeployImplementation := none
  useDeployedImplementation := false
  txOverrides := []
  getTxResponse := false
  owner := none
  call := .omitted
  engineOptions := false

def lostRecordHost (_ : History (effects sampleEngine) Failure) :
    (op : Op sampleEngine) → Except Failure op.Reply
  | .getManifest => .ok ()
  | .resolveAddress reference | .getImplementationAddress reference => .ok reference
  | .isTransparentOrUUPSProxy _ => .ok true
  | .readArtifact _ => .ok sampleArtifact
  | .validationInput _ => .ok (some false)
  | .processProxyKind _ none validations version =>
    foreignError (sampleEngine.inferProxyKind validations version)
  | .layoutForAddress _ => .ok "0x6000"
  | .engineStart _ _ => .ok none
  | .deployContract _ _ =>
    .ok ⟨"0x00000000000000000000000000000000000000a1", some "0xd1", true⟩
  | .engineSettle _ _ callback => callback
  | _ => .error (.error "not asked for")

theorem lostRecordHost_lawful (h : History (effects sampleEngine) Failure) (op : Op sampleEngine) :
    Lawful lostRecord ⟨op, lostRecordHost h op⟩ := by
  cases op with
  | readArtifact | validationInput | layoutForAddress | isTransparentOrUUPSProxy => rfl
  | processProxyKind address given validations version =>
    cases given with
    | none => exact ⟨rfl, nofun⟩
    | some given => trivial
  | engineSettle version layout callback =>
    cases callback <;> trivial
  | _ => trivial

theorem lost_record_bricks : ∃ deployed h,
    Script.Reaches (.recorded fun _ => Lawful lostRecord)
      (prepareUpgrade "0x00000000000000000000000000000000000000a2" "Brick" sampleOptions, [])
      (.pure deployed, h) ∧ asked (S := effects sampleEngine) Op.spends h = 1 :=
  ⟨_, _, reaches_answering lostRecordHost lostRecordHost_lawful _ _, rfl⟩

theorem lost_record_refused :
    EntrylessRefused lostRecord sampleOptions "0x00000000000000000000000000000000000000a2"
      "Brick" :=
  entryless_refused sampleEngine_laws lostRecord sampleOptions nofun (by rintro _ ⟨⟩; nofun) _ _

end TronUpgrades.Hardhat
