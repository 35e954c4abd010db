import TronUpgrades.Environment.Groups

/-!
# What the handles can give

Which slots the handles can give, and which disagreements there are among them,
is said of the handles alone; then of each section of a resolution that it finds
just that.
-/

namespace TronUpgrades.Environment

-- ---------------------------------------------------------------------------
-- What the handles can give
-- ---------------------------------------------------------------------------

section Available

variable (host : Host) (handles : RawMigrationHandles)

/-- The read answers a value of the kind. -/
def Reads (read : PropertyRead) (kind : HostValue → Bool) : Prop :=
  ∃ value, read = .ok value ∧ kind value = true

/-- Some lineage was handed over, and each of them gives its values. -/
def Constructible {V : Type} (project : ConfigLineage → Projection V) (lineages : ConfigLineages) :
    Prop :=
  Readable project lineages ∧ ¬ lineages.AllAbsent

structure InterceptUsable (artifacts : HostValue) : Prop where
  object : artifacts.isObjectLike = true
  require : Reads (readProperty host artifacts "require") (·.isFunction host)
  contracts : Reads (readProperty host artifacts "contracts") (·.isFunction host)
  resolver : Reads (readOwnProperty host artifacts "resolver") (·.isObjectLike)

structure ChainUsable (handle : HostValue) : Prop where
  object : handle.isObjectLike = true
  trx : Reads (readProperty host handle "trx") (·.isObjectLike)

structure ChainAvailable : Prop where
  supplied : supplied (handles .tronWrap) = true ∨ supplied (handles .tronWeb) = true
  tronWrap : Environment.supplied (handles .tronWrap) = true → ChainUsable host (handles .tronWrap)
  tronWeb : Environment.supplied (handles .tronWeb) = true → ChainUsable host (handles .tronWeb)

def HasLogger (owner : HostValue) : Prop :=
  ∃ logger, readOwnProperty host owner "logger" = .ok logger ∧ logger.isObjectLike = true ∧
    Reads (readProperty host logger "log") (·.isFunction host)

def QuietReadable (lineage : ConfigLineage) : Prop :=
  readOwnProperty host lineage.config "quiet" = .error .missing ∨
    readOwnProperty host lineage.config "quiet" = .ok .undefined ∨
    ∃ quiet, readOwnProperty host lineage.config "quiet" = .ok (.boolean quiet)

/-- Of the deployer, and only where there is none of the artifacts. -/
def OutputAvailable (lineages : ConfigLineages) : Prop :=
  (supplied (handles .deployer) = true ∧ (handles .deployer).isObjectLike = true ∧
    ∃ lineage, lineages.viaDeployer = .present lineage ∧ HasLogger host (handles .deployer) ∧
      QuietReadable host lineage) ∨
  supplied (handles .deployer) = false ∧
    ∃ lineage, lineages.viaArtifacts = .present lineage ∧ HasLogger host lineage.config ∧
      QuietReadable host lineage

/-- Where both lineages are reached, the deployer's resolver can be told. -/
def PairingReadable (lineages : ConfigLineages) : Prop :=
  ∀ viaDeployer viaArtifacts, lineages.viaDeployer = .present viaDeployer →
    lineages.viaArtifacts = .present viaArtifacts →
    Reads (readOwnProperty host viaDeployer.config "resolver") (·.isObjectLike)

/-- The artifacts wrap another resolver than the deployer's. -/
def Mispaired (lineages : ConfigLineages) : Prop :=
  ∃ viaDeployer viaArtifacts resolver, lineages.viaDeployer = .present viaDeployer ∧
    lineages.viaArtifacts = .present viaArtifacts ∧
    readOwnProperty host viaDeployer.config "resolver" = .ok resolver ∧
    resolver.isObjectLike = true ∧ some resolver ≠ viaArtifacts.resolver

/-- Each settings value that the agreed source names can be copied out, or is one
of two. -/
def SettingsAvailable (lineages : ConfigLineages) : Prop :=
  ∀ values, Agreed (projectCompilerValues host) lineages values →
    SettingsConflict host lineages values.settingsSource ∨
      ∃ settings, SettingsGiven host lineages values.settingsSource settings

/-- The handles give the slot, if the sources of it agree. -/
def Available : SlotName → Prop
  | .paths => Constructible (projectPathValues host) (inspectConfigLineages host handles) ∧
    PairingReadable host (inspectConfigLineages host handles)
  | .network => Constructible (projectNetworkValues host) (inspectConfigLineages host handles) ∧
    PairingReadable host (inspectConfigLineages host handles)
  | .artifacts => Constructible (projectPathValues host) (inspectConfigLineages host handles) ∧
    InterceptUsable host (handles .artifacts) ∧
    PairingReadable host (inspectConfigLineages host handles)
  | .chain => ChainAvailable host handles
  | .receipts => (handles .waitForTransactionReceipt).isFunction host = true
  | .scheduling => (handles .deployer).isObjectLike = true ∧
    Reads (readProperty host (handles .deployer) "then") (·.isFunction host)
  | .output => OutputAvailable host handles (inspectConfigLineages host handles) ∧
    PairingReadable host (inspectConfigLineages host handles)
  | .compiler => Constructible (projectCompilerValues host) (inspectConfigLineages host handles) ∧
    SettingsAvailable host (inspectConfigLineages host handles) ∧
    PairingReadable host (inspectConfigLineages host handles)

/-- The disagreements that the comparisons for these slots cover. -/
inductive Disagreement (requested : List SlotName) : Inconsistency → Prop
  | paths {conflict : Inconsistency} (asked : .paths ∈ requested ∨ .artifacts ∈ requested)
      (differ : FieldConflict (projectPathValues host) PathScalarValues.value
        pathConfigLineageFields (inspectConfigLineages host handles) conflict) :
    Disagreement requested conflict
  | network {conflict : Inconsistency} (asked : .network ∈ requested)
      (differ : FieldConflict (projectNetworkValues host) NetworkScalarValues.value
        networkConfigLineageFields (inspectConfigLineages host handles) conflict) :
    Disagreement requested conflict
  | compiler {conflict : Inconsistency} (asked : .compiler ∈ requested)
      (differ : FieldConflict (projectCompilerValues host) CompilerScalarValues.value
        compilerConfigLineageFields (inspectConfigLineages host handles) conflict) :
    Disagreement requested conflict
  | settings {values : CompilerScalarValues} (asked : .compiler ∈ requested)
      (agreed : Agreed (projectCompilerValues host) (inspectConfigLineages host handles) values)
      (differ : SettingsConflict host (inspectConfigLineages host handles) values.settingsSource) :
    Disagreement requested .compilerSettingsConflict
  | chain (asked : .chain ∈ requested) (tronWrap : ChainUsable host (handles .tronWrap))
      (tronWeb : ChainUsable host (handles .tronWeb))
      (differ : handles .tronWrap ≠ handles .tronWeb) :
    Disagreement requested .chainHandleConflict
  | pairing (mispaired : Mispaired host (inspectConfigLineages host handles)) :
    Disagreement requested .artifactsNotWrappingDeployerResolver

/-- Each slot that comes from a lineage holds what every lineage handed over
gives, read by itself. -/
structure Sourced (slots : Slots) : Prop where
  paths : ∀ paths, slots .paths = some paths →
    ∃ values, Agreed (projectPathValues host) (inspectConfigLineages host handles) values ∧
      paths = buildProjectPaths values
  artifacts : ∀ access, slots .artifacts = some access →
    ∃ values, Agreed (projectPathValues host) (inspectConfigLineages host handles) values ∧
      access = ⟨handles .artifacts, buildProjectPaths values⟩
  network : ∀ network, slots .network = some network →
    ∃ values, Agreed (projectNetworkValues host) (inspectConfigLineages host handles) values ∧
      network = buildNetworkEnvironment values
  compiler : ∀ compiler, slots .compiler = some compiler →
    ∃ values settings,
      Agreed (projectCompilerValues host) (inspectConfigLineages host handles) values ∧
      SettingsGiven host (inspectConfigLineages host handles) values.settingsSource settings ∧
      compiler = buildCompilerConfiguration values settings

end Available

variable {host : Host} {handles : RawMigrationHandles}

-- ---------------------------------------------------------------------------
-- One slot at a time
-- ---------------------------------------------------------------------------

theorem must_ok {read : PropertyRead} {kind : HostValue → Bool} {value : HostValue} :
    read.must kind = .ok value ↔ read = .ok value ∧ kind value = true := by
  cases read with
  | ok found =>
    by_cases h : kind found = true
    · simp only [PropertyRead.must, h, ite_true, Except.ok.injEq]
      refine ⟨?_, fun hboth => hboth.1⟩
      rintro rfl
      exact ⟨rfl, h⟩
    · simp only [PropertyRead.must, h]
      refine ⟨by rintro ⟨⟩, ?_⟩
      rintro ⟨⟨⟩, hkind⟩
      exact absurd hkind h
  | error reason => exact ⟨by rintro ⟨⟩, by rintro ⟨⟨⟩, -⟩⟩

theorem at_ok {read : PropertyRead} {handle : LineageHandle} {path : String} {value : HostValue} :
    read.at handle path = .ok value ↔ read = .ok value := by
  cases read with
  | ok found => simp [PropertyRead.at]
  | error reason => exact ⟨by rintro ⟨⟩, by rintro ⟨⟩⟩

theorem object_supplied {value : HostValue} (h : value.isObjectLike = true) :
    supplied value = true := by
  cases value <;> first | rfl | cases h

theorem interceptFromHandle_ok {artifacts intercept : HostValue} :
    interceptFromHandle host artifacts = .ok intercept ↔
      intercept = artifacts ∧ InterceptUsable host artifacts := by
  by_cases h : artifacts.isObjectLike = true
  · simp only [interceptFromHandle, h, ite_true, Checks.bind_ok, at_ok, must_ok, Checks.pure_ok]
    constructor
    · rintro ⟨require, hrequire, contracts, hcontracts, resolver, hresolver, rfl⟩
      exact ⟨rfl, h, ⟨_, hrequire⟩, ⟨_, hcontracts⟩, ⟨_, hresolver⟩⟩
    · rintro ⟨rfl, -, ⟨require, hrequire⟩, ⟨contracts, hcontracts⟩, resolver, hresolver⟩
      exact ⟨require, hrequire, contracts, hcontracts, resolver, hresolver, rfl⟩
  · simp only [interceptFromHandle, h]
    refine ⟨by rintro ⟨⟩, ?_⟩
    rintro ⟨-, hobject, -⟩
    exact absurd hobject h

theorem artifactsFromHandles_causes {paths : Option PathScalarValues} :
    (artifactsFromHandles host handles paths).causes = [] ↔
      InterceptUsable host (handles .artifacts) := by
  by_cases hs : supplied (handles .artifacts) = true
  · cases h : interceptFromHandle host (handles .artifacts) with
    | ok intercept => simp [artifactsFromHandles, hs, h, (interceptFromHandle_ok.mp h).2]
    | error failure =>
      simp only [artifactsFromHandles, hs, h, ite_true, SlotOutcome.unbuilt]
      refine ⟨by rintro ⟨⟩, fun usable => ?_⟩
      rw [interceptFromHandle_ok.mpr ⟨rfl, usable⟩] at h
      cases h
  · simp only [artifactsFromHandles, hs, SlotOutcome.unbuilt]
    refine ⟨fun h => ?_, fun usable => absurd (object_supplied usable.object) hs⟩
    simp [missingHandles, slotRequirements, requirement, hs] at h

theorem artifactsFromHandles_value {paths : Option PathScalarValues} {access : ArtifactAccess}
    (h : (artifactsFromHandles host handles paths).value = some access) :
    ∃ values, paths = some values ∧ access = ⟨handles .artifacts, buildProjectPaths values⟩ := by
  rw [artifactsFromHandles] at h
  split at h
  · split at h
    · cases h
    · rename_i intercept hi
      obtain ⟨values, rfl, rfl⟩ := Option.map_eq_some_iff.mp h
      exact ⟨values, rfl, by rw [(interceptFromHandle_ok.mp hi).1]⟩
  · cases h

theorem chainCandidate_ok {name : HandleName} {handle : HostValue} :
    chainCandidate host handles name = .ok handle ↔
      handle = handles name ∧ ChainUsable host (handles name) := by
  rw [chainCandidate]
  split
  · rename_i hobject
    split
    · rename_i trx htrx
      have htrx := must_ok.mp htrx
      simp only [Except.ok.injEq]
      refine ⟨?_, fun h => h.1.symm⟩
      rintro rfl
      exact ⟨rfl, hobject, trx, htrx⟩
    · rename_i because htrx
      refine ⟨by rintro ⟨⟩, ?_⟩
      rintro ⟨rfl, -, trx, hread⟩
      rw [must_ok.mpr hread] at htrx
      cases htrx
  · rename_i hobject
    refine ⟨by rintro ⟨⟩, ?_⟩
    rintro ⟨rfl, h, -⟩
    exact absurd h hobject

theorem chainCandidate_usable {name : HandleName} (h : ChainUsable host (handles name)) :
    chainCandidate host handles name = .ok (handles name) := chainCandidate_ok.mpr ⟨rfl, h⟩

theorem chainCandidate_error {name : HandleName} (h : ¬ ChainUsable host (handles name)) :
    ∃ cause, chainCandidate host handles name = .error cause := by
  cases hc : chainCandidate host handles name with
  | ok handle => exact absurd (chainCandidate_ok.mp hc).2 h
  | error cause => exact ⟨cause, rfl⟩

variable (host handles) in
/-- A handle that is supplied and not usable fails the slot, and two usable ones
have to be one object. -/
theorem chainFromHandles_cases :
    (¬ ChainAvailable host handles ∧ ∃ causes, causes ≠ [] ∧
      chainFromHandles host handles = .unbuilt causes) ∨
    (ChainAvailable host handles ∧ ChainUsable host (handles .tronWrap) ∧
      ChainUsable host (handles .tronWeb) ∧ handles .tronWrap ≠ handles .tronWeb ∧
      chainFromHandles host handles = .conflicting .chainHandleConflict) ∨
    ChainAvailable host handles ∧
      ¬ (ChainUsable host (handles .tronWrap) ∧ ChainUsable host (handles .tronWeb) ∧
        handles .tronWrap ≠ handles .tronWeb) ∧
      ∃ handle, chainFromHandles host handles = .built handle := by
  by_cases hw : supplied (handles .tronWrap) = true
  · by_cases uw : ChainUsable host (handles .tronWrap)
    · by_cases ht : supplied (handles .tronWeb) = true
      · by_cases ut : ChainUsable host (handles .tronWeb)
        · have available : ChainAvailable host handles := ⟨.inl hw, fun _ => uw, fun _ => ut⟩
          by_cases hsame : handles .tronWrap = handles .tronWeb
          · refine .inr (.inr ⟨available, fun h => h.2.2 hsame, handles .tronWrap, ?_⟩)
            simp [chainFromHandles, ht, chainCandidate_usable uw, chainCandidate_usable ut,
              chainFromHandles.errorOf, Except.toOption, hsame, SlotOutcome.built]
          · refine .inr (.inl ⟨available, uw, ut, hsame, ?_⟩)
            simp [chainFromHandles, hw, ht, chainCandidate_usable uw, chainCandidate_usable ut,
              chainFromHandles.errorOf, Except.toOption, hsame]
        · obtain ⟨cause, hc⟩ := chainCandidate_error ut
          refine .inl ⟨fun h => ut (h.tronWeb ht), [cause], List.cons_ne_nil _ _, ?_⟩
          simp [chainFromHandles, hw, ht, chainCandidate_usable uw, hc, chainFromHandles.errorOf,
            List.filterMap_cons]
      · refine .inr (.inr ⟨⟨.inl hw, fun _ => uw, fun h => absurd h ht⟩,
          fun h => ht (object_supplied h.2.1.object), handles .tronWrap, ?_⟩)
        simp [chainFromHandles, hw, ht, chainCandidate_usable uw, chainFromHandles.errorOf,
          Except.toOption, SlotOutcome.built]
    · obtain ⟨cause, hc⟩ := chainCandidate_error uw
      refine .inl ⟨fun h => uw (h.tronWrap hw), ?_⟩
      by_cases ht : supplied (handles .tronWeb) = true
      · cases hother : chainCandidate host handles .tronWeb with
        | ok handle =>
          refine ⟨[cause], List.cons_ne_nil _ _, ?_⟩
          simp [chainFromHandles, hw, ht, hc, hother, chainFromHandles.errorOf,
            List.filterMap_cons]
        | error other =>
          refine ⟨[cause, other], List.cons_ne_nil _ _, ?_⟩
          simp [chainFromHandles, hw, ht, hc, hother, chainFromHandles.errorOf]
      · refine ⟨[cause], List.cons_ne_nil _ _, ?_⟩
        simp [chainFromHandles, hw, ht, hc, chainFromHandles.errorOf]
  · by_cases ht : supplied (handles .tronWeb) = true
    · by_cases ut : ChainUsable host (handles .tronWeb)
      · refine .inr (.inr ⟨⟨.inr ht, fun h => absurd h hw, fun _ => ut⟩,
          fun h => hw (object_supplied h.1.object), handles .tronWeb, ?_⟩)
        simp [chainFromHandles, hw, ht, chainCandidate_usable ut, chainFromHandles.errorOf,
          Except.toOption, SlotOutcome.built]
      · obtain ⟨cause, hc⟩ := chainCandidate_error ut
        refine .inl ⟨fun h => ut (h.tronWeb ht), [cause], List.cons_ne_nil _ _, ?_⟩
        simp [chainFromHandles, hw, ht, hc, chainFromHandles.errorOf]
    · refine .inl ⟨fun h => h.supplied.elim hw ht, missingHandles .chain handles, ?_, ?_⟩
      · simp [missingHandles, slotRequirements, requirement, hw, ht]
      · simp [chainFromHandles, hw, ht]

theorem receiptsFromHandles_causes : (receiptsFromHandles host handles).causes = [] ↔
    (handles .waitForTransactionReceipt).isFunction host = true := by
  by_cases hf : (handles .waitForTransactionReceipt).isFunction host = true
  · simp [receiptsFromHandles, hf, SlotOutcome.built]
  · by_cases hs : supplied (handles .waitForTransactionReceipt) = true
    · simp [receiptsFromHandles, hf, hs, SlotOutcome.unbuilt]
    · simp [receiptsFromHandles, hf, hs, SlotOutcome.unbuilt, missingHandles, slotRequirements,
        requirement]

theorem schedulingFromHandles_causes : (schedulingFromHandles host handles).causes = [] ↔
    (handles .deployer).isObjectLike = true ∧
      Reads (readProperty host (handles .deployer) "then") (·.isFunction host) := by
  by_cases ho : (handles .deployer).isObjectLike = true
  · cases h : (readProperty host (handles .deployer) "then").must (·.isFunction host) with
    | ok found =>
      simp only [schedulingFromHandles, object_supplied ho, ho, h, ite_true, SlotOutcome.built,
        true_iff, true_and]
      exact ⟨found, must_ok.mp h⟩
    | error because =>
      simp only [schedulingFromHandles, object_supplied ho, ho, h, ite_true, SlotOutcome.unbuilt,
        true_and]
      refine ⟨by rintro ⟨⟩, ?_⟩
      rintro ⟨found, hfound⟩
      rw [must_ok.mpr hfound] at h
      cases h
  · by_cases hs : supplied (handles .deployer) = true
    · simp [schedulingFromHandles, ho, hs, SlotOutcome.unbuilt]
    · simp [schedulingFromHandles, ho, hs, SlotOutcome.unbuilt, missingHandles, slotRequirements,
        requirement]

theorem loggerFrom_ok (owner : HostValue) (path : String) (handle : LineageHandle) :
    (∃ logger, loggerFrom host owner path handle = .ok logger) ↔ HasLogger host owner := by
  simp only [loggerFrom, Checks.bind_ok, at_ok, must_ok, Checks.pure_ok, HasLogger, Reads]
  constructor
  · rintro ⟨logger, _, ⟨hread, hobject⟩, log, hlog, -⟩
    exact ⟨_, hread, hobject, log, hlog⟩
  · rintro ⟨logger, hread, hobject, log, hlog⟩
    exact ⟨logger, _, ⟨hread, hobject⟩, log, hlog, rfl⟩

theorem quietFrom_ok {lineage : ConfigLineage} :
    (∃ quiet, quietFrom host lineage = .ok quiet) ↔ QuietReadable host lineage := by
  simp only [quietFrom, QuietReadable]
  cases readOwnProperty host lineage.config "quiet" with
  | error reason => cases reason <;> simp
  | ok value => cases value <;> simp

theorem outputFromHandles_ok {lineages : ConfigLineages} :
    (∃ slot, outputFromHandles host handles lineages = .ok slot) ↔
      OutputAvailable host handles lineages := by
  simp only [OutputAvailable, ← quietFrom_ok]
  by_cases hs : supplied (handles .deployer) = true
  · by_cases ho : (handles .deployer).isObjectLike = true
    · rw [← loggerFrom_ok (handles .deployer) "deployer.logger" .deployer]
      cases hl : lineages.viaDeployer with
      | absent => simp [outputFromHandles, hs, ho, hl]
      | malformed failure => simp [outputFromHandles, hs, ho, hl]
      | present lineage =>
        cases hlogger : loggerFrom host (handles .deployer) "deployer.logger" .deployer <;>
          cases hquiet : quietFrom host lineage <;>
          simp [outputFromHandles, hs, ho, hl, hlogger, hquiet]
    · simp [outputFromHandles, hs, ho]
  · cases hl : lineages.viaArtifacts with
    | absent => simp [outputFromHandles, hs, hl]
    | malformed failure => simp [outputFromHandles, hs, hl]
    | present lineage =>
      have hlog := @loggerFrom_ok host lineage.config (lineage.pathPrefix ++ ".logger") .artifacts
      cases hlogger : loggerFrom host lineage.config (lineage.pathPrefix ++ ".logger") .artifacts <;>
        cases hquiet : quietFrom host lineage <;>
        simp_all [outputFromHandles]

theorem outputOutcome_built {lineages : ConfigLineages}
    (h : OutputAvailable host handles lineages) :
    ∃ slot, outputOutcome host handles lineages = .built slot := by
  obtain ⟨slot, h⟩ := outputFromHandles_ok.mpr h
  exact ⟨slot, by rw [outputOutcome, h]⟩

theorem inspectLineage_absent {handle : LineageHandle} {root : HostValue} {hops : List String} :
    inspectLineage host handle root hops = .absent ↔ supplied root = false := by
  by_cases hroot : root = .undefined
  · simp [inspectLineage, hroot, supplied]
  · simp only [inspectLineage, hroot, ite_false, supplied, ne_eq, decide_not, decide_false,
      Bool.not_false, Bool.true_eq_false, iff_false]
    intro h
    split at h
    · split at h
      · cases h
      · split at h <;> cases h
    · cases h

theorem viaDeployer_absent : (inspectConfigLineages host handles).viaDeployer = .absent ↔
    supplied (handles .deployer) = false := inspectLineage_absent

theorem viaArtifacts_absent : (inspectConfigLineages host handles).viaArtifacts = .absent ↔
    supplied (handles .artifacts) = false := inspectLineage_absent

theorem outputFromHandles_noBearing {lineages : ConfigLineages}
    (hs : supplied (handles .deployer) = true)
    (h : outputFromHandles host handles lineages = .error .noBearingHandle) :
    lineages.viaDeployer = .absent := by
  cases hl : lineages.viaDeployer with
  | absent => rfl
  | malformed failure =>
    simp only [outputFromHandles, hs, hl] at h
    split at h <;> cases h
  | present lineage =>
    simp only [outputFromHandles, hs, hl] at h
    split at h
    · cases h
    · simp only [ite_true] at h
      split at h <;> cases h

theorem outputOutcome_causes :
    (outputOutcome host handles (inspectConfigLineages host handles)).causes = [] ↔
      OutputAvailable host handles (inspectConfigLineages host handles) := by
  rw [← outputFromHandles_ok]
  cases h : outputFromHandles host handles (inspectConfigLineages host handles) with
  | ok slot => simp [outputOutcome, h, SlotOutcome.built]
  | error refusal =>
    cases refusal with
    | failed failure => simp [outputOutcome, h, SlotOutcome.unbuilt]
    | noBearingHandle =>
      have hunsupplied : supplied (handles .deployer) = false := by
        cases hs : supplied (handles .deployer) with
        | false => rfl
        | true =>
          have habsent := viaDeployer_absent.mp (outputFromHandles_noBearing hs h)
          exact habsent.symm.trans hs |>.symm
      simp [outputOutcome, h, SlotOutcome.unbuilt, missingHandles, slotRequirements, requirement,
        hunsupplied]

-- ---------------------------------------------------------------------------
-- The groups and the pairing
-- ---------------------------------------------------------------------------

theorem pairingOf_eq : pairingOf host handles (inspectConfigLineages host handles) =
    checkResolverPairing host (inspectConfigLineages host handles) := by
  rw [pairingOf]
  split
  · rfl
  · rename_i hs
    rw [Bool.and_eq_true, Decidable.not_and_iff_or_not, Bool.not_eq_true, Bool.not_eq_true] at hs
    obtain h | h := hs
    · rw [checkResolverPairing, viaDeployer_absent.mpr h]
    · rw [checkResolverPairing, viaArtifacts_absent.mpr h]
      cases (inspectConfigLineages host handles).viaDeployer <;> rfl

theorem pairing_causes {lineages : ConfigLineages} :
    (checkResolverPairing host lineages).elim [] PairingProblem.causes = [] ↔
      PairingReadable host lineages := by
  cases hd : lineages.viaDeployer with
  | present viaDeployer =>
    cases ha : lineages.viaArtifacts with
    | present viaArtifacts =>
      simp only [checkResolverPairing, hd, ha, PairingReadable, ConfigLineageAttempt.present.injEq,
        Reads]
      cases hr : readOwnProperty host viaDeployer.config "resolver" with
      | error reason => simp [PairingProblem.causes, hr]
      | ok resolver =>
        by_cases ho : resolver.isObjectLike = true
        · by_cases hw : some resolver = viaArtifacts.resolver <;>
            simp [ho, hw, PairingProblem.causes, hr]
        · simp [ho, PairingProblem.causes, hr]
    | _ => simp [checkResolverPairing, hd, ha, PairingReadable]
  | _ => simp [checkResolverPairing, hd, PairingReadable]

theorem pairing_conflicts {lineages : ConfigLineages} {conflict : Inconsistency} :
    conflict ∈ (checkResolverPairing host lineages).elim [] PairingProblem.conflicts ↔
      Mispaired host lineages ∧ conflict = .artifactsNotWrappingDeployerResolver := by
  cases hd : lineages.viaDeployer with
  | present viaDeployer =>
    cases ha : lineages.viaArtifacts with
    | present viaArtifacts =>
      simp only [checkResolverPairing, hd, ha, Mispaired, ConfigLineageAttempt.present.injEq]
      cases hr : readOwnProperty host viaDeployer.config "resolver" with
      | error reason => simp [PairingProblem.conflicts, hr]
      | ok resolver =>
        by_cases ho : resolver.isObjectLike = true
        · by_cases hw : some resolver = viaArtifacts.resolver <;>
            simp [ho, hw, PairingProblem.conflicts, hr]
        · simp [ho, PairingProblem.conflicts, hr]
    | _ => simp [checkResolverPairing, hd, ha, Mispaired]
  | _ => simp [checkResolverPairing, hd, Mispaired]

/-- A group has a cause for a slot unless every lineage gave its values. -/
theorem GroupOutcome.Settles.causes {V : Type} {project : ConfigLineage → Projection V}
    {value : V → ConfigScalarField → HostValue} {fields : List ConfigScalarField}
    {group : GroupOutcome V} {lineages : ConfigLineages} {slot : SlotName}
    (h : group.Settles project value fields lineages)
    (hmissing : lineages.AllAbsent → missingHandles slot handles ≠ []) :
    group.causes slot handles = [] ↔ Constructible project lineages := by
  rw [GroupOutcome.causes, Constructible, ← h.failures]
  by_cases hf : group.failures = []
  · simp only [hf, ne_eq, not_true_eq_false, ite_false, true_and]
    by_cases hv : group.values = none ∧ group.inconsistencies = []
    · have hall := h.unsettled hv.1 hf hv.2
      simp [hv.1, hv.2, hmissing hall, hall]
    · have hnot : ¬ lineages.AllAbsent := by
        intro hall
        refine hv ⟨?_, ?_⟩
        · cases hvalues : group.values with
          | none => rfl
          | some values => exact absurd hall ((h.values values).mp hvalues).1
        · cases hc : group.inconsistencies with
          | nil => rfl
          | cons conflict rest =>
            obtain ⟨_, _, _, hd, -⟩ := (h.conflicts conflict).mp (hc ▸ List.mem_cons_self)
            exact absurd hall.1 hd.not_absent
      simp [hv, hnot]
  · simp [hf]

theorem Agreed.constructible {V : Type} {project : ConfigLineage → Projection V}
    {lineages : ConfigLineages} {values : V} (h : Agreed project lineages values) :
    Constructible project lineages :=
  ⟨⟨h.2.1.imp_right fun h => ⟨_, h⟩, h.2.2.imp_right fun h => ⟨_, h⟩⟩, h.1⟩

theorem Agreed.present_ne {V : Type} {project : ConfigLineage → Projection V}
    {lineages : ConfigLineages} {values : V} (h : Agreed project lineages values) :
    lineages.present ≠ [] := by
  obtain ⟨hall, hd, ha⟩ := h
  intro hnil
  have hno (lineage : ConfigLineage) : lineage ∉ lineages.present := hnil ▸ List.not_mem_nil
  refine hall ⟨hd.resolve_right ?_, ha.resolve_right ?_⟩
  · rintro ⟨lineage, hl, -⟩
    exact hno lineage (mem_present.mpr (.inl hl))
  · rintro ⟨lineage, hl, -⟩
    exact hno lineage (mem_present.mpr (.inr hl))

/-- Values that every lineage gives, where no field of them differs. -/
theorem GroupOutcome.Settles.value {V : Type} {project : ConfigLineage → Projection V}
    {value : V → ConfigScalarField → HostValue} {fields : List ConfigScalarField}
    {group : GroupOutcome V} {lineages : ConfigLineages}
    (h : group.Settles project value fields lineages) (hc : Constructible project lineages)
    (hagree : ∀ conflict, ¬ FieldConflict project value fields lineages conflict) :
    ∃ values, group.values = some values := by
  cases hv : group.values with
  | some values => exact ⟨values, rfl⟩
  | none =>
    refine absurd (h.unsettled hv (h.failures.mpr hc.1) ?_) hc.2
    exact List.eq_nil_iff_forall_not_mem.mpr fun conflict hmem =>
      hagree conflict ((h.conflicts conflict).mp hmem)

/-- A group is projected where it is asked for, and is empty elsewhere. -/
structure GroupOutcome.Asked {V : Type} (group : GroupOutcome V) (asked : Prop)
    (project : ConfigLineage → Projection V) (value : V → ConfigScalarField → HostValue)
    (fields : List ConfigScalarField) (lineages : ConfigLineages) : Prop where
  settles (_ : asked) : group.Settles project value fields lineages
  unasked (_ : ¬ asked) : group = .unasked

section Asked

variable {V : Type} {project : ConfigLineage → Projection V}
  {value : V → ConfigScalarField → HostValue} {fields : List ConfigScalarField}
  {group : GroupOutcome V} {lineages : ConfigLineages} {asked : Prop}

theorem GroupOutcome.Asked.conflicts (h : group.Asked asked project value fields lineages)
    {conflict : Inconsistency} : conflict ∈ group.inconsistencies ↔
      asked ∧ FieldConflict project value fields lineages conflict := by
  by_cases ha : asked
  · rw [(h.settles ha).conflicts, and_iff_right ha]
  · simp [h.unasked ha, GroupOutcome.unasked, ha]

theorem GroupOutcome.Asked.agreed (h : group.Asked asked project value fields lineages) {values : V}
    (hv : group.values = some values) : asked ∧ Agreed project lineages values := by
  by_cases ha : asked
  · exact ⟨ha, ((h.settles ha).values values).mp hv⟩
  · rw [h.unasked ha] at hv
    cases hv

theorem asked_group (lineages : ConfigLineages) (asked : Prop) [Decidable asked]
    (covers : Covers value fields) (unraised : ∀ lineage, Unraised (project lineage)) :
    ∃ group, whereAsked asked (resolveGroup lineages fields value project) = .ok group ∧
      group.Asked asked project value fields lineages := by
  by_cases ha : asked
  · obtain ⟨group, h, hs⟩ := resolveGroup_settles lineages covers unraised
    exact ⟨group, by simp [whereAsked, ha, h], fun _ => hs, fun h => absurd ha h⟩
  · exact ⟨.unasked, by simp [whereAsked, ha], fun h => absurd h ha, fun _ => rfl⟩

end Asked

structure Groups.Of (host : Host) (lineages : ConfigLineages) (requested : List SlotName)
    (groups : Groups) : Prop where
  paths : groups.paths.Asked (.paths ∈ requested ∨ .artifacts ∈ requested) (projectPathValues host)
    PathScalarValues.value pathConfigLineageFields lineages
  network : groups.network.Asked (.network ∈ requested) (projectNetworkValues host)
    NetworkScalarValues.value networkConfigLineageFields lineages
  compiler : groups.compiler.Asked (.compiler ∈ requested) (projectCompilerValues host)
    CompilerScalarValues.value compilerConfigLineageFields lineages
  settings : (groups.compiler.values = none ∧ groups.settings = none) ∨
    ∃ values outcome, groups.compiler.values = some values ∧ groups.settings = some outcome ∧
      SettingsCompared host lineages values.settingsSource outcome

theorem resolveGroups_ok (plain : host.Plain) (lineages : ConfigLineages)
    (requested : List SlotName) :
    ∃ groups, resolveGroups host lineages requested = .ok groups ∧
      groups.Of host lineages requested := by
  obtain ⟨paths, hpaths, paths_asked⟩ := asked_group lineages
    (.paths ∈ requested ∨ .artifacts ∈ requested) pathValues_cover
    (projectPathValues_unraised host)
  obtain ⟨network, hnetwork, network_asked⟩ := asked_group lineages
    (.network ∈ requested) networkValues_cover (projectNetworkValues_unraised plain)
  obtain ⟨compiler, hcompiler, compiler_asked⟩ := asked_group lineages
    (.compiler ∈ requested) compilerValues_cover (projectCompilerValues_unraised plain)
  have hgroups (settings : Option CompilerSettingsOutcome)
      (h : resolveSettings host lineages compiler.values = .ok settings) :
      resolveGroups host lineages requested = .ok ⟨paths, network, compiler, settings⟩ := by
    simp only [resolveGroups, resolvePaths, resolveNetwork, resolveCompiler, hpaths, hnetwork,
      hcompiler, h, bind, Except.bind]
    rfl
  cases hv : compiler.values with
  | none => exact ⟨_, hgroups none (by rw [hv]; rfl), paths_asked, network_asked, compiler_asked,
      .inl ⟨hv, rfl⟩⟩
  | some values =>
    obtain ⟨outcome, hc, compared⟩ := compareCompilerSettings_compared plain
      (compiler_asked.agreed hv).2.present_ne values.settingsSource
    refine ⟨_, hgroups (some outcome) ?_, paths_asked, network_asked, compiler_asked,
      .inr ⟨values, outcome, hv, rfl, compared⟩⟩
    rw [hv, resolveSettings, hc]
    rfl

theorem compilerOutcome_causes {groups : Groups} {lineages : ConfigLineages}
    {requested : List SlotName} (h : groups.Of host lineages requested)
    (asked : .compiler ∈ requested) :
    (compilerOutcome groups).causes = [] ↔ SettingsAvailable host lineages := by
  have hagreed := (h.compiler.settles asked).values
  obtain ⟨hv, hs⟩ | ⟨values, outcome, hv, hs, compared⟩ := h.settings
  · simp only [compilerOutcome, hv, hs, SlotOutcome.unbuilt, true_iff, SettingsAvailable]
    intro values agreed
    rw [← hagreed, hv] at agreed
    cases agreed
  · have havailable : SettingsAvailable host lineages ↔
        SettingsConflict host lineages values.settingsSource ∨
          ∃ settings, SettingsGiven host lineages values.settingsSource settings := by
      refine ⟨fun h => h values ((hagreed values).mp hv), fun h other agreed => ?_⟩
      rw [← hagreed, hv] at agreed
      cases agreed
      exact h
    rw [havailable]
    cases compared with
    | resolved given => simpa [compilerOutcome, hv, hs, SlotOutcome.built] using .inr ⟨_, given⟩
    | conflict differ => simp [compilerOutcome, hs, SlotOutcome.conflicting, differ]
    | failed failure agree unusable =>
      simp [compilerOutcome, hs, SlotOutcome.unbuilt, agree, unusable]

theorem compilerOutcome_conflicts {groups : Groups} {lineages : ConfigLineages}
    {requested : List SlotName} (h : groups.Of host lineages requested) {conflict : Inconsistency} :
    conflict ∈ (compilerOutcome groups).conflicts ↔ .compiler ∈ requested ∧
      (∃ values, Agreed (projectCompilerValues host) lineages values ∧
        SettingsConflict host lineages values.settingsSource) ∧
      conflict = .compilerSettingsConflict := by
  obtain ⟨hv, hs⟩ | ⟨values, outcome, hv, hs, compared⟩ := h.settings
  · simp only [compilerOutcome, hv, hs, SlotOutcome.unbuilt, List.not_mem_nil, false_iff]
    rintro ⟨asked, ⟨values, agreed, -⟩, -⟩
    rw [← (h.compiler.settles asked).values, hv] at agreed
    cases agreed
  · obtain ⟨asked, agreed⟩ := h.compiler.agreed hv
    have hdiffer : (∃ values, Agreed (projectCompilerValues host) lineages values ∧
        SettingsConflict host lineages values.settingsSource) ↔
        SettingsConflict host lineages values.settingsSource := by
      refine ⟨?_, fun h => ⟨values, agreed, h⟩⟩
      rintro ⟨other, hother, differ⟩
      rw [← (h.compiler.settles asked).values, hv] at hother
      cases hother
      exact differ
    rw [hdiffer, and_iff_right asked]
    cases compared with
    | resolved given => simp [compilerOutcome, hv, hs, SlotOutcome.built, given.not_conflict]
    | conflict differ => simp [compilerOutcome, hs, SlotOutcome.conflicting, differ]
    | failed failure agree unusable =>
      simp [compilerOutcome, hs, SlotOutcome.unbuilt, agree]

end TronUpgrades.Environment
