import TronUpgrades.Environment.Available

/-!
# What a resolution owes its caller

A resolution answers by what the handles can give: nothing that is required is
left out, nothing is exposed that two lineages disagree on, and further slots
that are optional change nothing of what was asked before.
-/

namespace TronUpgrades.Environment

variable {host : Host} {handles : RawMigrationHandles}

-- ---------------------------------------------------------------------------
-- All slots
-- ---------------------------------------------------------------------------

section Resolved

variable {requested : List SlotName} {groups : Groups}

theorem missing_of_absent {slot : SlotName}
    (hslot : slot = .paths ∨ slot = .artifacts ∨ slot = .network ∨ slot = .compiler)
    (h : (inspectConfigLineages host handles).AllAbsent) : missingHandles slot handles ≠ [] := by
  have hd := viaDeployer_absent.mp h.1
  have ha := viaArtifacts_absent.mp h.2
  rcases hslot with rfl | rfl | rfl | rfl <;>
    simp [missingHandles, slotRequirements, requirement, hd, ha]

theorem chainFromHandles_causes :
    (chainFromHandles host handles).causes = [] ↔ ChainAvailable host handles := by
  obtain ⟨available, causes, hne, h⟩ | ⟨available, -, -, -, h⟩ | ⟨available, -, handle, h⟩ :=
    chainFromHandles_cases host handles
  · simp [h, SlotOutcome.unbuilt, hne, available]
  · simp [h, SlotOutcome.conflicting, available]
  · simp [h, SlotOutcome.built, available]

/-- The sections diagnose a slot that is asked for where the handles cannot give it. -/
theorem undiagnosed_iff (h : groups.Of host (inspectConfigLineages host handles) requested)
    {slot : SlotName} (asked : slot ∈ requested) :
    (∀ causes, (slot, causes) ∈
      causesOf host handles (inspectConfigLineages host handles) groups → causes = []) ↔
      Available host handles slot := by
  simp only [causesOf, pairingOf_eq, List.mem_cons, Prod.mk.injEq, List.not_mem_nil, or_false]
  cases slot with
  | paths =>
    have group := (h.paths.settles (.inl asked)).causes (missing_of_absent (.inl rfl))
    simp [Available, ← group, ← pairing_causes]
  | artifacts =>
    have group := (h.paths.settles (.inr asked)).causes (missing_of_absent (.inr (.inl rfl)))
    simp [Available, ← group, ← pairing_causes, artifactsFromHandles_causes]
  | network =>
    have group := (h.network.settles asked).causes (missing_of_absent (.inr (.inr (.inl rfl))))
    simp [Available, ← group, ← pairing_causes]
  | compiler =>
    have group := (h.compiler.settles asked).causes (missing_of_absent (.inr (.inr (.inr rfl))))
    simp [Available, ← group, ← pairing_causes, compilerOutcome_causes h asked]
  | receipts => simp [Available, receiptsFromHandles_causes]
  | scheduling => simp [Available, schedulingFromHandles_causes]
  | output => simp [Available, outputOutcome_causes, ← pairing_causes]
  | chain => simp [Available, chainFromHandles_causes]

theorem chainFromHandles_conflicts {conflict : Inconsistency} :
    conflict ∈ (chainFromHandles host handles).conflicts ↔
      ChainUsable host (handles .tronWrap) ∧ ChainUsable host (handles .tronWeb) ∧
        handles .tronWrap ≠ handles .tronWeb ∧ conflict = .chainHandleConflict := by
  obtain ⟨available, causes, -, h⟩ | ⟨-, uw, ut, hne, h⟩ | ⟨-, hno, handle, h⟩ :=
    chainFromHandles_cases host handles
  · simp only [h, SlotOutcome.unbuilt, List.not_mem_nil, false_iff]
    rintro ⟨uw, ut, -⟩
    exact available ⟨.inl (object_supplied uw.object), fun _ => uw, fun _ => ut⟩
  · simp [h, SlotOutcome.conflicting, uw, ut, hne]
  · simp only [h, SlotOutcome.built, List.not_mem_nil, false_iff]
    rintro ⟨uw, ut, hne, -⟩
    exact hno ⟨uw, ut, hne⟩

/-- The sections find each disagreement, and no other. -/
theorem mem_conflictsOf (h : groups.Of host (inspectConfigLineages host handles) requested)
    {conflict : Inconsistency} :
    conflict ∈ conflictsOf host handles (inspectConfigLineages host handles) groups requested ↔
      Disagreement host handles requested conflict := by
  have hchain : conflict ∈
      (if .chain ∈ requested then (chainFromHandles host handles).conflicts else []) ↔
      .chain ∈ requested ∧ conflict ∈ (chainFromHandles host handles).conflicts := by
    split <;> simp [*]
  simp only [conflictsOf, pairingOf_eq, List.mem_append, h.paths.conflicts, h.network.conflicts,
    h.compiler.conflicts, compilerOutcome_conflicts h, hchain, chainFromHandles_conflicts,
    pairing_conflicts]
  constructor
  · rintro (((((h | h) | h) | ⟨asked, ⟨values, agreed, differ⟩, rfl⟩) | ⟨asked, uw, ut, hne, rfl⟩) |
      ⟨mispaired, rfl⟩)
    · exact .paths h.1 h.2
    · exact .network h.1 h.2
    · exact .compiler h.1 h.2
    · exact .settings asked agreed differ
    · exact .chain asked uw ut hne
    · exact .pairing mispaired
  · intro hd
    cases hd with
    | paths asked differ => exact .inl (.inl (.inl (.inl (.inl ⟨asked, differ⟩))))
    | network asked differ => exact .inl (.inl (.inl (.inl (.inr ⟨asked, differ⟩))))
    | compiler asked differ => exact .inl (.inl (.inl (.inr ⟨asked, differ⟩)))
    | settings asked agreed differ => exact .inl (.inl (.inr ⟨asked, ⟨_, agreed, differ⟩, rfl⟩))
    | chain asked uw ut hne => exact .inl (.inr ⟨asked, uw, ut, hne, rfl⟩)
    | pairing mispaired => exact .inr ⟨mispaired, rfl⟩

theorem receiptsFromHandles_built
    (h : (handles .waitForTransactionReceipt).isFunction host = true) :
    receiptsFromHandles host handles = .built (handles .waitForTransactionReceipt) := by
  simp [receiptsFromHandles, h]

theorem schedulingFromHandles_built (ho : (handles .deployer).isObjectLike = true)
    (hthen : Reads (readProperty host (handles .deployer) "then") (·.isFunction host)) :
    schedulingFromHandles host handles = .built (handles .deployer) := by
  obtain ⟨found, hfound⟩ := hthen
  have hmust := must_ok.mpr hfound
  simp only [schedulingFromHandles, object_supplied ho, ho, ite_true, hmust]

theorem artifactsFromHandles_built (usable : InterceptUsable host (handles .artifacts))
    (values : PathScalarValues) : (artifactsFromHandles host handles (some values)).value =
      some ⟨handles .artifacts, buildProjectPaths values⟩ := by
  simp [artifactsFromHandles, object_supplied usable.object,
    interceptFromHandle_ok.mpr ⟨rfl, usable⟩]

/-- What the handles can give is built where nothing disagrees. -/
theorem slotsOf_built (h : groups.Of host (inspectConfigLineages host handles) requested)
    {slot : SlotName} (asked : slot ∈ requested) (available : Available host handles slot)
    (agree : ∀ conflict, ¬ Disagreement host handles requested conflict) :
    (slotsOf host handles (inspectConfigLineages host handles) groups slot).isSome = true := by
  cases slot with
  | paths =>
    obtain ⟨values, hv⟩ := (h.paths.settles (.inl asked)).value available.1
      fun conflict differ => agree conflict (.paths (.inl asked) differ)
    simp [slotsOf, hv]
  | network =>
    obtain ⟨values, hv⟩ := (h.network.settles asked).value available.1
      fun conflict differ => agree conflict (.network asked differ)
    simp [slotsOf, hv]
  | artifacts =>
    obtain ⟨values, hv⟩ := (h.paths.settles (.inr asked)).value available.1
      fun conflict differ => agree conflict (.paths (.inr asked) differ)
    simp [slotsOf, hv, artifactsFromHandles_built available.2.1]
  | chain =>
    obtain ⟨hno, -⟩ | ⟨-, uw, ut, hne, -⟩ | ⟨-, -, handle, hc⟩ :=
      chainFromHandles_cases host handles
    · exact absurd available hno
    · exact absurd (.chain asked uw ut hne) (agree _)
    · simp [slotsOf, hc, SlotOutcome.built]
  | receipts => simp [slotsOf, receiptsFromHandles_built available, SlotOutcome.built]
  | scheduling =>
    simp [slotsOf, schedulingFromHandles_built available.1 available.2, SlotOutcome.built]
  | output =>
    obtain ⟨slot, ho⟩ := outputOutcome_built available.1
    simp [slotsOf, ho, SlotOutcome.built]
  | compiler =>
    obtain ⟨values, hv⟩ := (h.compiler.settles asked).value available.1
      fun conflict differ => agree conflict (.compiler asked differ)
    have agreed := ((h.compiler.settles asked).values values).mp hv
    obtain ⟨hnone, -⟩ | ⟨other, outcome, hother, hs, compared⟩ := h.settings
    · rw [hv] at hnone
      cases hnone
    · rw [hv] at hother
      cases hother
      cases compared with
      | resolved given => simp [slotsOf, compilerOutcome, hv, hs, SlotOutcome.built]
      | conflict differ => exact absurd (.settings asked agreed differ) (agree _)
      | failed failure noConflict unusable =>
        obtain differ | ⟨settings, given⟩ := available.2.1 values agreed
        · exact absurd differ noConflict
        · exact absurd given (unusable settings)

/-- What is built of a lineage is built of values every lineage gives. -/
theorem slotsOf_sourced (h : groups.Of host (inspectConfigLineages host handles) requested) :
    Sourced host handles (slotsOf host handles (inspectConfigLineages host handles) groups) where
  paths := by
    intro paths hp
    obtain ⟨values, hv, rfl⟩ := Option.map_eq_some_iff.mp hp
    exact ⟨values, (h.paths.agreed hv).2, rfl⟩
  artifacts := by
    intro access ha
    obtain ⟨values, hv, rfl⟩ := artifactsFromHandles_value ha
    exact ⟨values, (h.paths.agreed hv).2, rfl⟩
  network := by
    intro network hn
    obtain ⟨values, hv, rfl⟩ := Option.map_eq_some_iff.mp hn
    exact ⟨values, (h.network.agreed hv).2, rfl⟩
  compiler := by
    intro compiler hc
    obtain ⟨hv, hs⟩ | ⟨values, outcome, hv, hs, compared⟩ := h.settings
    · simp [slotsOf, compilerOutcome, hs, SlotOutcome.unbuilt] at hc
    · cases compared with
      | resolved given =>
        simp only [slotsOf, compilerOutcome, hv, hs, SlotOutcome.built, Option.some.injEq] at hc
        exact ⟨values, _, (h.compiler.agreed hv).2, given, hc.symm⟩
      | conflict differ => simp [slotsOf, compilerOutcome, hs, SlotOutcome.conflicting] at hc
      | failed failure agree unusable =>
        simp [slotsOf, compilerOutcome, hs, SlotOutcome.unbuilt] at hc

theorem Sourced.exposed {slots : Slots} (h : Sourced host handles slots) :
    Sourced host handles (exposed requested slots) := by
  have from_slots {slot : SlotName} {value : SlotShape slot}
      (hv : Environment.exposed requested slots slot = some value) : slots slot = some value := by
    rw [Environment.exposed] at hv
    split at hv
    · exact hv
    · cases hv
  exact ⟨fun paths hp => h.paths paths (from_slots hp),
    fun access ha => h.artifacts access (from_slots ha),
    fun network hn => h.network network (from_slots hn),
    fun compiler hc => h.compiler compiler (from_slots hc)⟩

end Resolved

-- ---------------------------------------------------------------------------
-- The resolution
-- ---------------------------------------------------------------------------

/-- No handle that bears on one of the slots was supplied. -/
def Unborne (handles : RawMigrationHandles) (requested : List SlotName) : Prop :=
  ∀ slot ∈ requested, ∀ handle ∈ (slotRequirements slot).handles, handles handle = .undefined

theorem hasBearingHandle_false {requested : List SlotName} :
    hasBearingHandle handles requested = false ↔ Unborne handles requested := by
  simp [hasBearingHandle, Unborne, supplied]

theorem SlotSpec.mem_required {spec : SlotSpec} {slot : SlotName} :
    slot ∈ spec.required ↔ slot ∈ spec.require := by
  rw [SlotSpec.required, List.mem_eraseDups]

theorem SlotSpec.mem_requested {spec : SlotSpec} {slot : SlotName} :
    slot ∈ spec.requested ↔ slot ∈ spec.require ∨ slot ∈ spec.optional := by
  simp only [SlotSpec.requested, List.mem_append, SlotSpec.mem_required, List.mem_filter,
    List.mem_eraseDups, decide_eq_true_iff]
  by_cases h : slot ∈ spec.require <;> simp [h]

theorem mem_unsatisfiedOf {required : List SlotName}
    {found : List (SlotName × List UnsatisfiedCause)} {slot : SlotName} :
    (∃ entry ∈ unsatisfiedOf required found, entry.slot = slot) ↔
      slot ∈ required ∧ ¬ ∀ causes, (slot, causes) ∈ found → causes = [] := by
  simp only [unsatisfiedOf, List.mem_flatMap]
  constructor
  · rintro ⟨entry, ⟨⟨other, causes⟩, hmem, hentry⟩, rfl⟩
    by_cases hr : other ∈ required
    · simp only [hr, ite_true, List.mem_map] at hentry
      obtain ⟨cause, hcause, rfl⟩ := hentry
      exact ⟨hr, fun hall => by simp [hall causes hmem] at hcause⟩
    · simp [hr] at hentry
  · rintro ⟨hr, hsome⟩
    simp only [Classical.not_forall] at hsome
    obtain ⟨causes, hmem, hne⟩ := hsome
    obtain ⟨cause, hcause⟩ := List.exists_mem_of_ne_nil _ hne
    exact ⟨unsatisfiedSlot slot cause,
      ⟨(slot, causes), hmem, by simp only [hr, ite_true]; exact List.mem_map_of_mem hcause⟩, rfl⟩

/-- What a resolution of these slots answers, by what the handles can give. -/
structure Resolution (host : Host) (handles : RawMigrationHandles) (spec : SlotSpec)
    (result : Except EnvironmentError TronBoxEnvironment) : Prop where
  absent (_ : spec.requested ≠ []) (_ : Unborne handles spec.requested) :
    result = .error (.absent spec.requested)
  /-- It names each slot that is required and missing, and no other. -/
  incomplete (_ : spec.requested = [] ∨ ¬ Unborne handles spec.requested)
      (_ : ∃ slot ∈ spec.require, ¬ Available host handles slot) :
    ∃ unsatisfied, result = .error (.incomplete unsatisfied) ∧
      ∀ slot, (∃ entry ∈ unsatisfied, entry.slot = slot) ↔
        slot ∈ spec.require ∧ ¬ Available host handles slot
  /-- It lists each disagreement, and no other. -/
  inconsistent (_ : spec.requested = [] ∨ ¬ Unborne handles spec.requested)
      (_ : ∀ slot ∈ spec.require, Available host handles slot)
      (_ : ∃ conflict, Disagreement host handles spec.requested conflict) :
    ∃ inconsistencies, result = .error (.inconsistent inconsistencies) ∧
      ∀ conflict, conflict ∈ inconsistencies ↔
        Disagreement host handles spec.requested conflict
  returns (_ : spec.requested = [] ∨ ¬ Unborne handles spec.requested)
      (_ : ∀ slot ∈ spec.require, Available host handles slot)
      (_ : ∀ conflict, ¬ Disagreement host handles spec.requested conflict) :
    ∃ environment, result = .ok environment
  sound (environment : TronBoxEnvironment) (_ : result = .ok environment) :
    (∀ slot ∈ spec.require, (environment.slots slot).isSome = true) ∧
      (∀ conflict, ¬ Disagreement host handles spec.requested conflict) ∧
      Sourced host handles environment.slots

section Answers

variable {supplied : Option RawMigrationHandles} {spec : SlotSpec} {groups : Groups}

theorem unsatisfied_iff
    (h : groups.Of host (inspectConfigLineages host handles) spec.requested) (slot : SlotName) :
    (∃ entry ∈ unsatisfiedOf spec.required
      (causesOf host handles (inspectConfigLineages host handles) groups), entry.slot = slot) ↔
      slot ∈ spec.require ∧ ¬ Available host handles slot := by
  rw [mem_unsatisfiedOf, SlotSpec.mem_required]
  exact and_congr_right fun hr => not_congr (undiagnosed_iff h (SlotSpec.mem_requested.mpr (.inl hr)))

theorem unsatisfied_nil
    (h : groups.Of host (inspectConfigLineages host handles) spec.requested) :
    unsatisfiedOf spec.required
      (causesOf host handles (inspectConfigLineages host handles) groups) = [] ↔
      ∀ slot ∈ spec.require, Available host handles slot := by
  constructor
  · intro hnil slot hr
    refine Classical.byContradiction fun hno => ?_
    obtain ⟨entry, hmem, -⟩ := (unsatisfied_iff h slot).mpr ⟨hr, hno⟩
    rw [hnil] at hmem
    cases hmem
  · intro hall
    refine List.eq_nil_iff_forall_not_mem.mpr fun entry hmem => ?_
    obtain ⟨hr, hno⟩ := (unsatisfied_iff h entry.slot).mp ⟨entry, hmem, rfl⟩
    exact hno (hall _ hr)

theorem conflicts_nil (h : groups.Of host (inspectConfigLineages host handles) spec.requested) :
    conflictsOf host handles (inspectConfigLineages host handles) groups spec.requested = [] ↔
      ∀ conflict, ¬ Disagreement host handles spec.requested conflict := by
  rw [List.eq_nil_iff_forall_not_mem]
  exact forall_congr' fun conflict => not_congr (mem_conflictsOf h)

/-- The last check finds nothing: what was diagnosed has failed before it. -/
theorem nothing_missing (h : groups.Of host (inspectConfigLineages host handles) spec.requested)
    (available : ∀ slot ∈ spec.require, Available host handles slot)
    (agree : ∀ conflict, ¬ Disagreement host handles spec.requested conflict) {slot : SlotName}
    (hr : slot ∈ spec.require) :
    (exposed spec.requested
      (slotsOf host handles (inspectConfigLineages host handles) groups) slot).isSome = true := by
  have asked : slot ∈ spec.requested := SlotSpec.mem_requested.mpr (.inl hr)
  rw [exposed, if_pos asked]
  exact slotsOf_built h asked (available slot hr) agree

end Answers

/-- A resolution's answer, beside what the handles are like where it is given. -/
inductive Answer (host : Host) (handles : RawMigrationHandles) (spec : SlotSpec) :
    Except EnvironmentError TronBoxEnvironment → Prop
  | absent (asked : spec.requested ≠ []) (unborne : Unborne handles spec.requested) :
    Answer host handles spec (.error (.absent spec.requested))
  | incomplete {unsatisfied : List UnsatisfiedSlot}
      (borne : spec.requested = [] ∨ ¬ Unborne handles spec.requested)
      (missing : ¬ ∀ slot ∈ spec.require, Available host handles slot)
      (names : ∀ slot, (∃ entry ∈ unsatisfied, entry.slot = slot) ↔
        slot ∈ spec.require ∧ ¬ Available host handles slot) :
    Answer host handles spec (.error (.incomplete unsatisfied))
  | inconsistent {inconsistencies : List Inconsistency}
      (borne : spec.requested = [] ∨ ¬ Unborne handles spec.requested)
      (available : ∀ slot ∈ spec.require, Available host handles slot)
      (differ : ¬ ∀ conflict, ¬ Disagreement host handles spec.requested conflict)
      (lists : ∀ conflict, conflict ∈ inconsistencies ↔
        Disagreement host handles spec.requested conflict) :
    Answer host handles spec (.error (.inconsistent inconsistencies))
  | returns {environment : TronBoxEnvironment} {groups : Groups}
      (borne : spec.requested = [] ∨ ¬ Unborne handles spec.requested)
      (available : ∀ slot ∈ spec.require, Available host handles slot)
      (agree : ∀ conflict, ¬ Disagreement host handles spec.requested conflict)
      (resolved : resolveGroups host (inspectConfigLineages host handles) spec.requested = .ok groups)
      (settled : groups.Of host (inspectConfigLineages host handles) spec.requested)
      (slots : environment.slots = exposed spec.requested
        (slotsOf host handles (inspectConfigLineages host handles) groups)) :
    Answer host handles spec (.ok environment)

theorem resolveEnvironment_answer (plain : host.Plain) (supplied : Option RawMigrationHandles)
    (spec : SlotSpec) : Answer host (supplied.getD fun _ => .undefined) spec
      (resolveEnvironment host supplied spec) := by
  unfold resolveEnvironment
  generalize (supplied.getD fun _ => HostValue.undefined) = handles
  by_cases habsent : spec.requested ≠ [] ∧ Unborne handles spec.requested
  · have hbears := hasBearingHandle_false.mpr habsent.2
    simp only [ne_eq, habsent.1, not_false_eq_true, hbears, and_self, ite_true]
    exact .absent habsent.1 habsent.2
  have borne : spec.requested = [] ∨ ¬ Unborne handles spec.requested :=
    Decidable.or_iff_not_imp_left.mpr fun hne hunborne => habsent ⟨hne, hunborne⟩
  obtain ⟨groups, hgroups, hof⟩ :=
    resolveGroups_ok plain (inspectConfigLineages host handles) spec.requested
  simp only [← hasBearingHandle_false] at habsent
  simp only [habsent, ite_false, hgroups]
  by_cases available : ∀ slot ∈ spec.require, Available host handles slot
  · have hunsatisfied := (unsatisfied_nil hof).mpr available
    simp only [hunsatisfied, ne_eq, not_true_eq_false, ite_false]
    by_cases agree : ∀ conflict, ¬ Disagreement host handles spec.requested conflict
    · have hmissing : spec.required.filter (fun slot => (exposed spec.requested
          (slotsOf host handles (inspectConfigLineages host handles) groups) slot).isNone) = [] := by
        refine List.filter_eq_nil_iff.mpr fun slot hr => ?_
        have hsome := nothing_missing hof available agree (SlotSpec.mem_required.mp hr)
        rw [← Option.not_isSome, hsome]
        decide
      simp only [(conflicts_nil hof).mpr agree, hmissing, not_true_eq_false, ite_false]
      exact .returns borne available agree hgroups hof rfl
    · simp only [mt (conflicts_nil hof).mp agree, not_false_eq_true, ite_true]
      exact .inconsistent borne available agree fun conflict => mem_conflictsOf hof
  · simp only [mt (unsatisfied_nil hof).mp available, ne_eq, not_false_eq_true, ite_true]
    exact .incomplete borne available (unsatisfied_iff hof)

theorem resolveEnvironment_resolution (plain : host.Plain) (supplied : Option RawMigrationHandles)
    (spec : SlotSpec) : Resolution host (supplied.getD fun _ => .undefined) spec
      (resolveEnvironment host supplied spec) := by
  have answer := resolveEnvironment_answer plain supplied spec
  generalize resolveEnvironment host supplied spec = result at answer
  cases answer with
  | absent asked unborne =>
    have hnot : ¬ (spec.requested = [] ∨ ¬ Unborne _ spec.requested) :=
      fun h => h.elim asked fun h => h unborne
    exact ⟨fun _ _ => rfl, fun h => absurd h hnot, fun h => absurd h hnot, fun h => absurd h hnot,
      by rintro _ ⟨⟩⟩
  | incomplete borne missing names =>
    exact ⟨fun asked unborne => absurd unborne (borne.resolve_left asked),
      fun _ _ => ⟨_, rfl, names⟩, fun _ h => absurd h missing, fun _ h => absurd h missing,
      by rintro _ ⟨⟩⟩
  | inconsistent borne available differ lists =>
    refine ⟨fun asked unborne => absurd unborne (borne.resolve_left asked), ?_,
      fun _ _ _ => ⟨_, rfl, lists⟩, fun _ _ h => absurd h differ, by rintro _ ⟨⟩⟩
    rintro - ⟨slot, hr, hno⟩
    exact absurd (available slot hr) hno
  | returns borne available agree resolved settled slots =>
    refine ⟨fun asked unborne => absurd unborne (borne.resolve_left asked), ?_, ?_,
      fun _ _ _ => ⟨_, rfl⟩, ?_⟩
    · rintro - ⟨slot, hr, hno⟩
      exact absurd (available slot hr) hno
    · rintro - - ⟨conflict, hd⟩
      exact absurd hd (agree conflict)
    · rintro _ ⟨⟩
      rw [slots]
      exact ⟨fun slot hr => nothing_missing settled available agree hr, agree,
        (slotsOf_sourced settled).exposed⟩

/-- An object of these own properties, that may be called. -/
def objectOf (properties : List (String × HostValue)) : HostObject where
  callable := true
  isArray := .ok false
  hasOwn key := .ok (properties.lookup key).isSome
  has key := .ok (properties.lookup key).isSome
  get key := .ok ((properties.lookup key).getD .undefined)
  getter? key := .ok ((properties.lookup key).map fun _ => false)
  keys := .ok (properties.map (·.1))
  clone := .ok ()

def bareHost : Host := ⟨fun _ => objectOf []⟩

def configOf (feeLimit : String) : HostObject := objectOf
  [("working_directory", .string "/p"), ("contracts_directory", .string "/p/contracts"),
    ("contracts_build_directory", .string "/p/build"),
    ("build_info_directory", .string "/p/build/info"), ("resolver", .object 4),
    ("network", .string "shasta"), ("networks", .object 5), ("network_id", .string "2"),
    ("from", .null), ("feeLimit", .number feeLimit), ("userFeePercentage", .number "100"),
    ("originEnergyLimit", .null), ("callValue", .null), ("tokenValue", .null), ("tokenId", .null)]

/-- A deployer and an artifacts handle with a Config each, which agree unless the
fee limits differ. -/
def migrationHost (feeLimit : String) : Host where
  object
    | 0 => objectOf [("options", .object 1)]
    | 1 => objectOf [("options", .object 2)]
    | 2 => configOf "1000"
    | 3 => configOf feeLimit
    | 4 => objectOf [("options", .object 3)]
    | 5 => objectOf [("shasta", .object 6)]
    | 6 => objectOf [("network_id", .string "2")]
    | 7 => objectOf [("resolver", .object 4)]
    | _ => objectOf []

def migrationHandles : RawMigrationHandles
  | .deployer => .object 0
  | .artifacts => .object 7
  | _ => .undefined

theorem migrationHost_plain (feeLimit : String) : (migrationHost feeLimit).Plain := by
  intro id
  simp only [migrationHost]
  split <;> exact ⟨⟨_, rfl⟩, false, rfl⟩

/-- The handles give what is asked for and agree on it, by what is found of them. -/
theorem migration_agrees (spec : SlotSpec)
    (missing : (resolveGroups (migrationHost "1000")
      (inspectConfigLineages (migrationHost "1000") migrationHandles) spec.requested).map
        (fun groups => unsatisfiedOf spec.required (causesOf (migrationHost "1000") migrationHandles
          (inspectConfigLineages (migrationHost "1000") migrationHandles) groups)) = .ok [])
    (differ : (resolveGroups (migrationHost "1000")
      (inspectConfigLineages (migrationHost "1000") migrationHandles) spec.requested).map
        (fun groups => conflictsOf (migrationHost "1000") migrationHandles
          (inspectConfigLineages (migrationHost "1000") migrationHandles) groups spec.requested) =
            .ok []) :
    (∀ slot ∈ spec.require, Available (migrationHost "1000") migrationHandles slot) ∧
      ∀ conflict, ¬ Disagreement (migrationHost "1000") migrationHandles spec.requested conflict := by
  obtain ⟨groups, hgroups, hof⟩ := resolveGroups_ok (migrationHost_plain "1000")
    (inspectConfigLineages (migrationHost "1000") migrationHandles) spec.requested
  rw [hgroups] at missing differ
  exact ⟨(unsatisfied_nil hof).mp (Except.ok.inj missing),
    (conflicts_nil hof).mp (Except.ok.inj differ)⟩

theorem migration_resolved : ∃ environment,
    resolveEnvironment (migrationHost "1000") (some migrationHandles) ⟨[.paths, .network], []⟩ =
      .ok environment ∧
      (environment.slots .paths).isSome = true ∧ (environment.slots .network).isSome = true := by
  have law := resolveEnvironment_resolution (migrationHost_plain "1000") (some migrationHandles)
    ⟨[.paths, .network], []⟩
  obtain ⟨available, agree⟩ := migration_agrees ⟨[.paths, .network], []⟩ rfl rfl
  have borne : ¬ Unborne migrationHandles (SlotSpec.mk [.paths, .network] []).requested := by
    intro h
    cases h .paths (by decide) .deployer (by decide)
  obtain ⟨environment, h⟩ := law.returns (.inr borne) available agree
  obtain ⟨given, -, -⟩ := law.sound environment h
  exact ⟨environment, h, given .paths (by decide), given .network (by decide)⟩

/-- Where nothing is requested, nothing bears on it, and the resolution returns. -/
theorem empty_request_returns : Unborne (fun _ => .undefined) (SlotSpec.mk [] []).requested ∧
    ∃ environment, resolveEnvironment bareHost none ⟨[], []⟩ = .ok environment :=
  ⟨by rintro _ ⟨⟩, _, rfl⟩

-- ---------------------------------------------------------------------------
-- Optional slots
-- ---------------------------------------------------------------------------

/-- Asking for further slots is asking for each of them. -/
theorem Disagreement.split {requested asked added : List SlotName} {conflict : Inconsistency}
    (hsub : ∀ slot ∈ requested, slot ∈ asked ∨ slot ∈ added)
    (h : Disagreement host handles requested conflict) :
    Disagreement host handles asked conflict ∨ Disagreement host handles added conflict := by
  cases h with
  | paths hasked differ =>
    obtain h | h := hasked
    · exact (hsub _ h).imp (fun h => .paths (.inl h) differ) fun h => .paths (.inl h) differ
    · exact (hsub _ h).imp (fun h => .paths (.inr h) differ) fun h => .paths (.inr h) differ
  | network hasked differ => exact (hsub _ hasked).imp (.network · differ) (.network · differ)
  | compiler hasked differ => exact (hsub _ hasked).imp (.compiler · differ) (.compiler · differ)
  | settings hasked agreed differ =>
    exact (hsub _ hasked).imp (.settings · agreed differ) (.settings · agreed differ)
  | chain hasked uw ut hne => exact (hsub _ hasked).imp (.chain · uw ut hne) (.chain · uw ut hne)
  | pairing mispaired => exact .inl (.pairing mispaired)

theorem whereAsked_eq {V : Type} {asked : Bool} {found : GroupOutcome V}
    {resolved : Except HostValue (GroupOutcome V)} (ha : asked = true)
    (h : whereAsked asked resolved = .ok found) : resolved = .ok found := by
  rwa [whereAsked, if_pos ha] at h

/-- What a slot is built of does not depend on what else is asked for. -/
theorem slotsOf_congr {lineages : ConfigLineages} {asked further : List SlotName}
    {groups others : Groups} (hsub : ∀ slot ∈ asked, slot ∈ further)
    (h : resolveGroups host lineages asked = .ok groups)
    (h' : resolveGroups host lineages further = .ok others) {slot : SlotName} (hslot : slot ∈ asked) :
    slotsOf host handles lineages others slot = slotsOf host handles lineages groups slot := by
  simp only [resolveGroups, Checks.bind_ok, Checks.pure_ok] at h h'
  obtain ⟨paths, hpaths, network, hnetwork, compiler, hcompiler, settings, hsettings, rfl⟩ := h
  obtain ⟨paths', hpaths', network', hnetwork', compiler', hcompiler', settings', hsettings', rfl⟩ := h'
  have same {V : Type} {first second : GroupOutcome V} {p q : Bool}
      {resolved : Except HostValue (GroupOutcome V)} (hp : p = true) (hq : q = true)
      (hfirst : whereAsked p resolved = .ok first) (hsecond : whereAsked q resolved = .ok second) :
      second = first :=
    Except.ok.inj ((whereAsked_eq hq hsecond).symm.trans (whereAsked_eq hp hfirst))
  cases slot with
  | paths =>
    rw [slotsOf, slotsOf, same (by simp [hslot]) (by simp [hsub _ hslot]) hpaths hpaths']
  | artifacts =>
    rw [slotsOf, slotsOf, same (by simp [hslot]) (by simp [hsub _ hslot]) hpaths hpaths']
  | network =>
    rw [slotsOf, slotsOf, same (by simp [hslot]) (by simp [hsub _ hslot]) hnetwork hnetwork']
  | compiler =>
    cases same (by simp [hslot]) (by simp [hsub _ hslot]) hcompiler hcompiler'
    cases Except.ok.inj (hsettings.symm.trans hsettings')
    rfl
  | chain | receipts | scheduling | output => rfl

/-- Further optional slots leave a resolution that returned as it is, unless the
handles disagree on what those slots are built of. -/
theorem optional_slots_unobtrusive (plain : host.Plain) (supplied : Option RawMigrationHandles)
    (spec : SlotSpec) (added : List SlotName) {environment : TronBoxEnvironment}
    (returned : resolveEnvironment host supplied spec = .ok environment)
    (borne : spec.requested ≠ [] ∨ added = [] ∨ ¬ Unborne (supplied.getD fun _ => .undefined) added)
    (agree : ∀ conflict,
      ¬ Disagreement host (supplied.getD fun _ => .undefined) added conflict) :
    ∃ extended,
      resolveEnvironment host supplied ⟨spec.require, spec.optional ++ added⟩ = .ok extended ∧
      ∀ slot ∈ spec.requested, extended.slots slot = environment.slots slot := by
  have before := resolveEnvironment_answer plain supplied spec
  have after := resolveEnvironment_answer plain supplied ⟨spec.require, spec.optional ++ added⟩
  generalize supplied.getD (fun _ => HostValue.undefined) = handles at *
  rw [returned] at before
  cases before with
  | returns borne' available hagree resolved settled slots =>
  have hmem (slot : SlotName) :
      slot ∈ (SlotSpec.mk spec.require (spec.optional ++ added)).requested ↔
        slot ∈ spec.requested ∨ slot ∈ added := by
    simp only [SlotSpec.mem_requested, List.mem_append, or_assoc]
  generalize resolveEnvironment host supplied ⟨spec.require, spec.optional ++ added⟩ = result at after
  cases after with
  | absent asked unborne =>
    have hspec : Unborne handles spec.requested :=
      fun slot hslot => unborne slot ((hmem slot).mpr (.inl hslot))
    have hadded : Unborne handles added :=
      fun slot hslot => unborne slot ((hmem slot).mpr (.inr hslot))
    have hnone : spec.requested = [] := borne'.resolve_right fun h => h hspec
    obtain h | rfl | h := borne
    · exact absurd hnone h
    · refine absurd (List.eq_nil_iff_forall_not_mem.mpr fun slot hslot => ?_) asked
      obtain h | h := (hmem slot).mp hslot
      · rw [hnone] at h
        cases h
      · cases h
    · exact absurd hadded h
  | incomplete _ missing => exact absurd available missing
  | inconsistent _ _ differ =>
    refine absurd (fun conflict hd => ?_) differ
    exact (hd.split fun slot hslot => (hmem slot).mp hslot).elim (hagree conflict) (agree conflict)
  | returns _ _ _ resolved' settled' slots' =>
    refine ⟨_, rfl, fun slot hslot => ?_⟩
    rw [slots, slots', exposed, exposed, if_pos hslot, if_pos ((hmem slot).mpr (.inl hslot))]
    exact slotsOf_congr (fun slot h => (hmem slot).mpr (.inl h)) resolved resolved' hslot

/-- The network is asked for beside the paths. -/
theorem network_beside_paths : ∃ environment extended,
    resolveEnvironment (migrationHost "1000") (some migrationHandles) ⟨[.paths], []⟩ =
      .ok environment ∧
    resolveEnvironment (migrationHost "1000") (some migrationHandles) ⟨[.paths], [] ++ [.network]⟩ =
      .ok extended ∧ extended.slots .paths = environment.slots .paths := by
  obtain ⟨-, agree⟩ := migration_agrees ⟨[], [.network]⟩ rfl rfl
  obtain ⟨extended, h, same⟩ := optional_slots_unobtrusive (migrationHost_plain "1000")
    (some migrationHandles) ⟨[.paths], []⟩ [.network] rfl (.inl (List.cons_ne_nil _ _)) agree
  exact ⟨_, extended, rfl, h, same .paths (List.mem_singleton_self _)⟩

/-- What the further slot is built of has to be agreed on. -/
theorem network_between_paths :
    (∃ environment, resolveEnvironment (migrationHost "2000") (some migrationHandles)
      ⟨[.paths], []⟩ = .ok environment) ∧
    resolveEnvironment (migrationHost "2000") (some migrationHandles) ⟨[.paths], [.network]⟩ =
      .error (.inconsistent [.configLineageField .feeLimit (.number "1000") (.number "2000")]) :=
  ⟨⟨_, rfl⟩, rfl⟩

/-- Only a slot that is asked for can be asked for in vain. -/
theorem optional_alone_absent :
    (∃ environment, resolveEnvironment bareHost none ⟨[], []⟩ = .ok environment) ∧
      resolveEnvironment bareHost none ⟨[], [.paths]⟩ = .error (.absent [.paths]) :=
  ⟨⟨_, rfl⟩, rfl⟩

end TronUpgrades.Environment
