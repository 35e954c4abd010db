import TronUpgrades.Environment.Resolve
import TronUpgrades.Checks.Scan

/-!
# What a group of fields comes to

A group has a value exactly where each lineage handed over gives it, by itself;
each field on which two lineages differ is a conflict of its own.
-/

namespace TronUpgrades.Environment

variable {host : Host}

-- ---------------------------------------------------------------------------
-- Projections that raise nothing of the host's
-- ---------------------------------------------------------------------------

section Unraised

variable {α β : Type} {p : Projection α} {f : α → Projection β}

def Unraised (p : Projection α) : Prop := ∀ raised, p ≠ .error (.raised raised)

theorem Unraised.ok (a : α) : Unraised (.ok a : Projection α) := by
  rintro _ ⟨⟩

theorem Unraised.failure (failure : ConfigReadFailure) :
    Unraised (.error (.failure failure) : Projection α) := by
  rintro _ ⟨⟩

theorem Unraised.bind (hp : Unraised p) (hf : ∀ a, Unraised (f a)) : Unraised (p >>= f) := by
  intro raised h
  cases p with
  | ok a => exact hf a raised h
  | error stop =>
    cases h
    exact hp raised rfl

theorem Unraised.caught (hp : Unraised p) :
    (∃ failure, p = .error (.failure failure) ∧ caught p = .ok (.error failure)) ∨
      ∃ a, p = .ok a ∧ Environment.caught p = .ok (.ok a) := by
  cases p with
  | ok a => exact .inr ⟨a, rfl, rfl⟩
  | error stop =>
    cases stop with
    | failure failure => exact .inl ⟨failure, rfl, rfl⟩
    | raised raised => exact absurd rfl (hp raised)

end Unraised

section Readers

variable {lineage : ConfigLineage}

theorem readLineageProperty_unraised (key : String) :
    Unraised (readLineageProperty host lineage key) := by
  rw [readLineageProperty]
  split
  · exact .ok _
  · exact .failure _

theorem describe_ok (plain : host.Plain) (value : HostValue) :
    ∃ described, value.describe host = .ok described := by
  cases value with
  | object id =>
    obtain ⟨isArray, h⟩ := (plain id).2
    cases isArray <;> simp [HostValue.describe, h, bind, Except.bind, pure, Except.pure]
  | _ => exact ⟨_, rfl⟩

theorem failDescribed_unraised {α : Type} (plain : host.Plain) (value : HostValue)
    (detail : String → String) : Unraised (failDescribed host value detail : Projection α) := by
  obtain ⟨described, h⟩ := describe_ok plain value
  rw [failDescribed, h]
  exact .failure _

theorem requireString_unraised (plain : host.Plain) (value : HostValue) (field : String) :
    Unraised (requireString host value field) := by
  rw [requireString.eq_def]
  split
  · exact .ok _
  · exact failDescribed_unraised plain _ _

theorem requireNonEmptyString_unraised (plain : host.Plain) (value : HostValue) (field : String) :
    Unraised (requireNonEmptyString host value field) := by
  refine (requireString_unraised plain value field).bind fun s => ?_
  split
  · exact .failure _
  · exact .ok _

theorem nullableString_unraised (plain : host.Plain) (value : HostValue) (field : String) :
    Unraised (nullableString host value field) := by
  rw [nullableString.eq_def]
  split
  case h_1 | h_2 | h_3 => exact .ok _
  case h_4 => exact failDescribed_unraised plain _ _

theorem nullableNumber_unraised (plain : host.Plain) (value : HostValue) (field : String) :
    Unraised (nullableNumber host value field) := by
  rw [nullableNumber.eq_def]
  split
  case h_1 | h_2 | h_3 => exact .ok _
  case h_4 => exact failDescribed_unraised plain _ _

theorem requireObjectLike_unraised (plain : host.Plain) (value : HostValue)
    (field expectation : String) : Unraised (requireObjectLike host value field expectation) := by
  rw [requireObjectLike]
  split
  · exact .ok _
  · exact failDescribed_unraised plain _ _

theorem assertAbsolutePath_unraised (value : HostValue) (field : String) :
    Unraised (assertAbsolutePath host value field) := by
  rw [assertAbsolutePath.eq_def]
  split
  · split
    · exact .ok _
    · exact .failure _
  · exact .failure _

theorem assertSelectedNetworkIsConfigured_unraised (plain : host.Plain) (name : String) :
    Unraised (assertSelectedNetworkIsConfigured host lineage name) := by
  rw [assertSelectedNetworkIsConfigured]
  split
  · exact .failure _
  · split
    · exact .ok _
    · obtain ⟨keys, h⟩ := (plain _).1
      rw [h]
      exact .failure _
  · exact .failure _

theorem normalizeNetworkId_unraised (plain : host.Plain) (value : HostValue) (field name : String) :
    Unraised (normalizeNetworkId host value field name) := by
  rw [normalizeNetworkId.eq_def]
  split
  · split
    · exact .ok _
    · exact .failure _
  · exact requireString_unraised plain _ _

theorem signingKeyOf_unraised (entry : HostValue) (path : String) :
    Unraised (signingKeyOf host lineage entry path) := by
  rw [signingKeyOf]
  split
  · exact .failure _
  all_goals exact .ok _

theorem ownChainFrom_unraised (hops : List String) (current : HostValue) (path : String) :
    Unraised (ownChainFrom host lineage hops current path) := by
  induction hops generalizing current path with
  | nil => exact .ok _
  | cons hop hops ih =>
    rw [ownChainFrom]
    split
    · split
      · exact ih _ _
      · exact .failure _
      · exact .ok _
    · exact .ok _

theorem ownKeyCount_unraised (value : HostValue) (path : String) :
    Unraised (ownKeyCount host lineage value path) := by
  rw [ownKeyCount.eq_def]
  split
  · split
    · exact .ok _
    · exact .failure _
  · exact .ok _

theorem settingsSourceOf_unraised (plain : host.Plain) :
    Unraised (settingsSourceOf host lineage) := by
  refine (readLineageProperty_unraised _).bind fun solc => ?_
  split
  · exact .failure _
  · refine (requireObjectLike_unraised plain _ _ _).bind fun solc => ?_
    refine (ownKeyCount_unraised _ _).bind fun count => ?_
    split
    · exact .ok _
    · exact (ownChainFrom_unraised _ _ _).bind fun nested => .ok _

theorem legacyVersion_unraised (networks : HostValue) (path : String) (flags : List LegacyFlag) :
    Unraised (legacyVersion host lineage networks path flags) := by
  induction flags with
  | nil => exact .ok _
  | cons flag flags ih =>
    refine (ownChainFrom_unraised _ _ _).bind fun set => ?_
    split
    · exact .ok _
    · exact ih

theorem versionOf_unraised (networks : HostValue) : Unraised (versionOf host lineage networks) := by
  rw [versionOf]
  split
  · refine (legacyVersion_unraised _ _ _).bind fun legacy => ?_
    refine (ownChainFrom_unraised _ _ _).bind fun networkVersion => ?_
    exact (ownChainFrom_unraised _ _ _).bind fun globalVersion => .ok _
  · exact .ok _

variable (host) in
theorem projectPathValues_unraised (lineage : ConfigLineage) :
    Unraised (projectPathValues host lineage) := by
  have path (field : String) : Unraised (do
      assertAbsolutePath host (← readLineageProperty host lineage field) field) :=
    (readLineageProperty_unraised field).bind fun value => assertAbsolutePath_unraised value field
  refine (path _).bind fun root => (path _).bind fun contracts => ?_
  refine (path _).bind fun contractsBuild => (path _).bind fun buildInfo => ?_
  split
  · exact .ok _
  · exact .failure _

theorem projectNetworkValues_unraised (plain : host.Plain) (lineage : ConfigLineage) :
    Unraised (projectNetworkValues host lineage) := by
  have number (field : String) : Unraised (do
      nullableNumber host (← readLineageProperty host lineage field) field) :=
    (readLineageProperty_unraised field).bind fun value => nullableNumber_unraised plain value field
  refine (readLineageProperty_unraised _).bind fun rawName => ?_
  split
  · exact .failure _
  refine (requireNonEmptyString_unraised plain _ _).bind fun name => ?_
  refine (assertSelectedNetworkIsConfigured_unraised plain _).bind fun entry => ?_
  split
  · exact .failure _
  refine (normalizeNetworkId_unraised plain _ _ _).bind fun configuredNetworkId => ?_
  refine (signingKeyOf_unraised _ _).bind fun signingKeyConfigured => ?_
  refine (readLineageProperty_unraised _).bind fun rawId => ?_
  refine (normalizeNetworkId_unraised plain _ _ _).bind fun networkId => ?_
  refine (readLineageProperty_unraised _).bind fun rawSender => ?_
  refine (nullableString_unraised plain _ _).bind fun sender => ?_
  refine (number _).bind fun feeLimit => (number _).bind fun userFeePercentage => ?_
  refine (number _).bind fun originEnergyLimit => (number _).bind fun callValue => ?_
  exact (number _).bind fun tokenValue => (number _).bind fun tokenId => .ok _

theorem projectCompilerValues_unraised (plain : host.Plain) (lineage : ConfigLineage) :
    Unraised (projectCompilerValues host lineage) := by
  refine (ownChainFrom_unraised _ _ _).bind fun evm => ?_
  refine (readLineageProperty_unraised _).bind fun networks => ?_
  refine (versionOf_unraised _).bind fun choice => ?_
  refine (requireString_unraised plain _ _).bind fun resolvedVersion => ?_
  exact (settingsSourceOf_unraised plain).bind fun settingsSource => .ok _

end Readers

-- ---------------------------------------------------------------------------
-- A group
-- ---------------------------------------------------------------------------

section Group

variable {V : Type} (project : ConfigLineage → Projection V)
variable (value : V → ConfigScalarField → HostValue) (fields : List ConfigScalarField)

/-- The lineage is reached, and read alone it gives these values. -/
def Gives (attempt : ConfigLineageAttempt) (values : V) : Prop :=
  ∃ lineage, attempt = .present lineage ∧ project lineage = .ok values

/-- Each lineage handed over gives values. -/
def Readable (lineages : ConfigLineages) : Prop :=
  (lineages.viaDeployer = .absent ∨ ∃ values, Gives project lineages.viaDeployer values) ∧
    (lineages.viaArtifacts = .absent ∨ ∃ values, Gives project lineages.viaArtifacts values)

def ConfigLineages.AllAbsent (lineages : ConfigLineages) : Prop :=
  lineages.viaDeployer = .absent ∧ lineages.viaArtifacts = .absent

/-- Each lineage handed over gives these values, and one was handed over. -/
def Agreed (lineages : ConfigLineages) (values : V) : Prop :=
  ¬ lineages.AllAbsent ∧
    (lineages.viaDeployer = .absent ∨ Gives project lineages.viaDeployer values) ∧
    (lineages.viaArtifacts = .absent ∨ Gives project lineages.viaArtifacts values)

/-- The two lineages give one field different values. -/
def FieldConflict (lineages : ConfigLineages) (conflict : Inconsistency) : Prop :=
  ∃ viaDeployer viaArtifacts field,
    Gives project lineages.viaDeployer viaDeployer ∧
    Gives project lineages.viaArtifacts viaArtifacts ∧
    field ∈ fields ∧ value viaDeployer field ≠ value viaArtifacts field ∧
    conflict = .configLineageField field (value viaDeployer field) (value viaArtifacts field)

/-- A record holds nothing beside the fields it is compared by. -/
def Covers : Prop :=
  ∀ first second, (∀ field ∈ fields, value first field = value second field) → first = second

/-- What a group that was projected has to say of its lineages. -/
structure GroupOutcome.Settles (group : GroupOutcome V) (lineages : ConfigLineages) : Prop where
  failures : group.failures = [] ↔ Readable project lineages
  conflicts (conflict : Inconsistency) :
    conflict ∈ group.inconsistencies ↔ FieldConflict project value fields lineages conflict
  values (values : V) : group.values = some values ↔ Agreed project lineages values
  unsettled (_ : group.values = none) (_ : group.failures = []) (_ : group.inconsistencies = []) :
    lineages.AllAbsent

variable {project} {value} {fields} {attempt : ConfigLineageAttempt} {lineages : ConfigLineages}

theorem Gives.unique {first second : V} (hfirst : Gives project attempt first)
    (hsecond : Gives project attempt second) : first = second := by
  obtain ⟨lineage, rfl, hfirst⟩ := hfirst
  obtain ⟨_, ⟨⟩, hsecond⟩ := hsecond
  exact Except.ok.inj (hfirst.symm.trans hsecond)

theorem Gives.not_absent {values : V} (h : Gives project attempt values) : attempt ≠ .absent := by
  obtain ⟨lineage, rfl, -⟩ := h
  rintro ⟨⟩

theorem projectAttempt_cases (unraised : ∀ lineage, Unraised (project lineage))
    (attempt : ConfigLineageAttempt) :
    (projectAttempt project attempt = .ok none ∧ attempt = .absent) ∨
    (∃ failure, projectAttempt project attempt = .ok (some (.error failure)) ∧
      attempt ≠ .absent ∧ ∀ values, ¬ Gives project attempt values) ∨
    ∃ values, projectAttempt project attempt = .ok (some (.ok values)) ∧
      Gives project attempt values := by
  cases attempt with
  | absent => exact .inl ⟨rfl, rfl⟩
  | malformed failure =>
    refine .inr (.inl ⟨_, rfl, by rintro ⟨⟩, ?_⟩)
    rintro values ⟨_, ⟨⟩, _⟩
  | present lineage =>
    obtain ⟨failure, hp, hc⟩ | ⟨values, hp, hc⟩ := (unraised lineage).caught
    · refine .inr (.inl ⟨failure, by rw [projectAttempt, hc]; rfl, by rintro ⟨⟩, ?_⟩)
      rintro values ⟨_, ⟨⟩, h⟩
      rw [hp] at h
      cases h
    · exact .inr (.inr ⟨values, by rw [projectAttempt, hc]; rfl, lineage, rfl, hp⟩)

theorem mem_compareConfigValues {viaDeployer viaArtifacts : V} {conflict : Inconsistency} :
    conflict ∈ compareConfigValues value fields viaDeployer viaArtifacts ↔
      ∃ field ∈ fields, value viaDeployer field ≠ value viaArtifacts field ∧
        conflict = .configLineageField field (value viaDeployer field) (value viaArtifacts field) := by
  rw [compareConfigValues, List.mem_flatMap]
  refine exists_congr fun field => and_congr_right fun _ => ?_
  by_cases h : value viaDeployer field = value viaArtifacts field <;> simp [h]

theorem compareConfigValues_nil {viaDeployer viaArtifacts : V} :
    compareConfigValues value fields viaDeployer viaArtifacts = [] ↔
      ∀ field ∈ fields, value viaDeployer field = value viaArtifacts field := by
  rw [compareConfigValues, List.flatMap_eq_nil_iff]
  refine forall₂_congr fun field _ => ?_
  by_cases h : value viaDeployer field = value viaArtifacts field <;> simp [h]

/-- Where a lineage fails, the group fails and nothing is compared. -/
theorem GroupOutcome.Settles.failed {failures : List ConfigReadFailure} (hne : failures ≠ [])
    (hfail : (lineages.viaDeployer ≠ .absent ∧ ∀ values, ¬ Gives project lineages.viaDeployer values) ∨
      lineages.viaArtifacts ≠ .absent ∧ ∀ values, ¬ Gives project lineages.viaArtifacts values) :
    (⟨none, failures.eraseDups, []⟩ : GroupOutcome V).Settles project value fields lineages := by
  have hdups : failures.eraseDups ≠ [] := by
    cases failures with
    | nil => exact absurd rfl hne
    | cons failure failures => simp [List.eraseDups_cons]
  refine ⟨⟨fun h => absurd h hdups, ?_⟩, fun conflict => ⟨by rintro ⟨⟩, ?_⟩, fun values => ⟨by rintro ⟨⟩, ?_⟩,
    fun _ h _ => absurd h hdups⟩
  · rintro ⟨hd, ha⟩
    obtain ⟨hs, hno⟩ | ⟨hs, hno⟩ := hfail
    · obtain h | ⟨values, h⟩ := hd
      · exact absurd h hs
      · exact absurd h (hno values)
    · obtain h | ⟨values, h⟩ := ha
      · exact absurd h hs
      · exact absurd h (hno values)
  · rintro ⟨viaDeployer, viaArtifacts, field, hd, ha, -⟩
    obtain ⟨-, hno⟩ | ⟨-, hno⟩ := hfail
    · exact absurd hd (hno _)
    · exact absurd ha (hno _)
  · rintro ⟨-, hd, ha⟩
    obtain ⟨hs, hno⟩ | ⟨hs, hno⟩ := hfail
    · exact absurd (hd.resolve_left hs) (hno values)
    · exact absurd (ha.resolve_left hs) (hno values)

/-- Where one lineage is handed over, its values are the group's. -/
theorem GroupOutcome.Settles.single {values : V}
    (h : (Gives project lineages.viaDeployer values ∧ lineages.viaArtifacts = .absent) ∨
      lineages.viaDeployer = .absent ∧ Gives project lineages.viaArtifacts values) :
    (⟨some values, [], []⟩ : GroupOutcome V).Settles project value fields lineages := by
  refine ⟨⟨fun _ => ?_, fun _ => rfl⟩, fun conflict => ⟨by rintro ⟨⟩, ?_⟩, fun other => ?_, by rintro ⟨⟩⟩
  · obtain ⟨hd, ha⟩ | ⟨hd, ha⟩ := h
    · exact ⟨.inr ⟨_, hd⟩, .inl ha⟩
    · exact ⟨.inl hd, .inr ⟨_, ha⟩⟩
  · rintro ⟨viaDeployer, viaArtifacts, field, hd, ha, -⟩
    obtain ⟨-, hno⟩ | ⟨hno, -⟩ := h
    · exact absurd hno ha.not_absent
    · exact absurd hno hd.not_absent
  · obtain ⟨hd, ha⟩ | ⟨hd, ha⟩ := h
    · refine ⟨?_, fun hagree => ?_⟩
      · rintro ⟨⟩
        exact ⟨fun hall => hd.not_absent hall.1, .inr hd, .inl ha⟩
      · exact congrArg some (hd.unique (hagree.2.1.resolve_left hd.not_absent))
    · refine ⟨?_, fun hagree => ?_⟩
      · rintro ⟨⟩
        exact ⟨fun hall => ha.not_absent hall.2, .inl hd, .inr ha⟩
      · exact congrArg some (ha.unique (hagree.2.2.resolve_left ha.not_absent))

/-- Where both lineages give values, the group has a value if no field differs. -/
theorem GroupOutcome.Settles.both (covers : Covers value fields) {viaDeployer viaArtifacts : V}
    (hd : Gives project lineages.viaDeployer viaDeployer)
    (ha : Gives project lineages.viaArtifacts viaArtifacts) :
    (if compareConfigValues value fields viaDeployer viaArtifacts ≠ [] then
        ⟨none, [], compareConfigValues value fields viaDeployer viaArtifacts⟩
      else ⟨some viaDeployer, [], []⟩ : GroupOutcome V).Settles project value fields lineages := by
  have hreadable : Readable project lineages := ⟨.inr ⟨_, hd⟩, .inr ⟨_, ha⟩⟩
  have hconflict (conflict : Inconsistency) : FieldConflict project value fields lineages conflict ↔
      conflict ∈ compareConfigValues value fields viaDeployer viaArtifacts := by
    rw [mem_compareConfigValues]
    constructor
    · rintro ⟨first, second, field, hfirst, hsecond, h⟩
      cases hfirst.unique hd
      cases hsecond.unique ha
      exact ⟨field, h⟩
    · rintro ⟨field, h⟩
      exact ⟨_, _, field, hd, ha, h⟩
  have hagreed (values : V) : Agreed project lineages values ↔
      values = viaDeployer ∧ values = viaArtifacts := by
    constructor
    · rintro ⟨-, hd', ha'⟩
      exact ⟨(hd'.resolve_left hd.not_absent).unique hd, (ha'.resolve_left ha.not_absent).unique ha⟩
    · rintro ⟨rfl, rfl⟩
      exact ⟨fun hall => hd.not_absent hall.1, .inr hd, .inr ha⟩
  split
  case isTrue hne =>
    refine ⟨⟨fun _ => hreadable, fun _ => rfl⟩, fun conflict => (hconflict conflict).symm,
      fun values => ⟨by rintro ⟨⟩, fun h => ?_⟩, fun _ _ h => absurd h hne⟩
    obtain ⟨rfl, rfl⟩ := (hagreed values).mp h
    exact absurd (compareConfigValues_nil.mpr fun _ _ => rfl) hne
  case isFalse heq =>
    have heq := Decidable.not_not.mp heq
    have hsame := covers _ _ (compareConfigValues_nil.mp heq)
    refine ⟨⟨fun _ => hreadable, fun _ => rfl⟩, fun conflict => ?_, fun values => ?_, by rintro ⟨⟩⟩
    · rw [hconflict, heq]
    · rw [hagreed, hsame]
      simp [eq_comm]

theorem GroupOutcome.Settles.absent (h : lineages.AllAbsent) :
    (⟨none, [], []⟩ : GroupOutcome V).Settles project value fields lineages := by
  refine ⟨⟨fun _ => ⟨.inl h.1, .inl h.2⟩, fun _ => rfl⟩, fun conflict => ⟨by rintro ⟨⟩, ?_⟩,
    fun values => ⟨by rintro ⟨⟩, fun hagree => absurd h hagree.1⟩, fun _ _ _ => h⟩
  rintro ⟨_, _, _, hd, -⟩
  exact absurd h.1 hd.not_absent

/-- What the two projections are put together to. -/
def groupOf (value : V → ConfigScalarField → HostValue) (fields : List ConfigScalarField) :
    Option (Except ConfigReadFailure V) → Option (Except ConfigReadFailure V) → GroupOutcome V
  | some (.ok viaDeployer), some (.ok viaArtifacts) =>
    if compareConfigValues value fields viaDeployer viaArtifacts ≠ [] then
      ⟨none, [], compareConfigValues value fields viaDeployer viaArtifacts⟩
    else ⟨some viaDeployer, [], []⟩
  | none, none => ⟨none, [], []⟩
  | some (.ok values), none | none, some (.ok values) => ⟨some values, [], []⟩
  | deployer, artifacts => ⟨none, (failuresOf deployer ++ failuresOf artifacts).eraseDups, []⟩

theorem resolveGroup_ok {deployer artifacts : Option (Except ConfigReadFailure V)}
    (hd : projectAttempt project lineages.viaDeployer = .ok deployer)
    (ha : projectAttempt project lineages.viaArtifacts = .ok artifacts) :
    resolveGroup lineages fields value project = .ok (groupOf value fields deployer artifacts) := by
  simp only [resolveGroup, hd, ha, bind, Except.bind, pure, Except.pure]
  rcases deployer with _ | _ | viaDeployer <;> rcases artifacts with _ | _ | viaArtifacts <;>
    simp [groupOf, failuresOf, valuesOf]
  split <;> rfl

theorem resolveGroup_settles (lineages : ConfigLineages) (covers : Covers value fields)
    (unraised : ∀ lineage, Unraised (project lineage)) :
    ∃ group, resolveGroup lineages fields value project = .ok group ∧
      group.Settles project value fields lineages := by
  obtain ⟨hd, hda⟩ | ⟨failure, hd, hdf⟩ | ⟨viaDeployer, hd, hdg⟩ :=
    projectAttempt_cases unraised lineages.viaDeployer
  · obtain ⟨ha, haa⟩ | ⟨failure, ha, haf⟩ | ⟨viaArtifacts, ha, hag⟩ :=
      projectAttempt_cases unraised lineages.viaArtifacts
    · exact ⟨_, resolveGroup_ok hd ha, .absent ⟨hda, haa⟩⟩
    · exact ⟨_, resolveGroup_ok hd ha, .failed (List.cons_ne_nil _ _) (.inr haf)⟩
    · exact ⟨_, resolveGroup_ok hd ha, .single (.inr ⟨hda, hag⟩)⟩
  · obtain ⟨ha, haa⟩ | ⟨other, ha, haf⟩ | ⟨viaArtifacts, ha, hag⟩ :=
      projectAttempt_cases unraised lineages.viaArtifacts
    · exact ⟨_, resolveGroup_ok hd ha, .failed (List.cons_ne_nil _ _) (.inl hdf)⟩
    · exact ⟨_, resolveGroup_ok hd ha, .failed (List.cons_ne_nil _ _) (.inl hdf)⟩
    · exact ⟨_, resolveGroup_ok hd ha, .failed (List.cons_ne_nil _ _) (.inl hdf)⟩
  · obtain ⟨ha, haa⟩ | ⟨failure, ha, haf⟩ | ⟨viaArtifacts, ha, hag⟩ :=
      projectAttempt_cases unraised lineages.viaArtifacts
    · exact ⟨_, resolveGroup_ok hd ha, .single (.inl ⟨hdg, haa⟩)⟩
    · exact ⟨_, resolveGroup_ok hd ha, .failed (List.cons_ne_nil _ _) (.inr haf)⟩
    · exact ⟨_, resolveGroup_ok hd ha, .both covers hdg hag⟩

end Group

-- ---------------------------------------------------------------------------
-- The three groups
-- ---------------------------------------------------------------------------

theorem pathValues_cover : Covers PathScalarValues.value pathConfigLineageFields := by
  intro first second h
  have hworking := h .workingDirectory (by decide)
  have hcontracts := h .contractsDirectory (by decide)
  have hbuild := h .contractsBuildDirectory (by decide)
  have hinfo := h .buildInfoDirectory (by decide)
  cases first
  cases second
  simp only [PathScalarValues.value, HostValue.string.injEq] at hworking hcontracts hbuild hinfo
  simp only [PathScalarValues.mk.injEq]
  exact ⟨Subtype.ext hworking, Subtype.ext hcontracts, Subtype.ext hbuild, Subtype.ext hinfo⟩

/-- Where `null` stands for an absent value. -/
theorem elim_null_injective {α : Type} {spelled : α → HostValue}
    (hinj : ∀ a b, spelled a = spelled b → a = b) (hnull : ∀ a, spelled a ≠ .null)
    {first second : Option α} (h : first.elim .null spelled = second.elim .null spelled) :
    first = second := by
  cases first with
  | none =>
    cases second with
    | none => rfl
    | some b => exact absurd h.symm (hnull b)
  | some a =>
    cases second with
    | none => exact absurd h (hnull a)
    | some b => exact congrArg some (hinj a b h)

theorem networkValues_cover : Covers NetworkScalarValues.value networkConfigLineageFields := by
  intro first second h
  have hnetwork := h .network (by decide)
  have hid := h .networkId (by decide)
  have hconfigured := h .configuredNetworkId (by decide)
  have hfrom := h .from (by decide)
  have hkey := h .signingKeyConfigured (by decide)
  have number {first second : Option String}
      (h : first.elim .null HostValue.number = second.elim .null .number) : first = second :=
    elim_null_injective (fun _ _ => HostValue.number.inj) (by rintro _ ⟨⟩) h
  have hlimit := number (h .feeLimit (by decide))
  have hpercentage := number (h .userFeePercentage (by decide))
  have henergy := number (h .originEnergyLimit (by decide))
  have hcall := number (h .callValue (by decide))
  have htoken := number (h .tokenValue (by decide))
  have htokenId := number (h .tokenId (by decide))
  cases first
  cases second
  simp only [NetworkScalarValues.value, HostValue.string.injEq, HostValue.boolean.injEq] at *
  simp only [NetworkScalarValues.mk.injEq]
  exact ⟨hnetwork, hid, hconfigured,
    elim_null_injective (fun _ _ => HostValue.string.inj) (by rintro _ ⟨⟩) hfrom,
    hlimit, hpercentage, henergy, hcall, htoken, htokenId, hkey⟩

theorem compilerValues_cover : Covers CompilerScalarValues.value compilerConfigLineageFields := by
  intro first second h
  have hversion := h .resolvedVersion (by decide)
  have hfamily := h .family (by decide)
  have hflag := h .viaLegacyFlag (by decide)
  have hdefault := h .versionIsHostDefault (by decide)
  have hsource := h .settingsSource (by decide)
  have family (a b : CompilerFamily) (h : a.name = b.name) : a = b := by
    cases a <;> cases b <;> first | rfl | exact absurd h (by decide)
  have flag (a b : LegacyFlag) (h : a.name = b.name) : a = b := by
    cases a <;> cases b <;> first | rfl | exact absurd h (by decide)
  have source (a b : CompilerSettingsSource) (h : a.name = b.name) : a = b := by
    cases a <;> cases b <;> first | rfl | exact absurd h (by decide)
  cases first
  cases second
  simp only [CompilerScalarValues.value, HostValue.string.injEq, HostValue.boolean.injEq] at *
  simp only [CompilerScalarValues.mk.injEq]
  exact ⟨hversion, family _ _ hfamily,
    elim_null_injective (fun a b h => flag a b (HostValue.string.inj h)) (by rintro _ ⟨⟩) hflag,
    hdefault, source _ _ hsource⟩

-- ---------------------------------------------------------------------------
-- The solc settings
-- ---------------------------------------------------------------------------

section Settings

variable {lineages : ConfigLineages} {source : CompilerSettingsSource}

variable (host) in
/-- The value a lineage has the settings in. -/
def SettingsAt (source : CompilerSettingsSource) (lineage : ConfigLineage) (value : HostValue) :
    Prop :=
  ownChain host lineage (if source = .solc then ["solc"] else ["compilers", "solc", "settings"]) =
    .ok value

variable (host) in
/-- No settings, or one object that each lineage has, and that can be copied. -/
def SettingsGiven (lineages : ConfigLineages) (source : CompilerSettingsSource)
    (settings : SettingsCopy) : Prop :=
  (source = .none ∧ settings = .noSettings) ∨
    source ≠ .none ∧ ∃ id, settings = .copyOf (.object id) ∧ (host.object id).clone = .ok () ∧
      ∀ lineage ∈ lineages.present, SettingsAt host source lineage (.object id)

variable (host) in
/-- The two lineages have their settings in different values. -/
def SettingsConflict (lineages : ConfigLineages) (source : CompilerSettingsSource) : Prop :=
  source ≠ .none ∧ ∃ viaDeployer viaArtifacts first second,
    lineages.viaDeployer = .present viaDeployer ∧ lineages.viaArtifacts = .present viaArtifacts ∧
    SettingsAt host source viaDeployer first ∧ SettingsAt host source viaArtifacts second ∧
    first ≠ second

theorem copyFirst_cases (plain : host.Plain) (source : CompilerSettingsSource) (first : HostValue) :
    (∃ failure, agreedSettings.copyFirst host source first = .error (.failure failure) ∧
      ∀ id, first = .object id → (host.object id).clone ≠ .ok ()) ∨
    ∃ id, first = .object id ∧ (host.object id).clone = .ok () ∧
      agreedSettings.copyFirst host source first = .ok (.resolved (.copyOf first)) := by
  have refused (hno : first.isObjectLike = false) :
      ∃ failure, agreedSettings.copyFirst host source first = .error (.failure failure) := by
    obtain ⟨described, h⟩ := describe_ok plain first
    simp [agreedSettings.copyFirst, requireObjectLike, hno, failDescribed, h, failInvariant, bind,
      Except.bind]
  cases first with
  | object id =>
    cases h : (host.object id).clone with
    | ok =>
      refine .inr ⟨id, rfl, h, ?_⟩
      simp [agreedSettings.copyFirst, requireObjectLike, HostValue.isObjectLike, copyOutSettings, h,
        bind, Except.bind, pure, Except.pure]
    | error raised =>
      refine .inl ?_
      simp [agreedSettings.copyFirst, requireObjectLike, HostValue.isObjectLike, copyOutSettings, h,
        failInvariant, bind, Except.bind]
  | _ =>
    obtain ⟨failure, h⟩ := refused rfl
    exact .inl ⟨failure, h, by rintro id ⟨⟩⟩

theorem mem_present {lineage : ConfigLineage} : lineage ∈ lineages.present ↔
    lineages.viaDeployer = .present lineage ∨ lineages.viaArtifacts = .present lineage := by
  cases hd : lineages.viaDeployer <;> cases ha : lineages.viaArtifacts <;>
    simp [ConfigLineages.present, ConfigLineageAttempt.lineage?, hd, ha, eq_comm]

theorem SettingsAt.unique {lineage : ConfigLineage} {first second : HostValue}
    (hfirst : SettingsAt host source lineage first)
    (hsecond : SettingsAt host source lineage second) : first = second :=
  Except.ok.inj (hfirst.symm.trans hsecond)

theorem SettingsGiven.not_conflict {settings : SettingsCopy}
    (h : SettingsGiven host lineages source settings) : ¬ SettingsConflict host lineages source := by
  rintro ⟨hsource, viaDeployer, viaArtifacts, first, second, hd, ha, hfirst, hsecond, hne⟩
  obtain ⟨hnone, -⟩ | ⟨-, id, -, -, hall⟩ := h
  · exact hsource hnone
  · cases hfirst.unique (hall _ (mem_present.mpr (.inl hd)))
    cases hsecond.unique (hall _ (mem_present.mpr (.inr ha)))
    exact hne rfl

variable (host) in
theorem ownChain_cases (lineage : ConfigLineage) (hops : List String) :
    (∃ failure, ownChain host lineage hops = .error (.failure failure)) ∨
      ∃ value, ownChain host lineage hops = .ok value := by
  have unraised : Unraised (ownChain host lineage hops) := ownChainFrom_unraised _ _ _
  obtain ⟨failure, h, -⟩ | ⟨value, h, -⟩ := unraised.caught
  · exact .inl ⟨failure, h⟩
  · exact .inr ⟨value, h⟩

variable (host) in
/-- What the comparison answers, by what it says of the lineages. -/
inductive SettingsCompared (lineages : ConfigLineages) (source : CompilerSettingsSource) :
    CompilerSettingsOutcome → Prop
  | resolved {settings : SettingsCopy} (given : SettingsGiven host lineages source settings) :
    SettingsCompared lineages source (.resolved settings)
  | conflict (differ : SettingsConflict host lineages source) :
    SettingsCompared lineages source .conflict
  | failed (failure : ConfigReadFailure) (agree : ¬ SettingsConflict host lineages source)
      (unusable : ∀ settings, ¬ SettingsGiven host lineages source settings) :
    SettingsCompared lineages source (.failed failure)

/-- One lineage's settings decide where the others' are the same value. -/
theorem copyFirst_compared (plain : host.Plain) (hsource : source ≠ .none) {first : HostValue}
    (hat : ∀ lineage ∈ lineages.present, SettingsAt host source lineage first)
    (hne : lineages.present ≠ []) :
    (∃ failure, agreedSettings.copyFirst host source first = .error (.failure failure) ∧
      SettingsCompared host lineages source (.failed failure)) ∨
    ∃ outcome, agreedSettings.copyFirst host source first = .ok outcome ∧
      SettingsCompared host lineages source outcome := by
  obtain ⟨failure, h, hno⟩ | ⟨id, rfl, hclone, h⟩ := copyFirst_cases plain source first
  · refine .inl ⟨failure, h, .failed failure ?_ ?_⟩
    · rintro ⟨-, viaDeployer, viaArtifacts, x, y, hd, ha, hx, hy, hxy⟩
      cases hx.unique (hat _ (mem_present.mpr (.inl hd)))
      cases hy.unique (hat _ (mem_present.mpr (.inr ha)))
      exact hxy rfl
    · rintro settings (⟨hnone, -⟩ | ⟨-, id, -, hclone, hall⟩)
      · exact hsource hnone
      · obtain ⟨lineage, hl⟩ := List.exists_mem_of_ne_nil _ hne
        exact hno id ((hat lineage hl).unique (hall lineage hl)) hclone
  · exact .inr ⟨_, h, .resolved (.inr ⟨hsource, id, rfl, hclone, hat⟩)⟩

/-- Where one lineage's settings cannot be looked up, nothing is said of the other's. -/
theorem lookup_failed (hsource : source ≠ .none) {lineage : ConfigLineage}
    (hl : lineage ∈ lineages.present) (hno : ∀ value, ¬ SettingsAt host source lineage value)
    (failure : ConfigReadFailure) : SettingsCompared host lineages source (.failed failure) := by
  refine .failed failure ?_ ?_
  · rintro ⟨-, viaDeployer, viaArtifacts, x, y, hd, ha, hx, hy, -⟩
    obtain h | h := mem_present.mp hl
    · cases hd.symm.trans h
      exact hno _ hx
    · cases ha.symm.trans h
      exact hno _ hy
  · rintro settings (⟨hnone, -⟩ | ⟨-, id, -, -, hall⟩)
    · exact hsource hnone
    · exact hno _ (hall lineage hl)

theorem present_cases (lineages : ConfigLineages) :
    lineages.present = [] ∨ (∃ lineage, lineages.present = [lineage]) ∨
      ∃ viaDeployer viaArtifacts, lineages.present = [viaDeployer, viaArtifacts] ∧
        lineages.viaDeployer = .present viaDeployer ∧
        lineages.viaArtifacts = .present viaArtifacts := by
  cases hd : lineages.viaDeployer <;> cases ha : lineages.viaArtifacts <;>
    simp [ConfigLineages.present, ConfigLineageAttempt.lineage?, hd, ha]

theorem agreedSettings_compared (plain : host.Plain) (hsource : source ≠ .none)
    (hne : lineages.present ≠ []) {hops : List String}
    (hhops : hops = if source = .solc then ["solc"] else ["compilers", "solc", "settings"]) :
    (∃ failure, agreedSettings host lineages source hops = .error (.failure failure) ∧
      SettingsCompared host lineages source (.failed failure)) ∨
    ∃ outcome, agreedSettings host lineages source hops = .ok outcome ∧
      SettingsCompared host lineages source outcome := by
  have at_iff (lineage : ConfigLineage) (value : HostValue) :
      SettingsAt host source lineage value ↔ ownChain host lineage hops = .ok value := by
    rw [SettingsAt, hhops]
  have not_at {lineage : ConfigLineage} {failure : ConfigReadFailure}
      (h : ownChain host lineage hops = .error (.failure failure)) (value : HostValue) :
      ¬ SettingsAt host source lineage value := by
    rw [at_iff, h]
    rintro ⟨⟩
  obtain h | ⟨lineage, h⟩ | ⟨viaDeployer, viaArtifacts, h, hd, ha⟩ := present_cases lineages
  · exact absurd h hne
  · obtain ⟨failure, hl⟩ | ⟨value, hl⟩ := ownChain_cases host lineage hops
    · refine .inl ⟨failure, ?_, lookup_failed hsource (h ▸ List.mem_singleton_self _) (not_at hl) _⟩
      simp [agreedSettings, h, hl, bind, Except.bind]
    · have heq : agreedSettings host lineages source hops =
          agreedSettings.copyFirst host source value := by
        simp [agreedSettings, h, hl, bind, Except.bind, pure, Except.pure]
      rw [heq]
      refine copyFirst_compared plain hsource (fun other hother => ?_) hne
      rw [h, List.mem_singleton] at hother
      rw [hother, at_iff, hl]
  · obtain ⟨failure, hl⟩ | ⟨first, hfirst⟩ := ownChain_cases host viaDeployer hops
    · refine .inl ⟨failure, ?_, lookup_failed hsource (mem_present.mpr (.inl hd)) (not_at hl) _⟩
      simp [agreedSettings, h, hl, bind, Except.bind]
    obtain ⟨failure, hl⟩ | ⟨second, hsecond⟩ := ownChain_cases host viaArtifacts hops
    · refine .inl ⟨failure, ?_, lookup_failed hsource (mem_present.mpr (.inr ha)) (not_at hl) _⟩
      simp [agreedSettings, h, hl, hfirst, bind, Except.bind]
    by_cases hsame : first = second
    · subst hsame
      have heq : agreedSettings host lineages source hops =
          agreedSettings.copyFirst host source first := by
        simp [agreedSettings, h, hfirst, hsecond, bind, Except.bind, pure, Except.pure]
      rw [heq]
      refine copyFirst_compared plain hsource (fun other hother => ?_) hne
      obtain ho | ho := mem_present.mp hother
      · cases hd.symm.trans ho
        rw [at_iff, hfirst]
      · cases ha.symm.trans ho
        rw [at_iff, hsecond]
    · refine .inr ⟨.conflict, ?_, .conflict ⟨hsource, viaDeployer, viaArtifacts, first, second, hd, ha,
        (at_iff _ _).mpr hfirst, (at_iff _ _).mpr hsecond, hsame⟩⟩
      simp [agreedSettings, h, hfirst, hsecond, hsame, bind, Except.bind, pure, Except.pure]

theorem compareCompilerSettings_compared (plain : host.Plain) (hne : lineages.present ≠ [])
    (source : CompilerSettingsSource) :
    ∃ outcome, compareCompilerSettings host lineages source = .ok outcome ∧
      SettingsCompared host lineages source outcome := by
  by_cases hsource : source = .none
  · subst hsource
    exact ⟨_, rfl, .resolved (.inl ⟨rfl, rfl⟩)⟩
  obtain ⟨failure, h, hc⟩ | ⟨outcome, h, hc⟩ := agreedSettings_compared plain hsource hne rfl
  · refine ⟨_, ?_, hc⟩
    rw [compareCompilerSettings, h]
    · rfl
    · exact hsource
  · refine ⟨_, ?_, hc⟩
    rw [compareCompilerSettings, h]
    · rfl
    · exact hsource

end Settings

end TronUpgrades.Environment
