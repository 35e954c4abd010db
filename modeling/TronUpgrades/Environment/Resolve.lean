import TronUpgrades.Environment.Projections

/-!
# Resolving an environment

A resolution names the slots it needs. Every slot is built from the handles that
bear on it, or is diagnosed; the two lineages are compared before any value of
theirs is exposed.
-/

namespace TronUpgrades.Environment

-- ---------------------------------------------------------------------------
-- Slots
-- ---------------------------------------------------------------------------

inductive SlotName
  | paths | network | artifacts | chain | receipts | scheduling | output | compiler
  deriving DecidableEq, Repr

def slotNames : List SlotName :=
  [.paths, .network, .artifacts, .chain, .receipts, .scheduling, .output, .compiler]

inductive InvocationContextName
  | tronboxMigrate | tronboxTestMigrationPhase | tronboxTestMochaFiles | tronboxConsole | plainNode
  deriving DecidableEq, Repr

structure SlotRequirement where
  handles : List HandleName
  providedIn : List InvocationContextName
  absentIn : List InvocationContextName

def allContexts : List InvocationContextName :=
  [.tronboxMigrate, .tronboxTestMigrationPhase, .tronboxTestMochaFiles, .tronboxConsole, .plainNode]

def requirement (handles : List HandleName) (providedIn : List InvocationContextName) :
    SlotRequirement :=
  ⟨handles, providedIn, allContexts.filter (· ∉ providedIn)⟩

def deployerContexts : List InvocationContextName := [.tronboxMigrate, .tronboxTestMigrationPhase]

def configContexts : List InvocationContextName := deployerContexts ++ [.tronboxTestMochaFiles]

def chainContexts : List InvocationContextName := configContexts ++ [.tronboxConsole]

def slotRequirements : SlotName → SlotRequirement
  | .paths => requirement [.deployer, .artifacts] configContexts
  | .network => requirement [.deployer, .artifacts] configContexts
  | .artifacts => requirement [.artifacts] configContexts
  | .chain => requirement [.tronWrap, .tronWeb] chainContexts
  | .receipts => requirement [.waitForTransactionReceipt] configContexts
  | .scheduling => requirement [.deployer] deployerContexts
  | .output => requirement [.deployer, .artifacts] configContexts
  | .compiler => requirement [.deployer, .artifacts] configContexts

inductive UnsatisfiedCause
  | handleMissing (handle : HandleName)
  | handleMalformed (handle : HandleName) (expectedPath : String) (because : ReadReason)
  | invariantViolated (detail : String)
  deriving DecidableEq, Repr

structure UnsatisfiedSlot where
  slot : SlotName
  cause : UnsatisfiedCause
  providedIn : List InvocationContextName
  absentIn : List InvocationContextName

def unsatisfiedSlot (slot : SlotName) (cause : UnsatisfiedCause) : UnsatisfiedSlot :=
  ⟨slot, cause, (slotRequirements slot).providedIn, (slotRequirements slot).absentIn⟩

structure ArtifactAccess where
  intercept : HostValue
  /-- The candidates of a name are looked up under its build info directory. -/
  paths : ProjectPaths

inductive OutputOrigin
  | deployer | configLineage
  deriving DecidableEq, Repr

structure OutputChannelSlot where
  logger : HostValue
  origin : OutputOrigin
  hostQuietRequested : Bool

abbrev SlotShape : SlotName → Type
  | .paths => ProjectPaths
  | .network => NetworkEnvironment
  | .artifacts => ArtifactAccess
  | .chain | .receipts | .scheduling => HostValue
  | .output => OutputChannelSlot
  | .compiler => CompilerConfiguration

abbrev Slots := (slot : SlotName) → Option (SlotShape slot)

/-- What a handle had to say of a slot. -/
structure SlotOutcome (α : Type) where
  value : Option α
  causes : List UnsatisfiedCause
  conflicts : List Inconsistency

namespace SlotOutcome

variable {α : Type}

def built (value : α) : SlotOutcome α := ⟨some value, [], []⟩
def unbuilt (causes : List UnsatisfiedCause) : SlotOutcome α := ⟨none, causes, []⟩
def conflicting (conflict : Inconsistency) : SlotOutcome α := ⟨none, [], [conflict]⟩

end SlotOutcome

variable (host : Host)

/-- One cause for each bearing handle that was not supplied. -/
def missingHandles (slot : SlotName) (handles : RawMigrationHandles) : List UnsatisfiedCause :=
  ((slotRequirements slot).handles.filter fun handle => !supplied (handles handle)).map .handleMissing

def hasBearingHandle (handles : RawMigrationHandles) (requested : List SlotName) : Bool :=
  requested.any fun slot => (slotRequirements slot).handles.any fun handle => supplied (handles handle)

def LineageHandle.toHandleName : LineageHandle → HandleName
  | .deployer => .deployer
  | .artifacts => .artifacts

def toUnsatisfied : ConfigReadFailure → UnsatisfiedCause
  | .handleMalformed failure =>
    .handleMalformed failure.handle.toHandleName failure.expectedPath failure.because
  | .invariantViolated detail => .invariantViolated detail

-- ---------------------------------------------------------------------------
-- Groups of fields
-- ---------------------------------------------------------------------------

/-- No outcome carries both a disagreement and a value. -/
structure GroupOutcome (V : Type) where
  values : Option V
  failures : List ConfigReadFailure
  inconsistencies : List Inconsistency

section Groups

variable {V : Type}

/-- Of a lineage that was reached or should have been. -/
def projectAttempt (project : ConfigLineage → Projection V) :
    ConfigLineageAttempt → Except HostValue (Option (Except ConfigReadFailure V))
  | .absent => .ok none
  | .malformed failure => .ok (some (.error (.handleMalformed failure)))
  | .present lineage => do return some (← caught (project lineage))

def failuresOf : Option (Except ConfigReadFailure V) → List ConfigReadFailure
  | some (.error failure) => [failure]
  | _ => []

def valuesOf : Option (Except ConfigReadFailure V) → Option V
  | some (.ok values) => some values
  | _ => none

/-- Every lineage that is reachable has to give the values before any comparison. -/
def resolveGroup (lineages : ConfigLineages) (fields : List ConfigScalarField)
    (value : V → ConfigScalarField → HostValue) (project : ConfigLineage → Projection V) :
    Except HostValue (GroupOutcome V) := do
  let deployer ← projectAttempt project lineages.viaDeployer
  let artifacts ← projectAttempt project lineages.viaArtifacts
  let failures := failuresOf deployer ++ failuresOf artifacts
  if failures ≠ [] then return ⟨none, failures.eraseDups, []⟩
  match valuesOf deployer, valuesOf artifacts with
  | some viaDeployer, some viaArtifacts =>
    let inconsistencies := compareConfigValues value fields viaDeployer viaArtifacts
    if inconsistencies ≠ [] then return ⟨none, [], inconsistencies⟩
    return ⟨some viaDeployer, [], []⟩
  | viaDeployer, viaArtifacts => return ⟨viaDeployer <|> viaArtifacts, [], []⟩

def GroupOutcome.unasked : GroupOutcome V := ⟨none, [], []⟩

/-- A group that no slot asks for is not projected. -/
def whereAsked (asked : Bool) (group : Except HostValue (GroupOutcome V)) :
    Except HostValue (GroupOutcome V) :=
  if asked then group else .ok .unasked

/-- What a group says of a slot that it backs. -/
def GroupOutcome.causes (group : GroupOutcome V) (slot : SlotName)
    (handles : RawMigrationHandles) : List UnsatisfiedCause :=
  if group.failures ≠ [] then group.failures.map toUnsatisfied
  else if group.values.isNone && group.inconsistencies = [] then missingHandles slot handles
  else []

end Groups

-- ---------------------------------------------------------------------------
-- Handles
-- ---------------------------------------------------------------------------

/-- A value of another kind counts as missing. -/
def PropertyRead.must (kind : HostValue → Bool) : PropertyRead → PropertyRead
  | .ok value => if kind value then .ok value else .error .missing
  | .error reason => .error reason

def PropertyRead.at (handle : LineageHandle) (path : String) :
    PropertyRead → Except LineageReadFailure HostValue
  | .ok value => .ok value
  | .error because => .error ⟨handle, path, because⟩

def interceptFromHandle (artifacts : HostValue) : Except LineageReadFailure HostValue :=
  if artifacts.isObjectLike then do
    let callable method := ((readProperty host artifacts method).must (·.isFunction host)).at
      .artifacts ("artifacts." ++ method)
    let _ ← callable "require"
    let _ ← callable "contracts"
    let _ ← ((readOwnProperty host artifacts "resolver").must (·.isObjectLike)).at
      .artifacts "artifacts.resolver"
    return artifacts
  else .error ⟨.artifacts, "artifacts", .missing⟩

def artifactsFromHandles (handles : RawMigrationHandles) (paths : Option PathScalarValues) :
    SlotOutcome ArtifactAccess :=
  if supplied (handles .artifacts) then
    match interceptFromHandle host (handles .artifacts) with
    | .error failure => .unbuilt [toUnsatisfied (.handleMalformed failure)]
    | .ok intercept => ⟨paths.map fun values => ⟨intercept, buildProjectPaths values⟩, [], []⟩
  else .unbuilt (missingHandles .artifacts handles)

def HandleName.name : HandleName → String
  | .deployer => "deployer"
  | .artifacts => "artifacts"
  | .tronWrap => "tronWrap"
  | .tronWeb => "tronWeb"
  | .waitForTransactionReceipt => "waitForTransactionReceipt"

def chainCandidate (handles : RawMigrationHandles) (name : HandleName) :
    Except UnsatisfiedCause HostValue :=
  if (handles name).isObjectLike then
    match (readProperty host (handles name) "trx").must (·.isObjectLike) with
    | .ok _ => .ok (handles name)
    | .error because => .error (.handleMalformed name (name.name ++ ".trx") because)
  else .error (.handleMalformed name name.name .missing)

/-- Both names of the one object are accepted, and no preference decides between
two objects. -/
def chainFromHandles (handles : RawMigrationHandles) : SlotOutcome HostValue :=
  let candidates := [HandleName.tronWrap, .tronWeb].filter fun name => supplied (handles name)
  if candidates = [] then .unbuilt (missingHandles .chain handles)
  else
    let reads := candidates.map (chainCandidate host handles)
    let chainFailures := reads.filterMap errorOf
    let valid := reads.filterMap (·.toOption)
    if chainFailures ≠ [] then .unbuilt chainFailures
    else if valid.length = 2 ∧ handles .tronWrap ≠ handles .tronWeb then
      .conflicting .chainHandleConflict
    else ⟨valid.head?, [], []⟩
where
  errorOf : Except UnsatisfiedCause HostValue → Option UnsatisfiedCause
    | .error cause => some cause
    | .ok _ => none

def receiptsFromHandles (handles : RawMigrationHandles) : SlotOutcome HostValue :=
  let handle := handles .waitForTransactionReceipt
  if handle.isFunction host then .built handle
  else if supplied handle then
    .unbuilt [.handleMalformed .waitForTransactionReceipt "waitForTransactionReceipt" .missing]
  else .unbuilt (missingHandles .receipts handles)

/-- `then` is a prototype's. -/
def schedulingFromHandles (handles : RawMigrationHandles) : SlotOutcome HostValue :=
  let handle := handles .deployer
  if supplied handle then
    if handle.isObjectLike then
      match (readProperty host handle "then").must (·.isFunction host) with
      | .ok _ => .built handle
      | .error because => .unbuilt [.handleMalformed .deployer "deployer.then" because]
    else .unbuilt [.handleMalformed .deployer "deployer" .missing]
  else .unbuilt (missingHandles .scheduling handles)

-- ---------------------------------------------------------------------------
-- Output
-- ---------------------------------------------------------------------------

def loggerFrom (owner : HostValue) (loggerPath : String) (handle : LineageHandle) :
    Except LineageReadFailure HostValue := do
  let logger ← ((readOwnProperty host owner "logger").must (·.isObjectLike)).at handle loggerPath
  let _ ← ((readProperty host logger "log").must (·.isFunction host)).at handle
    (loggerPath ++ ".log")
  return logger

def quietFrom (lineage : ConfigLineage) : Except ConfigReadFailure Bool :=
  match readOwnProperty host lineage.config "quiet" with
  | .error .missing => .ok false
  | .error .threw => .error (.handleMalformed ⟨lineage.handle, lineage.pathPrefix ++ ".quiet", .threw⟩)
  | .ok .undefined => .ok false
  | .ok (.boolean quiet) => .ok quiet
  | .ok value => .error (.invariantViolated
      ("Config field \"quiet\" must be a boolean when present, and is of type " ++
        value.typeOf host ++ "."))

inductive OutputRefusal
  | noBearingHandle
  | failed (failure : ConfigReadFailure)

/-- The deployer's logger, else the one of the artifacts' lineage. -/
def outputFromHandles (handles : RawMigrationHandles) (lineages : ConfigLineages) :
    Except OutputRefusal OutputChannelSlot :=
  let useDeployer := supplied (handles .deployer)
  if useDeployer && !(handles .deployer).isObjectLike then
    .error (.failed (.handleMalformed ⟨.deployer, "deployer", .missing⟩))
  else
    match if useDeployer then lineages.viaDeployer else lineages.viaArtifacts with
    | .absent => .error .noBearingHandle
    | .malformed failure => .error (.failed (.handleMalformed
        ⟨if useDeployer then .deployer else .artifacts, failure.expectedPath, failure.because⟩))
    | .present lineage =>
      let logger :=
        if useDeployer then loggerFrom host (handles .deployer) "deployer.logger" .deployer
        else loggerFrom host lineage.config (lineage.pathPrefix ++ ".logger") .artifacts
      match logger, quietFrom host lineage with
      | .error failure, _ => .error (.failed (.handleMalformed failure))
      | .ok _, .error failure => .error (.failed failure)
      | .ok logger, .ok quiet =>
        .ok ⟨logger, if useDeployer then .deployer else .configLineage, quiet⟩

def outputOutcome (handles : RawMigrationHandles) (lineages : ConfigLineages) :
    SlotOutcome OutputChannelSlot :=
  match outputFromHandles host handles lineages with
  | .ok slot => .built slot
  | .error .noBearingHandle => .unbuilt (missingHandles .output handles)
  | .error (.failed failure) => .unbuilt [toUnsatisfied failure]

-- ---------------------------------------------------------------------------
-- The resolution
-- ---------------------------------------------------------------------------

structure SlotSpec where
  require : List SlotName
  optional : List SlotName

def SlotSpec.required (spec : SlotSpec) : List SlotName := spec.require.eraseDups

def SlotSpec.requested (spec : SlotSpec) : List SlotName :=
  spec.required ++ spec.optional.eraseDups.filter (· ∉ spec.required)

inductive EnvironmentError
  | absent (requested : List SlotName)
  | incomplete (unsatisfied : List UnsatisfiedSlot)
  | inconsistent (inconsistencies : List Inconsistency)
  /-- A throw of the host's that nothing guards. -/
  | raised (value : HostValue)

inductive Presence
  | present | absent
  deriving DecidableEq, Repr

structure EnvironmentProvenance where
  slots : List (SlotName × Presence)
  configLineages : ConfigLineageProvenance

structure TronBoxEnvironment where
  slots : Slots
  provenance : EnvironmentProvenance

/-- The groups of fields that the requested slots are backed by. -/
structure Groups where
  paths : GroupOutcome PathScalarValues
  network : GroupOutcome NetworkScalarValues
  compiler : GroupOutcome CompilerScalarValues
  /-- Compared where the group's own values are agreed on. -/
  settings : Option CompilerSettingsOutcome

def resolvePaths (lineages : ConfigLineages) : Except HostValue (GroupOutcome PathScalarValues) :=
  resolveGroup lineages pathConfigLineageFields PathScalarValues.value (projectPathValues host)

def resolveNetwork (lineages : ConfigLineages) :
    Except HostValue (GroupOutcome NetworkScalarValues) :=
  resolveGroup lineages networkConfigLineageFields NetworkScalarValues.value
    (projectNetworkValues host)

def resolveCompiler (lineages : ConfigLineages) :
    Except HostValue (GroupOutcome CompilerScalarValues) :=
  resolveGroup lineages compilerConfigLineageFields CompilerScalarValues.value
    (projectCompilerValues host)

def resolveSettings (lineages : ConfigLineages) :
    Option CompilerScalarValues → Except HostValue (Option CompilerSettingsOutcome)
  | none => .ok none
  | some values => do return some (← compareCompilerSettings host lineages values.settingsSource)

def resolveGroups (lineages : ConfigLineages) (requested : List SlotName) :
    Except HostValue Groups := do
  let paths ← whereAsked (.paths ∈ requested ∨ .artifacts ∈ requested) (resolvePaths host lineages)
  let network ← whereAsked (.network ∈ requested) (resolveNetwork host lineages)
  let compiler ← whereAsked (.compiler ∈ requested) (resolveCompiler host lineages)
  return ⟨paths, network, compiler, ← resolveSettings host lineages compiler.values⟩

def compilerOutcome (groups : Groups) : SlotOutcome CompilerConfiguration :=
  match groups.compiler.values, groups.settings with
  | some values, some (.resolved settings) => .built (buildCompilerConfiguration values settings)
  | _, some .conflict => .conflicting .compilerSettingsConflict
  | _, some (.failed failure) => .unbuilt [toUnsatisfied failure]
  | _, none | none, _ => .unbuilt []

/-- Every slot that was built, asked for or not. -/
def slotsOf (handles : RawMigrationHandles) (lineages : ConfigLineages) (groups : Groups) : Slots
  | .paths => groups.paths.values.map buildProjectPaths
  | .network => groups.network.values.map buildNetworkEnvironment
  | .artifacts => (artifactsFromHandles host handles groups.paths.values).value
  | .chain => (chainFromHandles host handles).value
  | .receipts => (receiptsFromHandles host handles).value
  | .scheduling => (schedulingFromHandles host handles).value
  | .output => (outputOutcome host handles lineages).value
  | .compiler => (compilerOutcome groups).value

/-- The pairing is looked at where both handles are supplied. -/
def pairingOf (handles : RawMigrationHandles) (lineages : ConfigLineages) : Option PairingProblem :=
  if supplied (handles .deployer) && supplied (handles .artifacts) then
    checkResolverPairing host lineages
  else none

def PairingProblem.causes : PairingProblem → List UnsatisfiedCause
  | .notWrapping => []
  | .unreadable failure => [toUnsatisfied failure]

def PairingProblem.conflicts : PairingProblem → List Inconsistency
  | .notWrapping => [.artifactsNotWrappingDeployerResolver]
  | .unreadable _ => []

/-- In the order in which the slots are looked at. -/
def causesOf (handles : RawMigrationHandles) (lineages : ConfigLineages) (groups : Groups) :
    List (SlotName × List UnsatisfiedCause) :=
  let pairing := (pairingOf host handles lineages).elim [] PairingProblem.causes
  [(.paths, groups.paths.causes .paths handles),
    (.artifacts, groups.paths.causes .artifacts handles),
    (.network, groups.network.causes .network handles),
    (.compiler, groups.compiler.causes .compiler handles),
    (.compiler, (compilerOutcome groups).causes),
    (.artifacts, (artifactsFromHandles host handles groups.paths.values).causes),
    (.chain, (chainFromHandles host handles).causes),
    (.receipts, (receiptsFromHandles host handles).causes),
    (.scheduling, (schedulingFromHandles host handles).causes),
    (.output, (outputOutcome host handles lineages).causes),
    (.artifacts, pairing), (.paths, pairing), (.network, pairing), (.output, pairing),
    (.compiler, pairing)]

def conflictsOf (handles : RawMigrationHandles) (lineages : ConfigLineages) (groups : Groups)
    (requested : List SlotName) : List Inconsistency :=
  groups.paths.inconsistencies ++ groups.network.inconsistencies ++
    groups.compiler.inconsistencies ++ (compilerOutcome groups).conflicts ++
    (if .chain ∈ requested then (chainFromHandles host handles).conflicts else []) ++
    (pairingOf host handles lineages).elim [] PairingProblem.conflicts

/-- The failures of slots that are required; any other slot that cannot be built
is simply absent. -/
def unsatisfiedOf (required : List SlotName) (found : List (SlotName × List UnsatisfiedCause)) :
    List UnsatisfiedSlot :=
  found.flatMap fun (slot, causes) =>
    if slot ∈ required then causes.map (unsatisfiedSlot slot) else []

def exposed (requested : List SlotName) (slots : Slots) : Slots :=
  fun slot => if slot ∈ requested then slots slot else none

def resolveEnvironment (handles : Option RawMigrationHandles) (spec : SlotSpec) :
    Except EnvironmentError TronBoxEnvironment :=
  let handles := handles.getD fun _ => .undefined
  if spec.requested ≠ [] ∧ hasBearingHandle handles spec.requested = false then
    .error (.absent spec.requested)
  else
    let lineages := inspectConfigLineages host handles
    match resolveGroups host lineages spec.requested with
    | .error raised => .error (.raised raised)
    | .ok groups =>
      let slots := exposed spec.requested (slotsOf host handles lineages groups)
      let unsatisfied := unsatisfiedOf spec.required (causesOf host handles lineages groups)
      let inconsistencies := conflictsOf host handles lineages groups spec.requested
      if unsatisfied ≠ [] then .error (.incomplete unsatisfied)
      else if inconsistencies ≠ [] then .error (.inconsistent inconsistencies)
      else
        let missing := spec.required.filter fun slot => (slots slot).isNone
        if missing ≠ [] then .error (.incomplete (missing.map (unsatisfiedSlot ·
          (.invariantViolated ("the slot was neither constructed nor diagnosed, which is a bug " ++
            "in the environment seam rather than a problem with the handles.")))))
        else .ok ⟨slots, slotNames.map fun slot =>
            (slot, if (slots slot).isSome then .present else .absent),
          configLineageProvenance lineages⟩

end TronUpgrades.Environment
