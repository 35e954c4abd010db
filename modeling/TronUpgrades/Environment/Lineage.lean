import TronUpgrades.Environment.Host

/-!
# Config lineages

The two ways to a TronBox Config, and how a field of one is read. A lineage that
cannot be reached and one that nobody handed over are told apart.
-/

namespace TronUpgrades.Environment

inductive ConfigScalarField
  | workingDirectory | contractsDirectory | contractsBuildDirectory | buildInfoDirectory
  | network | networkId | configuredNetworkId | «from» | feeLimit | userFeePercentage
  | originEnergyLimit | callValue | tokenValue | tokenId | signingKeyConfigured
  | resolvedVersion | family | viaLegacyFlag | versionIsHostDefault | settingsSource
  deriving DecidableEq, Repr

def pathConfigLineageFields : List ConfigScalarField :=
  [.workingDirectory, .contractsDirectory, .contractsBuildDirectory, .buildInfoDirectory]

def networkConfigLineageFields : List ConfigScalarField :=
  [.network, .networkId, .configuredNetworkId, .from, .feeLimit, .userFeePercentage,
    .originEnergyLimit, .callValue, .tokenValue, .tokenId, .signingKeyConfigured]

def compilerConfigLineageFields : List ConfigScalarField :=
  [.resolvedVersion, .family, .viaLegacyFlag, .versionIsHostDefault, .settingsSource]

inductive LineageHandle
  | deployer | artifacts
  deriving DecidableEq, Repr

def LineageHandle.name : LineageHandle → String
  | .deployer => "deployer"
  | .artifacts => "artifacts"

structure LineageReadFailure where
  handle : LineageHandle
  expectedPath : String
  because : ReadReason
  deriving DecidableEq, Repr

inductive ConfigReadFailure
  | handleMalformed (failure : LineageReadFailure)
  | invariantViolated (detail : String)
  deriving DecidableEq, Repr

inductive ConfigLineageBinding
  | liveConfig | materializedSnapshot
  deriving DecidableEq, Repr

structure ConfigLineage where
  handle : LineageHandle
  /-- The property path it was reached through. -/
  pathPrefix : String
  config : HostValue
  binding : ConfigLineageBinding
  /-- On the artifacts lineage: the resolver the intercept wraps. -/
  resolver : Option HostValue
  deriving DecidableEq, Repr

inductive ConfigLineageAttempt
  | absent
  | malformed (failure : LineageReadFailure)
  | present (lineage : ConfigLineage)
  deriving DecidableEq, Repr

structure ConfigLineages where
  viaDeployer : ConfigLineageAttempt
  viaArtifacts : ConfigLineageAttempt

inductive Inconsistency
  | configLineageField (field : ConfigScalarField) (viaDeployer viaArtifacts : HostValue)
  | artifactsNotWrappingDeployerResolver
  | chainHandleConflict
  | compilerSettingsConflict
  deriving DecidableEq, Repr

variable (host : Host)

-- ---------------------------------------------------------------------------
-- Reaching a Config
-- ---------------------------------------------------------------------------

def classifyBinding : HostValue → Option ConfigLineageBinding
  | .object id =>
    match (host.object id).getter? "working_directory" with
    | .ok (some true) => some .liveConfig
    | .ok (some false) => some .materializedSnapshot
    | _ => none
  | _ => none

/-- One hop after the other; `resolver` is the value of the artifacts' hop of
that name. -/
def followHops (handle : LineageHandle) : List String → HostValue → String → Option HostValue →
    Except LineageReadFailure (HostValue × String × Option HostValue)
  | [], owner, path, resolver => .ok (owner, path, resolver)
  | hop :: hops, owner, path, resolver =>
    let path := path ++ "." ++ hop
    match readOwnProperty host owner hop with
    | .error reason => .error ⟨handle, path, reason⟩
    | .ok next =>
      if next.isObjectLike then
        followHops handle hops next path
          (if handle = .artifacts ∧ hop = "resolver" then some next else resolver)
      else .error ⟨handle, path, .missing⟩

def inspectLineage (handle : LineageHandle) (root : HostValue) (hops : List String) :
    ConfigLineageAttempt :=
  if root = .undefined then .absent
  else if root.isObjectLike then
    match followHops host handle hops root handle.name none with
    | .error failure => .malformed failure
    | .ok (owner, path, resolver) =>
      match classifyBinding host owner with
      | none => .malformed ⟨handle, path ++ ".working_directory", .missing⟩
      | some binding => .present ⟨handle, path, owner, binding, resolver⟩
  else .malformed ⟨handle, handle.name, .missing⟩

def inspectConfigLineages (handles : RawMigrationHandles) : ConfigLineages where
  viaDeployer := inspectLineage host .deployer (handles .deployer) ["options", "options"]
  viaArtifacts := inspectLineage host .artifacts (handles .artifacts) ["resolver", "options"]

-- ---------------------------------------------------------------------------
-- Reading a field
-- ---------------------------------------------------------------------------

/-- How a projection ends early: at a `ConfigReadFailureError`, or at a throw of
the host's. -/
inductive Stop
  | failure (failure : ConfigReadFailure)
  | raised (value : HostValue)

abbrev Projection (α : Type) := Except Stop α

/-- What the `catch` of a projection lets through. -/
def caught {α : Type} : Projection α → Except HostValue (Except ConfigReadFailure α)
  | .ok a => .ok (.ok a)
  | .error (.failure failure) => .ok (.error failure)
  | .error (.raised value) => .error value

def failMalformed {α : Type} (lineage : ConfigLineage) (expectedPath : String)
    (because : ReadReason) : Projection α :=
  .error (.failure (.handleMalformed ⟨lineage.handle, expectedPath, because⟩))

def failInvariant {α : Type} (detail : String) : Projection α :=
  .error (.failure (.invariantViolated detail))

def readLineageProperty (lineage : ConfigLineage) (key : String) : Projection HostValue :=
  match readOwnProperty host lineage.config key with
  | .ok value => .ok value
  | .error reason => failMalformed lineage (lineage.pathPrefix ++ "." ++ key) reason

/-- Where a field is not of the type it has to be. -/
def failDescribed {α : Type} (value : HostValue) (detail : String → String) : Projection α :=
  match value.describe host with
  | .ok described => failInvariant (detail described)
  | .error raised => .error (.raised raised)

def requireString (value : HostValue) (field : String) : Projection String :=
  match value with
  | .string s => .ok s
  | _ => failDescribed host value fun described =>
      "Config field \"" ++ field ++ "\" must be a string, and is " ++ described ++ "."

def requireNonEmptyString (value : HostValue) (field : String) : Projection String := do
  let s ← requireString host value field
  if s = "" then failInvariant ("Config field \"" ++ field ++ "\" must not be empty.")
  else return s

def nullableString (value : HostValue) (field : String) : Projection (Option String) :=
  match value with
  | .undefined | .null => .ok none
  | .string s => .ok (some s)
  | _ => failDescribed host value fun described =>
      "Config field \"" ++ field ++ "\" must be a string or absent, and is " ++ described ++ "."

/-- The number by its text. -/
def nullableNumber (value : HostValue) (field : String) : Projection (Option String) :=
  match value with
  | .undefined | .null => .ok none
  | .number text => .ok (some text)
  | _ => failDescribed host value fun described =>
      "Config field \"" ++ field ++ "\" must be a number or absent, and is " ++ described ++ "."

def requireObjectLike (value : HostValue) (field expectation : String) : Projection HostValue :=
  if value.isObjectLike then .ok value
  else failDescribed host value fun described =>
    "Config field \"" ++ field ++ "\" must be " ++ expectation ++ ", and is " ++ described ++ "."

-- ---------------------------------------------------------------------------
-- Comparing two lineages
-- ---------------------------------------------------------------------------

/-- `value` is what a record holds under a field's name. -/
def compareConfigValues {V : Type} (value : V → ConfigScalarField → HostValue)
    (fields : List ConfigScalarField) (viaDeployer viaArtifacts : V) : List Inconsistency :=
  fields.flatMap fun field =>
    if value viaDeployer field = value viaArtifacts field then []
    else [.configLineageField field (value viaDeployer field) (value viaArtifacts field)]

inductive PairingProblem
  | notWrapping
  | unreadable (failure : ConfigReadFailure)

/-- Whether the intercept wraps the resolver of the deployer's Config. -/
def checkResolverPairing (lineages : ConfigLineages) : Option PairingProblem :=
  match lineages.viaDeployer, lineages.viaArtifacts with
  | .present viaDeployer, .present viaArtifacts =>
    match readOwnProperty host viaDeployer.config "resolver" with
    | .error reason => some (.unreadable (.handleMalformed
        ⟨viaDeployer.handle, viaDeployer.pathPrefix ++ ".resolver", reason⟩))
    | .ok deployerResolver =>
      if deployerResolver.isObjectLike then
        if some deployerResolver = viaArtifacts.resolver then none else some .notWrapping
      else some (.unreadable (.invariantViolated
        ("The deployer Config carries no resolver object, so the artifacts " ++
          "intercept cannot be verified as wrapping it.")))
  | _, _ => none

inductive CrossCheckSkipped
  | onlyDeployerLineageAvailable | onlyArtifactsLineageAvailable
  deriving DecidableEq, Repr

structure ConfigLineageProvenance where
  /-- `none` where it is absent. -/
  viaDeployer : Option ConfigLineageBinding
  viaArtifacts : Option ConfigLineageBinding
  crossChecked : Bool
  sameObject : Bool
  crossCheckSkippedBecause : Option CrossCheckSkipped
  deriving DecidableEq, Repr

def ConfigLineageAttempt.lineage? : ConfigLineageAttempt → Option ConfigLineage
  | .present lineage => some lineage
  | _ => none

def configLineageProvenance (lineages : ConfigLineages) : ConfigLineageProvenance :=
  let viaDeployer := lineages.viaDeployer.lineage?
  let viaArtifacts := lineages.viaArtifacts.lineage?
  { viaDeployer := viaDeployer.map (·.binding)
    viaArtifacts := viaArtifacts.map (·.binding)
    crossChecked := viaDeployer.isSome && viaArtifacts.isSome
    sameObject := viaDeployer.isSome && viaDeployer.map (·.config) = viaArtifacts.map (·.config)
    crossCheckSkippedBecause := match viaDeployer, viaArtifacts with
      | some _, none => some .onlyDeployerLineageAvailable
      | none, some _ => some .onlyArtifactsLineageAvailable
      | _, _ => none }

end TronUpgrades.Environment
