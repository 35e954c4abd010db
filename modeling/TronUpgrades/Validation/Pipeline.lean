import TronUpgrades.Validation.ImportGraph
import TronUpgrades.Validation.Layout

/-!
# The validation pipeline

From an artifact's name to the input its validation reads, or a refusal. The
closure comes from the sources on disk, everything handed on from the record
that verified against the artifact.
-/

namespace TronUpgrades.Validation

open Json Keyed Posix

-- ---------------------------------------------------------------------------
-- The supported compilers
-- ---------------------------------------------------------------------------

/-- `/^\d+\.\d+\.\d+$/` -/
def isVersionTriple (version : List Char) : Bool :=
  let parts := version.splitOn '.'
  parts.length = 3 && parts.all fun part => part ≠ [] && part.all Text.isDigit

def numberOf (part : List Char) : Nat :=
  part.foldl (fun value c => 10 * value + (c.toNat - '0'.toNat)) 0

/-- Part by part, a missing one as zero. -/
def compareVersions (left right : List Char) : Ordering :=
  let leftParts := (left.splitOn '.').map numberOf
  let rightParts := (right.splitOn '.').map numberOf
  ((List.range (leftParts.length.max rightParts.length)).map fun index =>
    compare (leftParts.getD index 0) (rightParts.getD index 0)).foldr Ordering.then .eq

namespace SupportedSolc

def min : List Char := "0.8.0".toList
def max : List Char := "0.8.26".toList

end SupportedSolc

def isSupportedSolcVersion (version : String) : Bool :=
  isVersionTriple version.toList && (compareVersions version.toList SupportedSolc.min).isGE &&
    (compareVersions version.toList SupportedSolc.max).isLE

-- ---------------------------------------------------------------------------
-- Causes
-- ---------------------------------------------------------------------------

inductive LegacyFlag
  | useZeroFourCompiler | useZeroFiveCompiler
  deriving DecidableEq, Repr

inductive ArtifactRecordField
  | compilerVersion | source | sourcePath | bytecode | deployedBytecode
  deriving DecidableEq, Repr

def artifactFieldsVerifiedSince := "4.8.0"

inductive LibraryNameBand
  | from37To38 | from39
  deriving DecidableEq, Repr

inductive Cause
  | compilerUnsupported (resolvedVersion : String) (viaLegacyFlag : Option LegacyFlag)
  | source (cause : SourceCause)
  | artifactShapeUnsupported (contract : String) (missingField : ArtifactRecordField)
      (providedSince : String)
  | buildRecordAbsent (because : AbsentBecause)
  | buildRecordStale (rejected : List BuildRecordRejection)
  | libraryNameUnsupported (libraryName : String) (length : Nat) (band : LibraryNameBand)
  deriving DecidableEq, Repr

inductive Disposition
  | refuse | proceedReduced
  deriving DecidableEq, Repr

/-- The one policy table: every cause refuses. -/
def policy : Cause → Disposition
  | .compilerUnsupported _ _ => .refuse
  | .source _ => .refuse
  | .artifactShapeUnsupported _ _ _ => .refuse
  | .buildRecordAbsent _ => .refuse
  | .buildRecordStale _ => .refuse
  | .libraryNameUnsupported _ _ _ => .refuse

-- ---------------------------------------------------------------------------
-- What is produced
-- ---------------------------------------------------------------------------

structure PartitionRecord where
  target : String
  closure : List String

structure InputProvenance where
  gate : FreshGate
  compilerLongVersion : String
  inputFile : String
  partition : PartitionRecord
  sourceKeys : List String

structure ValidationInput where
  solcInput : SolcStandardInput
  solcOutput : SolcStandardOutput
  solcVersion : String
  fidelity : LayoutFidelity
  provenance : InputProvenance

/-- What is stated beside an input. -/
inductive Degraded
  | storageLayoutUnavailable (name : String)
  | namespacedAstOnly (name : String) (namespaces : List String)
  deriving DecidableEq, Repr

inductive Outcome
  | input (input : ValidationInput) (degraded : List Degraded)
  | refused (cause : Cause)

/-- No cause arises with an input in hand, so none can proceed. -/
def dispose (cause : Cause) : Except Raised Outcome :=
  match policy cause with
  | .refuse => .ok (.refused cause)
  | .proceedReduced => .error (.invariant "the policy table says proceed-reduced")

def invariant (holds : Bool) (message : String) : Except Raised Unit :=
  if holds then .ok () else .error (.invariant message)

def assertInput (input : ValidationInput) : Except Raised Unit := do
  let inputKeys := keys input.solcInput.sources
  let partition := input.provenance.partition
  invariant (input.provenance.sourceKeys ≠ [])
    "a validation input was produced with no source keys."
  invariant (input.provenance.sourceKeys = inputKeys)
    "the recorded source keys are not the input's own key set in the input's own order"
  invariant (partition.closure.contains partition.target)
    "the partition's closure does not contain its own target"
  invariant (carriesEverySource input.solcInput partition.closure)
    "the produced input carries no source for a key of the closure"
  invariant (input.solcVersion ≠ "")
    "a validation input was produced with an empty compiler version."
  match input.fidelity with
  | .slotLevel => .error (.invariant "a build record's input reports slot-level fidelity")
  | .declarationOrderOnly missingFor =>
    invariant (missingFor ≠ []) "reduced fidelity for no contract at all"

-- ---------------------------------------------------------------------------
-- The surroundings
-- ---------------------------------------------------------------------------

structure ArtifactCandidate where
  sourcePath : String
  contractName : String
  buildInfoFile : String
  deriving DecidableEq, Repr

/-- How a name resolves, `C` the host's contract objects. -/
inductive ArtifactResolution (C : Type)
  | unique (name : String) (contract : C)
  | ambiguous (name : String) (candidates : List ArtifactCandidate) (unverifiedContract : C)
  | indeterminate (name : String) (unverifiedContract : C)

structure ArtifactRecord where
  longCompilerVersion : String
  bytecode : String
  deployedBytecode : String
  source : String
  sourcePath : String

inductive ArtifactRecordReport
  | complete (record : ArtifactRecord)
  | incomplete (missing : List ArtifactRecordField)

structure ValidationInputEnvironment (C : Type) where
  paths : ProjectPaths
  buildInfoDirectory : String
  resolve : String → Except Raised (ArtifactResolution C)
  record : C → Except Raised ArtifactRecordReport
  /-- The version that today's configuration selects. -/
  resolvedVersion : String
  viaLegacyFlag : Option LegacyFlag
  readSource : Path → Except Thrown (List Char)
  exists_ : Path → Bool
  readBuildInfo : String → Except Thrown BuildInfoReadResult

-- ---------------------------------------------------------------------------
-- The steps
-- ---------------------------------------------------------------------------

section
variable {C : Type}

/-- Candidates of one source are one contract in several records. -/
def artifactAbstraction (env : ValidationInputEnvironment C) (contract : String) :
    Except Raised (String × C) := do
  match ← env.resolve contract with
  | .unique name contract => return (name, contract)
  | .indeterminate name unverifiedContract => return (name, unverifiedContract)
  | .ambiguous name candidates unverifiedContract =>
    let distinct := (candidates.map fun candidate =>
      candidate.sourcePath ++ ":" ++ candidate.contractName).eraseDups
    if distinct.length ≤ 1 then return (name, unverifiedContract)
    else throw (.artifactNameAmbiguous name (candidates.map (·.sourcePath)))

def rangeGate (env : ValidationInputEnvironment C) : Option Cause :=
  if isSupportedSolcVersion env.resolvedVersion then none
  else some (.compilerUnsupported env.resolvedVersion env.viaLegacyFlag)

def cutPartition (targetKey : String) (sources : List String) : Except Raised PartitionRecord := do
  invariant (sources ≠ []) "the partition has an empty closure"
  invariant (sources.contains targetKey) "the partition does not contain its own target"
  return { target := targetKey, closure := sortTexts sources }

def utf16Length (text : String) : Nat := (codeUnits text).length

def maxLibraryNameLength := 36
def corruptingNameLength := 39

/-- The first linked library whose name is too long for its placeholder. -/
def libraryNameBand (bytecode : RecordBytecode) : Option Cause :=
  let names := (keys bytecode.linkReferences).flatMap fun file =>
    (entriesOrNone (get? bytecode.linkReferences file)).map (·.1)
  (names.find? fun name => utf16Length name > maxLibraryNameLength).map fun name =>
    .libraryNameUnsupported name (utf16Length name)
      (if utf16Length name ≥ corruptingNameLength then .from39 else .from37To38)

structure ArmContext where
  name : String
  record : ArtifactRecord
  partition : PartitionRecord

/-- The only producing path. -/
def freshArm (context : ArmContext) (gate : FreshGate) (fresh : Verified) :
    Except Raised Outcome :=
  match fresh.creationBytecode.bind libraryNameBand with
  | some band => dispose band
  | none => do
    let fidelity ← detectFidelity fresh.output
    let namespaces ← declaresNamespacedStorage fresh.output context.partition.target context.name
    let input : ValidationInput := {
      solcInput := fresh.solcInput
      solcOutput := fresh.output
      solcVersion := context.record.longCompilerVersion
      fidelity
      provenance := {
        gate
        compilerLongVersion := context.record.longCompilerVersion
        inputFile := fresh.inputFile
        partition := context.partition
        sourceKeys := keys fresh.solcInput.sources } }
    assertInput input
    return .input input (.storageLayoutUnavailable context.name ::
      if namespaces = [] then [] else [.namespacedAstOnly context.name namespaces])

def textOf (path : Path) : String := .ofList path

def gateRequest (env : ValidationInputEnvironment C) (name : String) (record : ArtifactRecord)
    (partition : PartitionRecord) : GateRequest where
  readBuildInfo := env.readBuildInfo
  buildInfoDirectory := env.buildInfoDirectory
  targetKey := partition.target
  contractName := name
  artifactDeployedBytecode := record.deployedBytecode
  closure := partition.closure

def graphRequest (env : ValidationInputEnvironment C) (name : String) (record : ArtifactRecord) :
    SourceGraphRequest where
  targetPath := absoluteSourcePath record.sourcePath.toList env.paths
  targetLabel := name.toList
  paths := env.paths
  readSource := env.readSource
  exists_ := env.exists_

/-- From the closure on: the gate, and the arm it opens. -/
def consultAndProduce (runtime : Runtime) (env : ValidationInputEnvironment C) (name : String)
    (record : ArtifactRecord) (graph : SourceGraph) : Except Raised Outcome := do
  let partition ← cutPartition (textOf graph.targetKey)
    (graph.sources.entries.map fun entry => textOf entry.1)
  match ← consultBuildRecord runtime (gateRequest env name record partition) with
  | .fresh gate verified => freshArm { name, record, partition } gate verified
  | .fallback (.stale rejected) => dispose (.buildRecordStale rejected)
  | .fallback (.absent because) => dispose (.buildRecordAbsent because)

/-- The artifact's facts, or a refusal for the first that is missing. -/
def artifactRecord (env : ValidationInputEnvironment C) (name : String) (contract : C) :
    Except Raised (ArtifactRecord ⊕ Cause) := do
  match ← env.record contract with
  | .complete record => return .inl record
  | .incomplete (missingField :: _) =>
    return .inr (.artifactShapeUnsupported name missingField artifactFieldsVerifiedSince)
  | .incomplete [] => throw (.invariant "the seam reported an artifact incomplete with no field")

/-- `fuel` bounds the sources looked at; without an answer the walk ran out. -/
def deriveValidationInput (runtime : Runtime) (env : ValidationInputEnvironment C)
    (contract : String) (fuel : Nat) : Option (Except Raised Outcome) :=
  match artifactAbstraction env contract with
  | .error e => some (.error e)
  | .ok (name, contract) =>
    match artifactRecord env name contract with
    | .error e => some (.error e)
    | .ok (.inr cause) => some (dispose cause)
    | .ok (.inl record) =>
      match rangeGate env with
      | some cause => some (dispose cause)
      | none =>
        match resolveSourceGraph (graphRequest env name record) fuel with
        | none => none
        | some (.error cause) => some (dispose (.source cause))
        | some (.ok graph) => some (consultAndProduce runtime env name record graph)

end

end TronUpgrades.Validation
