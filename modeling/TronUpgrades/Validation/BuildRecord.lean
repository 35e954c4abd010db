import TronUpgrades.Failure
import TronUpgrades.Json
import TronUpgrades.Keyed.OrderedMap
import TronUpgrades.Keyed.StableSort

/-!
# The build-record gate

What a validation takes from the records that the host's compiles leave behind:
the candidates for the target, in path order, each held against the artifact
and the source closure, and the first that fits projected onto the closure.
`consultBuildRecord` is the whole gate.
-/

namespace TronUpgrades.Validation

open Json Keyed

/-- What a derivation throws. -/
inductive Raised
  /-- A property read off `null`. -/
  | typeError
  /-- `ValidationInputInvariantError` -/
  | invariant (message : String)
  | artifactNameAmbiguous (contractName : String) (sourcePaths : List String)
  | foreign (thrown : Thrown)
  deriving DecidableEq, Repr

/-- `property` of a value that may be undefined or null; a value that is no
object has none of the properties that are asked for. -/
def readProperty (value : Json) (key : String) : Except Raised (Option Json) :=
  match value with
  | .null => .error .typeError
  | .obj fields => .ok (get? fields key)
  | _ => .ok none

-- ---------------------------------------------------------------------------
-- Shapes
-- ---------------------------------------------------------------------------

inductive RejectionReason
  | nothingToCompare | deployedBytecodeDiffers | astClosureIncomplete | targetDefinitionAbsent
  | inputPairAbsent | inputPairUnparseable | inputPairUnusable
  deriving DecidableEq, Repr

structure BuildRecordRejection where
  file : String
  reason : RejectionReason
  deriving DecidableEq, Repr

inductive AbsentBecause
  | directoryAbsent | directoryUnreadable | noRecordForTarget
  deriving DecidableEq, Repr

/-- A record and its paired compiler input, as parsed. The pair's file without
its content is a pair that did not parse. -/
structure BuildInfoFile where
  file : String
  output : Option Json
  inputFile : Option String
  input : Option Json

inductive BuildInfoReadResult
  | absent
  | unreadable
  | files (files : List BuildInfoFile)

structure RecordBytecode where
  object : String
  linkReferences : Fields

/-- What is called of the language's runtime and of the engine's link
references. -/
structure Runtime where
  localeCompare : String → String → Ordering
  toLowerCase : String → String
  LinkReference : Type
  extractLinkReferences : RecordBytecode → Except Thrown (List LinkReference)
  unlinkBytecode : String → List LinkReference → Except Thrown String

def asBytecode (value : Option Json) : Option RecordBytecode := do
  let holder ← asObject value
  let object ← (get? holder "object").bind str?
  return { object, linkReferences := (asObject (get? holder "linkReferences")).getD [] }

/-- One build record narrowed to the two maps the gate reads. -/
structure RecordMaps where
  contracts : Fields
  sources : Fields

def recordMaps (output : Option Json) : Option RecordMaps := do
  let top ← asObject output
  let contracts ← asObject (get? top "contracts")
  let sources ← asObject (get? top "sources")
  return { contracts, sources }

/-- An output as it is handed on: its two maps, key by key. -/
structure SolcStandardOutput where
  contracts : OrderedMap String Json
  sources : OrderedMap String Json

/-- The paired compiler input, verbatim, and the sources it was narrowed to. -/
structure SolcStandardInput where
  value : Json
  sources : Fields

-- ---------------------------------------------------------------------------
-- Freshness
-- ---------------------------------------------------------------------------

section
variable (runtime : Runtime)

/-- Decided by content; the two empty sides compare nothing. -/
def verifyBuildRecordFreshness (buildRecordDeployed : RecordBytecode)
    (artifactDeployedBytecode : String) : Except Raised (Option RejectionReason) :=
  let reference := buildRecordDeployed.object
  if reference = "" ∨ artifactDeployedBytecode = "" ∨ artifactDeployedBytecode = "0x" then
    .ok (some .nothingToCompare)
  else do
    let linkReferences ←
      (runtime.extractLinkReferences buildRecordDeployed).mapError .foreign
    let unlinkedArtifact ←
      (runtime.unlinkBytecode artifactDeployedBytecode linkReferences).mapError .foreign
    return if runtime.toLowerCase unlinkedArtifact = runtime.toLowerCase ("0x" ++ reference) then
        none
      else some .deployedBytecodeDiffers

end

-- ---------------------------------------------------------------------------
-- The projection
-- ---------------------------------------------------------------------------

/-- `projected[key] = value` -/
def setKey (m : OrderedMap String Json) (key : String) (value : Fields) : OrderedMap String Json :=
  m.upsert key fun _ => .obj value

def setContracts (maps : RecordMaps) (key : String) (contracts : OrderedMap String Json) :
    OrderedMap String Json :=
  match asObject (get? maps.contracts key) with
  | some contractsForKey => setKey contracts key contractsForKey
  | none => contracts

def projectKeys (maps : RecordMaps) : List String → SolcStandardOutput → Option SolcStandardOutput
  | [], projected => some projected
  | key :: closure, projected => do
    let source ← asObject (get? maps.sources key)
    let _ ← asObject (get? source "ast")
    projectKeys maps closure
      { contracts := setContracts maps key projected.contracts
        sources := setKey projected.sources key source }

/-- The closure's own entries; a source without its AST rejects the record. -/
def projectBuildRecord (maps : RecordMaps) (closure : List String) : Option SolcStandardOutput :=
  projectKeys maps closure { contracts := .empty, sources := .empty }

-- ---------------------------------------------------------------------------
-- The target's definition
-- ---------------------------------------------------------------------------

/-- The top-level nodes of a source's `ast`. -/
def sourceNodes (source : Option Json) : List Json :=
  let ast := (asObject source).bind (get? · "ast")
  ((asObject ast).bind fun ast => asArray (get? ast "nodes")).getD []

def astNodes (output : SolcStandardOutput) (source : String) : List Json :=
  sourceNodes (output.sources.get? source)

def isDefinitionOf (contract : String) (node : Json) : Except Raised Bool := do
  let nodeType ← readProperty node "nodeType"
  let name ← readProperty node "name"
  return nodeType.bind str? == some "ContractDefinition" && name.bind str? == some contract

/-- `nodes.find`; a `null` among the nodes before the match raises. -/
def findNode (contract : String) : List Json → Except Raised (Option Json)
  | [] => .ok none
  | node :: nodes => do
    if ← isDefinitionOf contract node then return some node else findNode contract nodes

def findContractDefinition (output : SolcStandardOutput) (source contract : String) :
    Except Raised (Option Json) :=
  findNode contract (astNodes output source)

def isLayoutVacuous (output : SolcStandardOutput) (source contract : String) :
    Except Raised Bool := do
  let definition ← findContractDefinition output source contract
  return definition.isNone

-- ---------------------------------------------------------------------------
-- The paired input
-- ---------------------------------------------------------------------------

def hasContent (source : Option Json) : Bool :=
  (asObject source).any fun source => ((get? source "content").bind str?).isSome

/-- Handed on verbatim where it fits; nothing is defaulted or repaired. -/
def narrowRecordedInput (value : Json) : Option SolcStandardInput := do
  let top ← asObject (some value)
  let language ← (get? top "language").bind str?
  guard (language = "Solidity")
  let sources ← asObject (get? top "sources")
  guard (sources.all fun entry => hasContent (get? sources entry.1))
  let settings ← asObject (get? top "settings")
  let _ ← asObject (get? settings "outputSelection")
  return { value, sources }

-- ---------------------------------------------------------------------------
-- The gate
-- ---------------------------------------------------------------------------

structure GateRequest where
  readBuildInfo : String → Except Thrown BuildInfoReadResult
  buildInfoDirectory : String
  targetKey : String
  contractName : String
  artifactDeployedBytecode : String
  closure : List String

structure FreshGate where
  file : String
  /-- How many candidates were examined, this one included. -/
  candidates : Nat

/-- What a candidate that verified supplies. -/
structure Verified where
  output : SolcStandardOutput
  creationBytecode : Option RecordBytecode
  solcInput : SolcStandardInput
  inputFile : String

inductive FallbackGate
  | stale (rejected : List BuildRecordRejection)
  | absent (because : AbsentBecause)

inductive GateResult
  | fresh (gate : FreshGate) (verified : Verified)
  | fallback (gate : FallbackGate)

inductive Examined
  /-- A record of some other compile. -/
  | notLocated
  | rejected (reason : RejectionReason)
  | verified (verified : Verified)

/-- `maps.contracts[targetKey]?.[contractName]` -/
def locateEntry (maps : RecordMaps) (request : GateRequest) : Option Fields :=
  asObject ((asObject (get? maps.contracts request.targetKey)).bind (get? · request.contractName))

/-- A bytecode of the entry's `evm`. -/
def entryBytecode (entry : Fields) (name : String) : Option RecordBytecode :=
  asBytecode ((asObject (get? entry "evm")).bind (get? · name))

def carriesEverySource (solcInput : SolcStandardInput) (closure : List String) : Bool :=
  closure.all fun key => (get? solcInput.sources key).isSome

section
variable (runtime : Runtime)

/-- The paired compiler input, checked last. -/
def examinePair (request : GateRequest) (file : BuildInfoFile) (entry : Fields)
    (output : SolcStandardOutput) : Examined :=
  match file.inputFile with
  | none => .rejected .inputPairAbsent
  | some inputFile =>
    match file.input with
    | none => .rejected .inputPairUnparseable
    | some input =>
      match narrowRecordedInput input with
      | none => .rejected .inputPairUnusable
      | some solcInput =>
        if !carriesEverySource solcInput request.closure then .rejected .inputPairUnusable
        else .verified
          { output, creationBytecode := entryBytecode entry "bytecode", solcInput, inputFile }

/-- The body of the gate's loop. -/
def examine (request : GateRequest) (file : BuildInfoFile) : Except Raised Examined :=
  match recordMaps file.output with
  | none => .ok .notLocated
  | some maps =>
    match locateEntry maps request with
    | none => .ok .notLocated
    | some entry =>
      match entryBytecode entry "deployedBytecode" with
      | none => .ok (.rejected .nothingToCompare)
      | some deployed => do
        let freshness ←
          verifyBuildRecordFreshness runtime deployed request.artifactDeployedBytecode
        match freshness with
        | some reason => return .rejected reason
        | none =>
          match projectBuildRecord maps request.closure with
          | none => return .rejected .astClosureIncomplete
          | some output => do
            let vacuous ← isLayoutVacuous output request.targetKey request.contractName
            if vacuous then return .rejected .targetDefinitionAbsent
            else return examinePair request file entry output

def consultFiles (request : GateRequest) :
    List BuildInfoFile → List BuildRecordRejection → Except Raised GateResult
  | [], rejected =>
    .ok (.fallback (if rejected.length = 0 then .absent .noRecordForTarget else .stale rejected))
  | file :: files, rejected => do
    let examined ← examine runtime request file
    match examined with
    | .notLocated => consultFiles request files rejected
    | .rejected reason => consultFiles request files (rejected ++ [⟨file.file, reason⟩])
    | .verified verified => return .fresh ⟨file.file, rejected.length + 1⟩ verified

def consultBuildRecord (request : GateRequest) : Except Raised GateResult :=
  match request.readBuildInfo request.buildInfoDirectory with
  | .error _ => .ok (.fallback (.absent .directoryUnreadable))
  | .ok .absent => .ok (.fallback (.absent .directoryAbsent))
  | .ok .unreadable => .ok (.fallback (.absent .directoryUnreadable))
  | .ok (.files files) =>
    consultFiles runtime request (sortBy runtime.localeCompare (·.file) files) []

end

end TronUpgrades.Validation
