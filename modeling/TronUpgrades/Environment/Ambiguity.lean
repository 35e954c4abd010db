import TronUpgrades.Environment.Projections
import TronUpgrades.Json
import TronUpgrades.Keyed.Grouped

/-!
# The artifact ambiguity index

Every contract that the host's build records name, under the name an artifact
is required by. The index is of all the files or of none: one that cannot be
used makes it indeterminate, wherever it comes.
-/

namespace TronUpgrades.Environment

open Json Keyed
open Std (TransCmp LawfulEqCmp OrientedCmp)

-- ---------------------------------------------------------------------------
-- What is read
-- ---------------------------------------------------------------------------

/-- A build record as it was parsed; its paired input is of no use here. -/
structure BuildInfoFile where
  file : String
  output : Json

inductive BuildInfoReadResult
  | absent
  | unreadable (file cause : String)
  | files (files : List BuildInfoFile)

/-- What a throw tells: a text under `code`, and the name of an `Error`. -/
structure ReaderFailure where
  code : Option String
  name : Option String

abbrev BuildInfoReader := AbsolutePath → Except ReaderFailure BuildInfoReadResult

def safeCause (error : ReaderFailure) (fallback : String) : String :=
  match error.code with
  | some code => code
  | none => (error.name.filter (· ≠ "Error")).getD fallback

-- ---------------------------------------------------------------------------
-- What is answered
-- ---------------------------------------------------------------------------

structure ArtifactCandidate where
  sourcePath : String
  contractName : String
  buildInfoFile : AbsolutePath
  deriving DecidableEq

structure ArtifactNameCollision where
  name : String
  candidates : List ArtifactCandidate
  deriving DecidableEq

inductive IndeterminateReason
  | buildInfoAbsent (buildInfoDirectory : AbsolutePath) (artifactTreeIsExternal : Bool)
  | buildInfoUnreadable (file : AbsolutePath) (cause : String)
  | buildInfoLacksContractMap (file : AbsolutePath)

inductive ArtifactAmbiguityReport
  | indexed (collisions : List ArtifactNameCollision) (indexedFrom : List AbsolutePath)
  | indeterminate (reason : IndeterminateReason)

structure ArtifactAmbiguityIndex where
  report : ArtifactAmbiguityReport
  candidates : String → List ArtifactCandidate

-- ---------------------------------------------------------------------------
-- Names
-- ---------------------------------------------------------------------------

/-- `replace(/^\.\//, '')` -/
def withoutLead : List Char → List Char
  | '.' :: '/' :: rest => rest
  | name => name

/-- `replace(/\.sol$/i, '')` -/
def withoutExtension (name : List Char) : List Char :=
  if ".sol".toList.isSuffixOf (name.map Char.toLower) then name.take (name.length - 4) else name

def normalizeArtifactName (name : String) : String :=
  .ofList (withoutExtension (withoutLead name.toList))

example : normalizeArtifactName "./Box.SOL" = "Box" := by decide

section
variable (localeCompare : String → String → Ordering) (paths : ProjectPaths)

def candidateOrder : ArtifactCandidate → ArtifactCandidate → Ordering :=
  compareLex (comparing localeCompare (·.sourcePath))
    (compareLex (comparing localeCompare (·.contractName))
      (comparing localeCompare (·.buildInfoFile.1)))

-- ---------------------------------------------------------------------------
-- The index
-- ---------------------------------------------------------------------------

def indeterminateIndex (reason : IndeterminateReason) : ArtifactAmbiguityIndex where
  report := .indeterminate reason
  candidates _ := []

def absentIndex : ArtifactAmbiguityIndex :=
  indeterminateIndex (.buildInfoAbsent paths.buildInfoDirectory
    paths.contractsBuildDirectoryIsExternal)

/-- A file named by the reader, where it is absolute and in the directory. -/
def containedFile (file : String) : Option AbsolutePath :=
  if h : Posix.isAbsolute file.toList = true then
    if isContainedIn paths.buildInfoDirectory ⟨file, h⟩ then some ⟨file, h⟩ else none
  else none

abbrev CandidateMap := OrderedMap String (List ArtifactCandidate)

def outsideDirectory : IndeterminateReason :=
  .buildInfoUnreadable paths.buildInfoDirectory
    "the build-info reader named a file outside buildInfoDirectory"

def addContracts (file : AbsolutePath) (sourcePath : String) (names : List String)
    (candidatesByName : CandidateMap) : CandidateMap :=
  names.foldl (fun candidatesByName contractName =>
    candidatesByName.push (normalizeArtifactName contractName)
      ⟨sourcePath, contractName, file⟩) candidatesByName

/-- A file's sources; one without a map of its contracts ends the indexing. -/
def addSources (file : AbsolutePath) :
    Fields → CandidateMap → Except IndeterminateReason CandidateMap
  | [], candidatesByName => .ok candidatesByName
  | (sourcePath, contracts) :: sources, candidatesByName =>
    match asObject contracts with
    | none => .error (.buildInfoLacksContractMap file)
    | some contracts =>
      addSources file sources (addContracts file sourcePath (keys contracts) candidatesByName)

/-- `output.contracts`, of two objects -/
def contractMap (output : Json) : Option Fields := do
  let output ← asObject output
  asObject (get? output "contracts")

def addFiles : List BuildInfoFile → CandidateMap × List AbsolutePath →
    Except IndeterminateReason (CandidateMap × List AbsolutePath)
  | [], indexed => .ok indexed
  | entry :: files, (candidatesByName, indexedFrom) =>
    match containedFile paths entry.file with
    | none => .error (outsideDirectory paths)
    | some file =>
      match contractMap entry.output with
      | none => .error (.buildInfoLacksContractMap file)
      | some contracts => do
        let candidatesByName ← addSources file (Json.obj contracts).entries candidatesByName
        addFiles files (candidatesByName, indexedFrom ++ [file])

/-- The names with more than one candidate, by name. -/
def collisionsOf (byName : CandidateMap) : List ArtifactNameCollision :=
  sortBy localeCompare (·.name)
    ((byName.entries.filter fun entry => 1 < entry.2.length).map fun entry => ⟨entry.1, entry.2⟩)

def indexOf (candidatesByName : CandidateMap) (indexedFrom : List AbsolutePath) :
    ArtifactAmbiguityIndex :=
  let byName := candidatesByName.map (sortBy (candidateOrder localeCompare) id)
  { report := .indexed (collisionsOf localeCompare byName) indexedFrom
    candidates name := (byName.get? (normalizeArtifactName name)).getD [] }

def buildArtifactAmbiguityIndex (reader : BuildInfoReader) : ArtifactAmbiguityIndex :=
  match reader paths.buildInfoDirectory with
  | .error error => indeterminateIndex (.buildInfoUnreadable paths.buildInfoDirectory
      (safeCause error "the build-info reader failed"))
  | .ok .absent => absentIndex paths
  | .ok (.unreadable file cause) =>
    match containedFile paths file with
    | some file => indeterminateIndex (.buildInfoUnreadable file cause)
    | none => indeterminateIndex (outsideDirectory paths)
  | .ok (.files files) =>
    if files.isEmpty then absentIndex paths
    else match addFiles paths files (.empty, []) with
    | .error reason => indeterminateIndex reason
    | .ok (candidatesByName, indexedFrom) => indexOf localeCompare candidatesByName indexedFrom

end

end TronUpgrades.Environment
