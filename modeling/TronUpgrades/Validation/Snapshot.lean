import TronUpgrades.Validation.Gate
import TronUpgrades.Validation.Pipeline

/-!
# The compile and the disk

An input is taken from a record of an earlier compile and cut along the imports
that the sources have today. `describes_compile_iff` says when the cut leaves
the target its bases.
-/

namespace TronUpgrades.Validation

open Checks Json Keyed

variable {C : Type} {runtime : Runtime} {env : ValidationInputEnvironment C} {contract : String}
  {fuel : Nat} {input : ValidationInput} {degraded : List Degraded}

-- ---------------------------------------------------------------------------
-- Where an input comes from
-- ---------------------------------------------------------------------------

/-- The parts of a derivation that produces: what today's project says, and
what the gate answered. -/
structure Produced (runtime : Runtime) (env : ValidationInputEnvironment C) (contract : String)
    (fuel : Nat) (input : ValidationInput) (name : String) (record : ArtifactRecord)
    (graph : SourceGraph) : Prop where
  named : ∃ object, artifactAbstraction env contract = .ok (name, object) ∧
    artifactRecord env name object = .ok (.inl record)
  walked : resolveSourceGraph (graphRequest env name record) fuel = some (.ok graph)
  cut : cutPartition (textOf graph.targetKey)
    (graph.sources.entries.map fun entry => textOf entry.1) = .ok input.provenance.partition
  consulted : ∃ gate verified,
    consultBuildRecord runtime (gateRequest env name record input.provenance.partition) =
      .ok (.fresh gate verified) ∧ input.solcOutput = verified.output
  version : input.solcVersion = record.longCompilerVersion

theorem dispose_refuses (cause : Cause) : dispose cause = .ok (.refused cause) := by
  cases cause <;> rfl

theorem freshArm_input {context : ArmContext} {gate : FreshGate} {fresh : Verified}
    (h : freshArm context gate fresh = .ok (.input input degraded)) :
    input.solcOutput = fresh.output ∧ input.solcVersion = context.record.longCompilerVersion ∧
      input.provenance.partition = context.partition := by
  unfold freshArm at h
  split at h
  · rw [dispose_refuses] at h
    cases h
  · simp only [bind_ok, pure_ok, Outcome.input.injEq] at h
    obtain ⟨fidelity, -, namespaces, -, _, -, rfl, -⟩ := h
    exact ⟨rfl, rfl, rfl⟩

theorem cutPartition_ok {targetKey : String} {sources : List String} {partition : PartitionRecord}
    (h : cutPartition targetKey sources = .ok partition) :
    partition.target = targetKey ∧ partition.closure = sortTexts sources := by
  simp only [cutPartition, bind_ok, pure_ok] at h
  obtain ⟨_, -, _, -, rfl⟩ := h
  exact ⟨rfl, rfl⟩

theorem consultAndProduce_input {name : String} {record : ArtifactRecord} {graph : SourceGraph}
    (h : consultAndProduce runtime env name record graph = .ok (.input input degraded)) :
    cutPartition (textOf graph.targetKey)
        (graph.sources.entries.map fun entry => textOf entry.1) = .ok input.provenance.partition ∧
      (∃ gate verified,
        consultBuildRecord runtime (gateRequest env name record input.provenance.partition) =
          .ok (.fresh gate verified) ∧ input.solcOutput = verified.output) ∧
      input.solcVersion = record.longCompilerVersion := by
  simp only [consultAndProduce, bind_ok] at h
  obtain ⟨partition, hcut, answer, hconsult, h⟩ := h
  cases answer with
  | fresh gate verified =>
    obtain ⟨houtput, hversion, hpartition⟩ := freshArm_input h
    subst hpartition
    exact ⟨hcut, ⟨gate, verified, hconsult, houtput⟩, hversion⟩
  | fallback gate =>
    cases gate <;> simp [dispose_refuses] at h

theorem deriveValidationInput_input
    (h : deriveValidationInput runtime env contract fuel = some (.ok (.input input degraded))) :
    ∃ name record graph, Produced runtime env contract fuel input name record graph := by
  unfold deriveValidationInput at h
  split at h
  · cases h
  · rename_i name object hnamed
    split at h
    · cases h
    · simp [dispose_refuses] at h
    · rename_i record hrecord
      split at h
      · simp [dispose_refuses] at h
      · split at h
        · cases h
        · simp [dispose_refuses] at h
        · rename_i graph hwalked
          obtain ⟨hcut, hconsulted, hversion⟩ := consultAndProduce_input (Option.some.inj h)
          exact ⟨name, record, graph, ⟨object, hnamed, hrecord⟩, hwalked, hcut, hconsulted, hversion⟩

-- ---------------------------------------------------------------------------
-- Contracts and their bases
-- ---------------------------------------------------------------------------

def IsContract (node : Json) : Prop :=
  readProperty node "nodeType" = .ok (some (.str "ContractDefinition"))

def HasId (node : Json) (id : Int) : Prop := readProperty node "id" = .ok (some (.num id))

/-- The source's AST has the definition of the contract with this id. -/
def Defines (source : Option Json) (id : Int) : Prop :=
  ∃ node ∈ sourceNodes source, IsContract node ∧ HasId node id

/-- The ids in a definition's `linearizedBaseContracts`. -/
def basesOf : Json → List Int
  | .obj fields => ((asArray (get? fields "linearizedBaseContracts")).getD []).filterMap num?
  | _ => []

/-- A record as a compiler writes it: with the AST of every source that its own
contracts inherit from, and no id twice. -/
structure WholeRecord (maps : RecordMaps) : Prop where
  closed : ∀ key, ∀ node ∈ sourceNodes (get? maps.sources key), IsContract node →
    ∀ id ∈ basesOf node, ∃ base, Defines (get? maps.sources base) id
  unique : ∀ key key' id, Defines (get? maps.sources key) id →
    Defines (get? maps.sources key') id → key = key'

/-- The target's definition in the record. -/
def DefinitionIn (maps : RecordMaps) (targetKey name : String) (target : Json) : Prop :=
  findNode name (sourceNodes (get? maps.sources targetKey)) = .ok (some target)

theorem findNode_some {name : String} {nodes : List Json} {node : Json}
    (h : findNode name nodes = .ok (some node)) : node ∈ nodes ∧ IsContract node := by
  induction nodes with
  | nil => cases h
  | cons first nodes ih =>
    simp only [findNode, bind_ok] at h
    obtain ⟨isDefinition, hfirst, h⟩ := h
    cases isDefinition with
    | false => exact ⟨List.mem_cons_of_mem _ (ih h).1, (ih h).2⟩
    | true =>
      cases h
      simp only [isDefinitionOf, bind_ok, pure_ok, Bool.and_eq_true, beq_iff_eq] at hfirst
      obtain ⟨nodeType, hnodeType, _, -, hcontract, -⟩ := hfirst
      refine ⟨List.mem_cons_self, hnodeType.trans ?_⟩
      obtain ⟨value, rfl, hvalue⟩ := Option.bind_eq_some_iff.mp hcontract
      cases value <;> cases hvalue
      rfl

-- ---------------------------------------------------------------------------
-- When an input describes the compile
-- ---------------------------------------------------------------------------

/-- The version without its build: what stands before the `+`. -/
def release (longVersion : String) : String := .ofList (longVersion.toList.takeWhile (· ≠ '+'))

/-- The record that verified is the first in path order to pass every check. -/
structure VerifiedRecord (runtime : Runtime) (request : GateRequest) (file : BuildInfoFile)
    (maps : RecordMaps) : Prop where
  maps : recordMaps file.output = some maps
  first : UpTo (¬ Passes runtime request ·) (candidates runtime request) file
  passes : Passes runtime request file

/-- No base of the target is missing from the output, and its compiler is in
the supported range. -/
structure DescribesCompile (input : ValidationInput) (maps : RecordMaps) (name : String) :
    Prop where
  bases : ∀ target, DefinitionIn maps input.provenance.partition.target name target →
    ∀ id ∈ basesOf target, ∃ key, Defines (input.solcOutput.sources.get? key) id
  supported : isSupportedSolcVersion (release input.solcVersion) = true

/-- Today's imports still reach every source in which the record has a base of
the target. -/
def StillReached (graph : SourceGraph) (maps : RecordMaps) (name : String) : Prop :=
  ∀ target, DefinitionIn maps (textOf graph.targetKey) name target →
    ∀ id ∈ basesOf target, ∀ key, Defines (get? maps.sources key) id →
      ∃ entry ∈ graph.sources.entries, textOf entry.1 = key

theorem defines_projected {maps : RecordMaps} {closure : List String}
    {output : SolcStandardOutput}
    (hsources : ∀ key, output.sources.get? key =
      if key ∈ closure then objectAt maps.sources key else none) (key : String) (id : Int) :
    Defines (output.sources.get? key) id ↔ key ∈ closure ∧ Defines (get? maps.sources key) id := by
  rw [hsources]
  by_cases hkey : key ∈ closure
  · simp only [Defines, hkey, if_true, sourceNodes_objectAt, true_and]
  · simp only [Defines, hkey, if_false, false_and, iff_false]
    rintro ⟨node, hnode, -⟩
    cases hnode

theorem mem_candidates {request : GateRequest} {file : BuildInfoFile} :
    file ∈ candidates runtime request ↔ ∃ files,
      request.readBuildInfo request.buildInfoDirectory = .ok (.files files) ∧ file ∈ files := by
  unfold candidates
  split
  · rename_i files hread
    simp [hread, mem_sortBy]
  · rename_i hread
    simp only [List.not_mem_nil, false_iff, not_exists, not_and]
    exact fun files h => absurd h (hread files)

theorem describes_compile_iff
    (h : deriveValidationInput runtime env contract fuel = some (.ok (.input input degraded)))
    (whole : ∀ files, env.readBuildInfo env.buildInfoDirectory = .ok (.files files) →
      ∀ file ∈ files, ∀ maps, recordMaps file.output = some maps → WholeRecord maps) :
    ∃ name record graph file maps, Produced runtime env contract fuel input name record graph ∧
      VerifiedRecord runtime (gateRequest env name record input.provenance.partition) file maps ∧
      (DescribesCompile input maps name ↔
        StillReached graph maps name ∧
          isSupportedSolcVersion (release record.longCompilerVersion) = true) := by
  obtain ⟨name, record, graph, produced⟩ := deriveValidationInput_input h
  obtain ⟨gate, verified, hconsult, houtput⟩ := produced.consulted
  obtain ⟨file, hfirst, hpasses, fresh⟩ := consult_fresh hconsult
  obtain ⟨maps, entry, hlocate, hverified, -⟩ := fresh.own
  have hmaps : recordMaps file.output = some maps := (locate_eq_some.mp hlocate).1
  have hwhole : WholeRecord maps := by
    obtain ⟨files, hread, hfile⟩ := mem_candidates.mp hfirst.mem
    exact whole files hread file hfile maps hmaps
  refine ⟨name, record, graph, file, maps, produced, ⟨hmaps, hfirst, hpasses⟩, ?_⟩
  have htarget := (cutPartition_ok produced.cut).1
  have hclosure := (cutPartition_ok produced.cut).2
  have hreached (key : String) : key ∈ input.provenance.partition.closure ↔
      ∃ entry ∈ graph.sources.entries, textOf entry.1 = key := by
    rw [hclosure, sortTexts, mem_sortBy, List.mem_map]
  have hdefines (key : String) (id : Int) : Defines (input.solcOutput.sources.get? key) id ↔
      key ∈ input.provenance.partition.closure ∧ Defines (get? maps.sources key) id := by
    rw [houtput]
    exact defines_projected (fun key => (projectBuildRecord_get? hverified.output key).1) key id
  constructor
  · intro describes
    refine ⟨fun target hdefinition id hid key hkey => ?_, produced.version ▸ describes.supported⟩
    obtain ⟨key', hprojected⟩ := describes.bases target (htarget ▸ hdefinition) id hid
    obtain ⟨hclosed, hkey'⟩ := (hdefines key' id).mp hprojected
    cases hwhole.unique key key' id hkey hkey'
    exact (hreached key).mp hclosed
  · rintro ⟨reached, supported⟩
    refine ⟨fun target hdefinition id hid => ?_, produced.version ▸ supported⟩
    obtain ⟨hmem, hcontract⟩ := findNode_some hdefinition
    obtain ⟨key, hkey⟩ := hwhole.closed _ target hmem hcontract id hid
    have hclosed := (hreached key).mpr (reached target (htarget ▸ hdefinition) id hid key hkey)
    exact ⟨key, (hdefines key id).mpr ⟨hclosed, hkey⟩⟩

-- ---------------------------------------------------------------------------
-- A base dropped since the compile
-- ---------------------------------------------------------------------------

def contractNode (name : String) (id : Int) (bases : List Int) : Json :=
  .obj [("nodeType", .str "ContractDefinition"), ("name", .str name), ("id", .num id),
    ("linearizedBaseContracts", .arr (bases.map .num))]

def boxIsBase : Json := contractNode "Box" 2 [2, 1]

def astOf (nodes : List Json) : Json := .obj [("ast", .obj [("nodes", .arr nodes)])]

/-- Compiled from `Box.sol`, which imported `Base.sol`. -/
def inheritedOutput : Json :=
  .obj [
    ("contracts", .obj [("Box.sol", .obj [("Box", .obj [("evm", .obj [
      ("deployedBytecode", .obj [("object", .str "6001")])])])])]),
    ("sources", .obj [("Box.sol", astOf [boxIsBase]),
      ("Base.sol", astOf [contractNode "Base" 1 [1]])])]

def inheritedSources : Fields :=
  [("Box.sol", .obj [("content", .str "import './Base.sol'; contract Box is Base")]),
    ("Base.sol", .obj [("content", .str "contract Base")])]

def inheritedInput : Json :=
  .obj [
    ("language", .str "Solidity"),
    ("sources", .obj inheritedSources),
    ("settings", .obj [("outputSelection", .obj [])])]

def inheritedRecord : BuildInfoFile :=
  ⟨"a.output.json", some inheritedOutput, some "a.json", some inheritedInput⟩

def driftedRecord : ArtifactRecord where
  longCompilerVersion := "0.8.28+commit.7893614a"
  bytecode := "0x6002"
  deployedBytecode := "0x6001"
  source := "contract Box"
  sourcePath := "/p/contracts/Box.sol"

/-- Since then the import is gone and the configuration names another compiler. -/
def drifted : ValidationInputEnvironment Unit where
  paths := ⟨"/p/contracts".toList, "/p".toList, "/p".toList⟩
  buildInfoDirectory := "build-info"
  resolve name := .ok (.unique name ())
  record _ := .ok (.complete driftedRecord)
  resolvedVersion := "0.8.20"
  viaLegacyFlag := none
  readSource _ := .ok driftedRecord.source.toList
  exists_ path := path = driftedRecord.sourcePath.toList
  readBuildInfo _ := .ok (.files [inheritedRecord])

def boxPartition : PartitionRecord := ⟨"Box.sol", ["Box.sol"]⟩

theorem cutPartition_box : cutPartition "Box.sol" ["Box.sol"] = .ok boxPartition := by
  have hsorted : sortTexts ["Box.sol"] = ["Box.sol"] :=
    sortBy_of_sorted (List.pairwise_singleton _ _)
  simp only [cutPartition, hsorted]
  rfl

def inheritedVerified : Verified where
  output := {
    contracts := setKey .empty "Box.sol" [("Box", .obj [("evm", .obj [
      ("deployedBytecode", .obj [("object", .str "6001")])])])]
    sources := setKey .empty "Box.sol" [("ast", .obj [("nodes", .arr [boxIsBase])])] }
  creationBytecode := none
  solcInput := ⟨inheritedInput, inheritedSources⟩
  inputFile := "a.json"

theorem examine_inherited :
    examine plainRuntime (gateRequest drifted "Box" driftedRecord boxPartition) inheritedRecord =
      .ok (.verified inheritedVerified) :=
  rfl

def inheritedValidationInput (gate : FreshGate) : ValidationInput where
  solcInput := inheritedVerified.solcInput
  solcOutput := inheritedVerified.output
  solcVersion := driftedRecord.longCompilerVersion
  fidelity := .declarationOrderOnly ["Box.sol:Box"]
  provenance := {
    gate
    compilerLongVersion := driftedRecord.longCompilerVersion
    inputFile := "a.json"
    partition := boxPartition
    sourceKeys := keys inheritedVerified.solcInput.sources }

theorem detectFidelity_inherited : detectFidelity inheritedVerified.output =
    .ok (.declarationOrderOnly ["Box.sol:Box"]) := by
  have hsorted : sortTexts ["Box.sol:Box"] = ["Box.sol:Box"] :=
    sortBy_of_sorted (List.pairwise_singleton _ _)
  exact congrArg (fun texts => Except.ok (LayoutFidelity.declarationOrderOnly texts)) hsorted

theorem namespaces_inherited :
    declaresNamespacedStorage inheritedVerified.output "Box.sol" "Box" = .ok [] := by
  have hsorted : sortTexts [] = [] := sortBy_of_sorted .nil
  exact congrArg Except.ok hsorted

theorem invariant_holds {holds : Bool} (message : String) (h : holds = true) :
    invariant holds message = .ok () :=
  if_pos h

theorem assertInput_inherited (gate : FreshGate) :
    assertInput (inheritedValidationInput gate) = .ok () := by
  have hkeys : decide (keys inheritedVerified.solcInput.sources ≠ []) = true := by decide
  have hclosure : carriesEverySource inheritedVerified.solcInput ["Box.sol"] = true := by rfl
  have hversion : decide (driftedRecord.longCompilerVersion ≠ "") = true := by decide
  have hsame := decide_eq_true (Eq.refl (keys inheritedVerified.solcInput.sources))
  refine bind_ok.mpr ⟨(), invariant_holds _ hkeys, bind_ok.mpr ⟨(), invariant_holds _ hsame, ?_⟩⟩
  refine bind_ok.mpr ⟨(), invariant_holds _ rfl, bind_ok.mpr ⟨(), invariant_holds _ hclosure, ?_⟩⟩
  exact bind_ok.mpr ⟨(), invariant_holds _ hversion, rfl⟩

theorem freshArm_inherited (gate : FreshGate) :
    freshArm ⟨"Box", driftedRecord, boxPartition⟩ gate inheritedVerified =
      .ok (.input (inheritedValidationInput gate) [.storageLayoutUnavailable "Box"]) := by
  have hnone : inheritedVerified.creationBytecode.bind libraryNameBand = none := rfl
  unfold freshArm
  rw [hnone]
  refine bind_ok.mpr ⟨_, detectFidelity_inherited, bind_ok.mpr ⟨_, namespaces_inherited, ?_⟩⟩
  refine bind_ok.mpr ⟨(), assertInput_inherited gate, ?_⟩
  rw [if_pos rfl]
  rfl

theorem consult_inherited :
    consultBuildRecord plainRuntime (gateRequest drifted "Box" driftedRecord boxPartition) =
      .ok (.fresh ⟨"a.output.json", 1⟩ inheritedVerified) := by
  have hsorted : sortBy plainRuntime.localeCompare BuildInfoFile.file [inheritedRecord] =
    [inheritedRecord] := sortBy_of_sorted (List.pairwise_singleton _ _)
  have hread : (gateRequest drifted "Box" driftedRecord boxPartition).readBuildInfo
      (gateRequest drifted "Box" driftedRecord boxPartition).buildInfoDirectory =
    .ok (.files [inheritedRecord]) := rfl
  unfold consultBuildRecord
  simp only [hread, hsorted, consultFiles, examine_inherited]
  rfl

def boxGraph : SourceGraph :=
  ⟨"Box.sol".toList, OrderedMap.empty.upsert "Box.sol".toList fun _ => "contract Box".toList⟩

theorem derive_drifted : deriveValidationInput plainRuntime drifted "Box" 2 =
    some (.ok (.input (inheritedValidationInput ⟨"a.output.json", 1⟩)
      [.storageLayoutUnavailable "Box"])) := by
  have hnamed : artifactAbstraction drifted "Box" = .ok ("Box", ()) := rfl
  have hrecord : artifactRecord drifted "Box" () = .ok (.inl driftedRecord) := rfl
  have hrange : rangeGate drifted = none := rfl
  have hwalk : resolveSourceGraph (graphRequest drifted "Box" driftedRecord) 2 =
    some (.ok boxGraph) := rfl
  have hproduce : consultAndProduce plainRuntime drifted "Box" driftedRecord boxGraph =
      .ok (.input (inheritedValidationInput ⟨"a.output.json", 1⟩)
        [.storageLayoutUnavailable "Box"]) :=
    bind_ok.mpr ⟨_, cutPartition_box, bind_ok.mpr ⟨_, consult_inherited, freshArm_inherited _⟩⟩
  simp only [deriveValidationInput, hnamed, hrecord, hrange, hwalk, hproduce]

def inheritedMaps : RecordMaps where
  contracts := [("Box.sol", .obj [("Box", .obj [("evm", .obj [
    ("deployedBytecode", .obj [("object", .str "6001")])])])])]
  sources := [("Box.sol", astOf [boxIsBase]), ("Base.sol", astOf [contractNode "Base" 1 [1]])]

theorem hasId_contractNode {name : String} {id id' : Int} {bases : List Int} :
    HasId (contractNode name id bases) id' ↔ id = id' := by
  have hid : readProperty (contractNode name id bases) "id" = .ok (some (.num id)) := rfl
  simp [HasId, hid]

theorem basesOf_contractNode (name : String) (id : Int) (bases : List Int) :
    basesOf (contractNode name id bases) = bases := by
  have hbases : basesOf (contractNode name id bases) = (bases.map Json.num).filterMap num? := rfl
  rw [hbases, List.filterMap_map]
  exact List.filterMap_some

theorem sourceNodes_inherited (key : String) : sourceNodes (get? inheritedMaps.sources key) =
    if key = "Base.sol" then [contractNode "Base" 1 [1]]
    else if key = "Box.sol" then [boxIsBase] else [] := by
  by_cases hbase : key = "Base.sol"
  · subst hbase
    rfl
  · by_cases hbox : key = "Box.sol"
    · subst hbox
      rfl
    · have hnone : get? inheritedMaps.sources key = none := by
        simp [get?, inheritedMaps, Ne.symm hbase, Ne.symm hbox]
      simp [hnone, hbase, hbox, sourceNodes, asObject]

theorem defines_inherited {key : String} {id : Int} :
    Defines (get? inheritedMaps.sources key) id ↔
      key = "Base.sol" ∧ id = 1 ∨ key = "Box.sol" ∧ id = 2 := by
  have hcontract (name : String) (id : Int) (bases : List Int) :
    IsContract (contractNode name id bases) := rfl
  simp only [Defines, sourceNodes_inherited]
  by_cases hbase : key = "Base.sol"
  · simp [hbase, hcontract, hasId_contractNode, eq_comm]
  · by_cases hbox : key = "Box.sol"
    · simp [hbox, boxIsBase, hcontract, hasId_contractNode, eq_comm]
    · simp [hbase, hbox]

theorem inheritedMaps_whole : WholeRecord inheritedMaps := by
  constructor
  · intro key node hnode _ id hid
    rw [sourceNodes_inherited] at hnode
    have hid : id = 1 ∨ id = 2 := by
      split at hnode
      · cases List.mem_singleton.mp hnode
        rw [basesOf_contractNode] at hid
        exact .inl (List.mem_singleton.mp hid)
      · split at hnode
        · cases List.mem_singleton.mp hnode
          rw [boxIsBase, basesOf_contractNode] at hid
          simpa [or_comm] using hid
        · cases hnode
    rcases hid with rfl | rfl
    · exact ⟨"Base.sol", defines_inherited.mpr (.inl ⟨rfl, rfl⟩)⟩
    · exact ⟨"Box.sol", defines_inherited.mpr (.inr ⟨rfl, rfl⟩)⟩
  · intro key key' id hkey hkey'
    rcases defines_inherited.mp hkey with ⟨rfl, rfl⟩ | ⟨rfl, rfl⟩ <;>
      rcases defines_inherited.mp hkey' with ⟨rfl, hid⟩ | ⟨rfl, hid⟩ <;> first | rfl | cases hid

theorem drifted_whole : ∀ files, drifted.readBuildInfo drifted.buildInfoDirectory =
    .ok (.files files) → ∀ file ∈ files, ∀ maps, recordMaps file.output = some maps →
      WholeRecord maps := by
  intro files hfiles file hfile maps hmaps
  cases hfiles
  cases List.mem_singleton.mp hfile
  cases hmaps
  exact inheritedMaps_whole

/-- The record is whole and verifies; its input has neither the base nor a
supported compiler. -/
theorem base_dropped : ∃ input degraded,
    deriveValidationInput plainRuntime drifted "Box" 2 = some (.ok (.input input degraded)) ∧
      recordMaps inheritedRecord.output = some inheritedMaps ∧ WholeRecord inheritedMaps ∧
      DefinitionIn inheritedMaps input.provenance.partition.target "Box" boxIsBase ∧
      1 ∈ basesOf boxIsBase ∧ (∀ key, ¬ Defines (input.solcOutput.sources.get? key) 1) ∧
      isSupportedSolcVersion (release input.solcVersion) = false := by
  refine ⟨_, _, derive_drifted, rfl, inheritedMaps_whole, rfl, ?_, fun key => ?_, rfl⟩
  · rw [boxIsBase, basesOf_contractNode]
    simp
  · have hsources : (inheritedValidationInput ⟨"a.output.json", 1⟩).solcOutput.sources =
      setKey .empty "Box.sol" [("ast", .obj [("nodes", .arr [boxIsBase])])] := rfl
    rw [hsources, get?_setKey]
    split
    · rintro ⟨node, hnode, -, hid⟩
      cases List.mem_singleton.mp hnode
      cases hasId_contractNode.mp hid
    · rintro ⟨node, hnode, -⟩
      cases hnode

theorem describes_compile_iff_drifted :
    ∃ name record graph file maps,
      Produced plainRuntime drifted "Box" 2 (inheritedValidationInput ⟨"a.output.json", 1⟩) name
          record graph ∧
        VerifiedRecord plainRuntime (gateRequest drifted name record boxPartition) file maps ∧
        (DescribesCompile (inheritedValidationInput ⟨"a.output.json", 1⟩) maps name ↔
          StillReached graph maps name ∧
            isSupportedSolcVersion (release record.longCompilerVersion) = true) :=
  describes_compile_iff derive_drifted drifted_whole

end TronUpgrades.Validation
