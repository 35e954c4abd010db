import TronUpgrades.Checks.Ends
import TronUpgrades.Validation.Snapshot

/-!
# Malformed build data

A build record is what some compiler once wrote, and nothing checks it as a
whole. `derive_robust_iff` says which records a derivation can read without a
raw error, reader by reader.
-/

namespace TronUpgrades.Validation

open Checks Json Keyed

/-- The errors that the pipeline's header names. -/
def Raised.Named : Raised → Prop
  | .invariant _ => True
  | .artifactNameAmbiguous _ _ => True
  | .typeError => False
  | .foreign _ => False

def Raised.Raw (e : Raised) : Prop := ¬ e.Named

theorem typeError_raw : Raised.typeError.Raw := id

-- ---------------------------------------------------------------------------
-- Values that a reader can go through
-- ---------------------------------------------------------------------------

/-- Absent, null or an array. -/
def Listed : Option Json → Prop
  | none | some .null | some (.arr _) => True
  | some _ => False

def listed : Option Json → List Json
  | some (.arr items) => items
  | _ => []

/-- Absent, null or an array without a null. -/
def ReadableMembers (value : Option Json) : Prop := Listed value ∧ .null ∉ listed value

/-- Absent, null, a text or an array without a null, where a `for … of` reads. -/
def ReadableNodes : Option Json → Prop
  | some (.str _) => True
  | value => ReadableMembers value

def property (value : Json) (key : String) : Option Json :=
  match value with
  | .obj fields => get? fields key
  | _ => none

structure ReadableLayout (layout : Json) : Prop where
  storage : ReadableMembers (property layout "storage")
  namespaces : ∀ entry ∈ entriesOrNone (property layout "namespaces"),
    ReadableMembers (some entry.2)

def ReadableLayouts (output : SolcStandardOutput) : Prop :=
  ∀ entry ∈ census output, ∀ layout ∈ layoutOf output entry.1 entry.2, ReadableLayout layout

section
variable {value : Json} {key : String} {members : List Json}

theorem readProperty_ends : Ends Raised.Raw (readProperty value key) (value ≠ .null) := by
  cases value with
  | null => exact (Ends.error typeError_raw).congr ⟨False.elim, fun h => h rfl⟩
  | _ => exact (Ends.ok _).congr ⟨fun _ => nofun, fun _ => trivial⟩

theorem readProperty_ok {found : Option Json} (h : readProperty value key = .ok found) :
    found = property value key := by
  cases value <;> cases h <;> rfl

theorem readProperty_of_ne (h : value ≠ .null) :
    readProperty value key = .ok (property value key) := by
  obtain ⟨found, hfound⟩ := readProperty_ends.returns.mpr h
  rw [hfound, readProperty_ok hfound]

theorem itemsOrNone_ends (value : Option Json) :
    Ends Raised.Raw (itemsOrNone value) (Listed value) := by
  rcases value with _ | _ | _ | _ | _ | _ | _
  · exact .ok _
  · exact .ok _
  all_goals first | exact .ok _ | exact .error typeError_raw

theorem itemsOrNone_ok {value : Option Json} {items : List Json}
    (h : itemsOrNone value = .ok items) : items = listed value := by
  rcases value with _ | _ | _ | _ | _ | _ | _ <;> cases h <;> rfl

theorem isPositioned_ends {member : Json} :
    Ends Raised.Raw (isPositioned member) (member ≠ .null) :=
  (readProperty_ends.bind fun _ _ => readProperty_ends.bind fun _ _ => .ok _).congr (by simp)

theorem labelOf_ends {member : Json} {fallback : String} :
    Ends Raised.Raw (labelOf member fallback) (member ≠ .null) :=
  (readProperty_ends.bind fun _ _ => .ok _).congr (by simp)

theorem forall_zipIdx_ne_null :
    (∀ entry ∈ members.zipIdx, entry.1 ≠ .null) ↔ Json.null ∉ members := by
  constructor
  · intro h hnull
    obtain ⟨i, hi⟩ := List.mem_iff_getElem?.mp hnull
    exact h (.null, i) (List.mk_mem_zipIdx_iff_getElem?.mpr hi) rfl
  · rintro h ⟨member, index⟩ hentry rfl
    exact h (List.mem_of_getElem? (List.mk_mem_zipIdx_iff_getElem?.mp hentry))

theorem unpositioned_ends (fallback : Nat → String) :
    Ends Raised.Raw (unpositioned fallback members) (.null ∉ members) := by
  refine (Ends.foldlM (S := fun entry => entry.1 ≠ .null) ?_ []).congr forall_zipIdx_ne_null
  rintro labels ⟨member, index⟩ -
  refine (isPositioned_ends.bind (Q := True) fun positioned hpositioned => ?_).congr (by simp)
  have hne : member ≠ .null := isPositioned_ends.returns.mp ⟨positioned, hpositioned⟩
  cases positioned with
  | true => exact .ok labels
  | false => exact (labelOf_ends.bind fun _ _ => .ok _).congr (by simp [hne])

theorem positionShortfall_ends {layout : Json} (h : layout ≠ .null) :
    Ends Raised.Raw (positionShortfall layout) (ReadableLayout layout) := by
  refine Ends.congr (R := Listed (property layout "storage") ∧
    .null ∉ listed (property layout "storage") ∧
    (∀ entry ∈ entriesOrNone (property layout "namespaces"), ReadableMembers (some entry.2)) ∧
    True) (.value (readProperty_of_ne h) ?_) ?_
  · refine (itemsOrNone_ends _).bind fun items hitems => ?_
    rw [itemsOrNone_ok hitems]
    refine (unpositioned_ends _).bind fun _ _ => .value (readProperty_of_ne h) ?_
    refine (Ends.mapM fun entry _ => Ends.congr
      (R := Listed (some entry.2) ∧ .null ∉ listed (some entry.2) ∧ True) ?_
      (by simp [ReadableMembers])).bind fun _ _ => .value (readProperty_of_ne h) (.ok _)
    refine (itemsOrNone_ends (some entry.2)).bind fun items hitems => ?_
    rw [itemsOrNone_ok hitems]
    exact (unpositioned_ends _).bind fun _ _ => .ok _
  · exact ⟨fun ⟨hl, hn, hm, _⟩ => ⟨⟨hl, hn⟩, hm⟩, fun ⟨⟨hl, hn⟩, hm⟩ => ⟨hl, hn, hm, trivial⟩⟩

theorem layoutOf_ne_null {output : SolcStandardOutput} {source contract : String}
    (h : layoutOf output source contract = some value) : value ≠ .null := by
  rintro rfl
  simp only [layoutOf] at h
  split at h <;> cases h

theorem lacksPositions_ends (output : SolcStandardOutput) (source contract : String) :
    Ends Raised.Raw (lacksPositions output source contract)
      (∀ layout ∈ layoutOf output source contract, ReadableLayout layout) := by
  unfold lacksPositions
  cases hlayout : layoutOf output source contract with
  | none => exact (Ends.ok true).congr (by simp)
  | some layout =>
    exact ((positionShortfall_ends (layoutOf_ne_null hlayout)).bind fun _ _ => .ok _).congr (by simp)

theorem detectFidelity_ends (output : SolcStandardOutput) :
    Ends Raised.Raw (detectFidelity output) (ReadableLayouts output) :=
  ((Ends.filterM fun entry _ => lacksPositions_ends output entry.1 entry.2).bind
    fun _ _ => .ok _).congr ⟨And.left, fun h => ⟨h, trivial⟩⟩

-- ---------------------------------------------------------------------------
-- Definitions and their bases
-- ---------------------------------------------------------------------------

/-- A null among the nodes before any definition of the contract. -/
def NullFirst (contract : String) (nodes : List Json) : Prop :=
  UpTo (isDefinitionOf contract · = .ok false) nodes .null

def baseIds (target : Json) : List (Option Json) :=
  match asArray (property target "linearizedBaseContracts") with
  | some bases => bases.map some
  | none => [property target "id"]

/-- The nodes of the base with this id can be gone through. -/
def ReadableBase (definitions : List (Int × Json)) (base : Option Json) : Prop :=
  ∀ id, base.bind num? = some id → ∀ entry, definitions.find? (·.1 = id) = some entry →
    ReadableNodes (property entry.2 "nodes")

structure ReadableAst (output : SolcStandardOutput) (source contract : String) : Prop where
  nodes : ∀ entry ∈ output.sources.entries, .null ∉ astNodes output entry.1
  found : ¬ NullFirst contract (astNodes output source)
  bases : ∀ definitions target, contractDefinitions output = .ok definitions →
    findContractDefinition output source contract = .ok (some target) →
    ∀ base ∈ baseIds target, ReadableBase definitions base

theorem isDefinitionOf_ends (contract : String) :
    Ends Raised.Raw (isDefinitionOf contract value) (value ≠ .null) :=
  (readProperty_ends.bind fun _ _ => readProperty_ends.bind fun _ _ => .ok _).congr (by simp)

theorem findNode_ends (contract : String) (nodes : List Json) :
    Ends Raised.Raw (findNode contract nodes) (¬ NullFirst contract nodes) := by
  induction nodes with
  | nil => exact (Ends.ok none).congr ⟨fun _ h => h.not_nil, fun _ => trivial⟩
  | cons node nodes ih =>
    by_cases hnull : node = .null
    · subst hnull
      exact (Ends.error typeError_raw).congr ⟨False.elim, fun h => h .head⟩
    · obtain ⟨found, hfound⟩ := (isDefinitionOf_ends contract).returns.mpr hnull
      refine .value hfound ?_
      cases found with
      | true =>
        refine (Ends.ok _).congr ⟨fun _ h => ?_, fun _ => trivial⟩
        rcases h.of_cons with heq | ⟨hnot, -⟩
        · exact hnull heq.symm
        · rw [hfound] at hnot
          cases hnot
      | false =>
        refine ih.congr (not_congr ⟨fun h => h.cons hfound, fun h => ?_⟩)
        rcases h.of_cons with heq | ⟨-, h⟩
        · exact absurd heq.symm hnull
        · exact h

theorem addDefinitions_ends (nodes : List Json) (byId : List (Int × Json)) :
    Ends Raised.Raw (addDefinitions nodes byId) (.null ∉ nodes) := by
  refine (Ends.foldlM (S := (· ≠ .null)) (fun byId node _ => ?_) byId).congr ?_
  · exact (readProperty_ends.bind fun _ _ => readProperty_ends.bind fun _ _ => .ok _).congr
      (by simp)
  · exact ⟨fun h hnull => h _ hnull rfl, fun h node hnode heq => h (heq ▸ hnode)⟩

theorem contractDefinitions_ends (output : SolcStandardOutput) :
    Ends Raised.Raw (contractDefinitions output)
      (∀ entry ∈ output.sources.entries, .null ∉ astNodes output entry.1) :=
  Ends.foldlM (fun byId entry _ => addDefinitions_ends (astNodes output entry.1) byId) []

theorem contractDefinitions_ne_null {output : SolcStandardOutput}
    {definitions : List (Int × Json)} (h : contractDefinitions output = .ok definitions) :
    ∀ entry ∈ definitions, entry.2 ≠ .null := by
  refine foldlM_invariant (I := fun definitions => ∀ entry ∈ definitions, entry.2 ≠ .null)
    (fun byId entry byId' hbyId hadd => ?_) nofun h
  refine foldlM_invariant (I := fun definitions => ∀ entry ∈ definitions, entry.2 ≠ .null)
    (fun byId node byId' hbyId hstep => ?_) hbyId hadd
  obtain ⟨nodeType, hnodeType, hstep⟩ := bind_ok.mp hstep
  obtain ⟨id, hid, hstep⟩ := bind_ok.mp hstep
  have hnode : node ≠ .null := readProperty_ends.returns.mp ⟨nodeType, hnodeType⟩
  split at hstep
  · cases hstep
    rintro entry (_ | ⟨_, hentry⟩)
    · exact hnode
    · exact hbyId entry hentry
  · cases hstep
    exact hbyId

theorem documentationText_ends : Ends Raised.Raw (documentationText value) (value ≠ .null) :=
  (readProperty_ends.bind fun _ _ => .ok _).congr (by simp)

theorem namespaceOf_ends : Ends Raised.Raw (namespaceOf value) (value ≠ .null) := by
  refine (readProperty_ends.bind (Q := True) fun nodeType hnodeType => ?_).congr (by simp)
  have hne : value ≠ .null := readProperty_ends.returns.mp ⟨nodeType, hnodeType⟩
  split
  · exact .ok none
  · exact (documentationText_ends.bind fun _ _ => .ok _).congr (by simp [hne])

theorem membersNamespaces_ends : Ends Raised.Raw
    (members.mapM namespaceOf >>= fun found => pure found.reduceOption) (.null ∉ members) := by
  refine ((Ends.mapM fun _ _ => namespaceOf_ends).bind fun _ _ => .ok _).congr ?_
  exact ⟨fun h hnull => h.1 _ hnull rfl, fun h => ⟨fun _ hmember heq => h (heq ▸ hmember), trivial⟩⟩

theorem nodesNamespaces_ends (value : Option Json) : Ends Raised.Raw
    (iterated value >>= fun members =>
      members.mapM namespaceOf >>= fun found => pure found.reduceOption)
    (ReadableNodes value) := by
  have absent : ReadableNodes none ∧ ReadableNodes (some .null) := by
    simp [ReadableNodes, ReadableMembers, Listed, listed]
  rcases value with _ | _ | _ | _ | text | items | _
  · exact (Ends.value rfl membersNamespaces_ends).congr (by simp [absent.1])
  · exact (Ends.value rfl membersNamespaces_ends).congr (by simp [absent.2])
  · exact (Ends.error typeError_raw).congr (by simp [ReadableNodes, ReadableMembers, Listed])
  · exact (Ends.error typeError_raw).congr (by simp [ReadableNodes, ReadableMembers, Listed])
  · exact (Ends.value rfl membersNamespaces_ends).congr (by simp [ReadableNodes])
  · refine (Ends.value rfl membersNamespaces_ends).congr ?_
    simp [ReadableNodes, ReadableMembers, Listed, listed]
  · exact (Ends.error typeError_raw).congr (by simp [ReadableNodes, ReadableMembers, Listed])

theorem baseNamespaces_ends {definitions : List (Int × Json)} {base : Option Json}
    (h : ∀ entry ∈ definitions, entry.2 ≠ .null) :
    Ends Raised.Raw (baseNamespaces definitions base) (ReadableBase definitions base) := by
  unfold baseNamespaces ReadableBase
  cases hid : base.bind num? with
  | none => exact (Ends.ok []).congr (by simp)
  | some id =>
    dsimp only
    cases hfind : definitions.find? (·.1 = id) with
    | none =>
      refine (Ends.ok []).congr ⟨?_, fun _ => trivial⟩
      rintro - _ ⟨⟩ entry hentry
      rw [hfind] at hentry
      cases hentry
    | some entry =>
      have hne : entry.2 ≠ .null := h entry (List.mem_of_find?_eq_some hfind)
      refine Ends.congr (R := ReadableNodes (property entry.2 "nodes"))
        (.value (readProperty_of_ne hne) (nodesNamespaces_ends _)) ?_
      constructor
      · rintro hr _ ⟨⟩ entry' hentry'
        rw [hfind] at hentry'
        cases hentry'
        exact hr
      · exact fun h => h id rfl entry hfind

theorem linearizedBases_of_ne (h : value ≠ .null) :
    linearizedBases value = .ok (baseIds value) := by
  unfold linearizedBases baseIds
  simp only [readProperty_of_ne h]
  cases hbases : asArray (property value "linearizedBaseContracts") <;>
    simp [hbases, bind, Except.bind, pure, Except.pure]

theorem findNode_ne_null {contract : String} {nodes : List Json} {node : Json}
    (h : findNode contract nodes = .ok (some node)) : node ≠ .null :=
  readProperty_ends.returns.mp ⟨_, (findNode_some h).2⟩

theorem declaresNamespacedStorage_ends (output : SolcStandardOutput) (source contract : String) :
    Ends Raised.Raw (declaresNamespacedStorage output source contract)
      (ReadableAst output source contract) := by
  refine Ends.congr ((contractDefinitions_ends output).bind fun definitions hdefinitions =>
    (findNode_ends contract (astNodes output source)).bind
      (Q := ∀ definitions target, contractDefinitions output = .ok definitions →
        findContractDefinition output source contract = .ok (some target) →
        ∀ base ∈ baseIds target, ReadableBase definitions base) fun found hfound => ?_) ?_
  · cases found with
    | none =>
      refine (Ends.ok []).congr ⟨fun _ _ target _ htarget => ?_, fun _ => trivial⟩
      cases hfound.symm.trans htarget
    | some target =>
      refine .value (linearizedBases_of_ne (findNode_ne_null hfound)) ?_
      refine ((Ends.mapM fun base _ =>
        baseNamespaces_ends (contractDefinitions_ne_null hdefinitions)).bind
          fun _ _ => .ok _).congr ?_
      constructor
      · rintro ⟨h, -⟩ definitions' target' hdefinitions' htarget'
        cases hdefinitions.symm.trans hdefinitions'
        cases hfound.symm.trans htarget'
        exact h
      · exact fun h => ⟨h definitions target hdefinitions hfound, trivial⟩
  · exact ⟨fun ⟨hn, hf, hb⟩ => ⟨hn, hf, hb⟩, fun h => ⟨h.nodes, h.found, h.bases⟩⟩

-- ---------------------------------------------------------------------------
-- Candidates
-- ---------------------------------------------------------------------------

/-- The engine's link references can be read off the record's bytecode and put
into the artifact's. -/
def Linkable (runtime : Runtime) (deployed : RecordBytecode) (artifact : String) : Prop :=
  ∃ linkReferences, runtime.extractLinkReferences deployed = .ok linkReferences ∧
    ∃ unlinked, runtime.unlinkBytecode artifact linkReferences = .ok unlinked

/-- What a check reads of a candidate can be read. -/
def Feasible (runtime : Runtime) (request : GateRequest) (maps : RecordMaps) (entry : Fields) :
    RejectionReason → Prop
  | .deployedBytecodeDiffers => ∀ deployed, entryBytecode entry "deployedBytecode" = some deployed →
    Linkable runtime deployed request.artifactDeployedBytecode
  | .targetDefinitionAbsent => request.targetKey ∈ request.closure →
    ¬ NullFirst request.contractName (sourceNodes (get? maps.sources request.targetKey))
  | _ => True

/-- Every check that is reached of a candidate can be carried out. -/
def Examinable (runtime : Runtime) (request : GateRequest) (file : BuildInfoFile) : Prop :=
  ∀ maps entry, locate request file = some (maps, entry) →
    ∀ check, UpTo (passes runtime request file maps entry · = .ok true) checks check →
      Feasible runtime request maps entry check

section
variable {runtime : Runtime} {request : GateRequest} {maps : RecordMaps} {entry : Fields}
  {file : BuildInfoFile}

theorem mapError_foreign_ends {α : Type} (x : Except Thrown α) :
    Ends Raised.Raw (x.mapError .foreign) (∃ a, x = .ok a) := by
  cases x with
  | error e => exact (Ends.error (fun h => h : (Raised.foreign e).Raw)).congr (by simp)
  | ok a => exact (Ends.ok a).congr (by simp)

theorem sameBytecode_ends (deployed : RecordBytecode) (artifact : String) :
    Ends Raised.Raw (sameBytecode runtime deployed artifact)
      (Linkable runtime deployed artifact) := by
  unfold sameBytecode Linkable
  cases hextract : runtime.extractLinkReferences deployed with
  | error e => exact (Ends.error (fun h => h : (Raised.foreign e).Raw)).congr (by simp)
  | ok linkReferences =>
    refine Ends.congr (.value rfl ((mapError_foreign_ends
      (runtime.unlinkBytecode artifact linkReferences)).bind fun _ _ => .ok _)) ?_
    simp

theorem passes_ends (check : RejectionReason) :
    Ends Raised.Raw (passes runtime request file maps entry check)
      (Feasible runtime request maps entry check) := by
  cases check with
  | deployedBytecodeDiffers =>
    unfold passes Feasible
    cases entryBytecode entry "deployedBytecode" with
    | none => exact (Ends.ok false).congr (by simp)
    | some deployed => exact (sameBytecode_ends _ _).congr (by simp)
  | targetDefinitionAbsent =>
    unfold passes Feasible
    by_cases hkey : request.targetKey ∈ request.closure
    · rw [if_pos hkey]
      exact ((findNode_ends _ _).map _).congr ⟨fun h _ => h, fun h => h hkey⟩
    · rw [if_neg hkey]
      exact (Ends.ok false).congr ⟨fun _ h => absurd h hkey, fun _ => trivial⟩
  | _ => exact .ok _

theorem judge_ends (file : BuildInfoFile) :
    Ends Raised.Raw (judge runtime request file) (Examinable runtime request file) := by
  cases hlocate : locate request file with
  | none =>
    rw [judge_none hlocate]
    refine (Ends.ok _).congr ⟨fun _ maps entry h => ?_, fun _ => trivial⟩
    cases hlocate.symm.trans h
  | some located =>
    obtain ⟨maps, entry⟩ := located
    have hchecks : Ends Raised.Raw (firstFailure (passes runtime request file maps entry) checks)
        (Examinable runtime request file) := by
      refine (Ends.firstFailure fun check _ => passes_ends check).congr ⟨?_, ?_⟩
      · intro h maps' entry' hlocate'
        cases hlocate.symm.trans hlocate'
        exact h
      · exact fun h => h maps entry hlocate
    obtain ⟨e, hfirst, hjudge⟩ | ⟨reason, hfirst, hjudge⟩ | ⟨hfirst, verified, hjudge, -⟩ :=
      judge_some hlocate runtime
    · rw [hjudge]
      rw [hfirst] at hchecks
      exact (Ends.error (hchecks.raises e rfl)).congr
        ⟨False.elim, fun h => by obtain ⟨_, ⟨⟩⟩ := hchecks.returns.mpr h⟩
    · rw [hjudge]
      rw [hfirst] at hchecks
      exact (Ends.ok _).congr ⟨fun _ => hchecks.returns.mp ⟨_, rfl⟩, fun _ => trivial⟩
    · rw [hjudge]
      rw [hfirst] at hchecks
      exact (Ends.ok _).congr ⟨fun _ => hchecks.returns.mp ⟨_, rfl⟩, fun _ => trivial⟩

/-- No candidate that is examined makes the gate raise. -/
def ExaminableUpTo (runtime : Runtime) (request : GateRequest) : Prop :=
  ∀ file, UpTo (¬ Passes runtime request ·) (candidates runtime request) file →
    Examinable runtime request file

theorem judge_error_iff : (∃ e, judge runtime request file = .error e) ↔
    ¬ Examinable runtime request file := by
  rw [← (judge_ends file).returns]
  cases judge runtime request file <;> simp

theorem scan_error_iff : (∃ e, scan (judge runtime request) (candidates runtime request) =
    .error e) ↔ ¬ ExaminableUpTo runtime request := by
  simp only [scan_raises, judge_accepts, judge_error_iff, ExaminableUpTo, not_forall, exists_prop]

theorem consult_ends : Ends Raised.Raw (consultBuildRecord runtime request)
    (ExaminableUpTo runtime request) := by
  rcases hscan : scan (judge runtime request) (candidates runtime request) with
    e | ⟨rejected, _ | ⟨file, verified⟩⟩
  · rw [consult_error hscan]
    obtain ⟨file, -, hjudge⟩ := scan_error hscan
    exact (Ends.error ((judge_ends file).raises e hjudge)).congr
      ⟨False.elim, scan_error_iff.mp ⟨e, hscan⟩⟩
  all_goals
    have hall : ExaminableUpTo runtime request := by
      by_contra hnot
      obtain ⟨e, he⟩ := scan_error_iff.mpr hnot
      cases hscan.symm.trans he
  · have hconsult := consult_exhausted hscan
    split at hconsult
    · obtain ⟨because, hconsult⟩ := hconsult
      rw [hconsult]
      exact (Ends.ok _).congr ⟨fun _ => hall, fun _ => trivial⟩
    · rw [hconsult]
      exact (Ends.ok _).congr ⟨fun _ => hall, fun _ => trivial⟩
  · rw [consult_accepted hscan]
    exact (Ends.ok _).congr ⟨fun _ => hall, fun _ => trivial⟩

end

end

-- ---------------------------------------------------------------------------
-- Derivations
-- ---------------------------------------------------------------------------

section
variable {C : Type} {runtime : Runtime} {env : ValidationInputEnvironment C} {contract : String}
  {fuel : Nat}

/-- The seam resolves the target and projects its artifact. -/
def Resolvable (env : ValidationInputEnvironment C) (contract : String) : Prop :=
  ∃ resolution, env.resolve contract = .ok resolution ∧
    ∀ object, ∃ report, env.record object = .ok report

/-- The derivation consults the gate, and with what. -/
structure Consulted (env : ValidationInputEnvironment C) (contract : String) (fuel : Nat)
    (name : String) (record : ArtifactRecord) (partition : PartitionRecord) : Prop where
  named : ∃ object, artifactAbstraction env contract = .ok (name, object) ∧
    artifactRecord env name object = .ok (.inl record)
  supported : rangeGate env = none
  walked : ∃ graph, resolveSourceGraph (graphRequest env name record) fuel = some (.ok graph) ∧
    cutPartition (textOf graph.targetKey)
      (graph.sources.entries.map fun entry => textOf entry.1) = .ok partition

/-- What the producing path reads of the candidate that passed. -/
def ReadableRecord (request : GateRequest) (maps : RecordMaps) (entry : Fields) : Prop :=
  (entryBytecode entry "bytecode").bind libraryNameBand = none →
    ∀ output, projectBuildRecord maps request.closure = some output →
      ReadableLayouts output ∧ ReadableAst output request.targetKey request.contractName

/-- What a derivation reads of the build data can be read. -/
structure Readable (runtime : Runtime) (request : GateRequest) : Prop where
  examined : ExaminableUpTo runtime request
  produced : ∀ file, UpTo (¬ Passes runtime request ·) (candidates runtime request) file →
    Passes runtime request file → ∀ maps entry, locate request file = some (maps, entry) →
      ReadableRecord request maps entry

/-- A derivation raises nothing but the two errors, and every candidate up to
the first that passes has a verdict: skipped, rejected for a reason, accepted. -/
structure Robust (runtime : Runtime) (env : ValidationInputEnvironment C) (contract : String)
    (fuel : Nat) : Prop where
  named : ∀ e, deriveValidationInput runtime env contract fuel = some (.error e) → e.Named
  judged : ∀ name record partition, Consulted env contract fuel name record partition →
    ∀ file, UpTo (¬ Passes runtime (gateRequest env name record partition) ·)
        (candidates runtime (gateRequest env name record partition)) file →
      ∃ verdict, judge runtime (gateRequest env name record partition) file = .ok verdict

theorem invariant_named {holds : Bool} {message : String} {e : Raised}
    (h : invariant holds message = .error e) : e.Named := by
  unfold invariant at h
  split at h <;> cases h
  trivial

theorem assertInput_named {input : ValidationInput} {e : Raised}
    (h : assertInput input = .error e) : e.Named := by
  have step {holds : Bool} {message : String} {rest : Except Raised Unit}
      (hrest : rest = .error e → e.Named)
      (h : (invariant holds message >>= fun _ => rest) = .error e) : e.Named := by
    rcases bind_error.mp h with h | ⟨_, -, h⟩
    · exact invariant_named h
    · exact hrest h
  refine step (step (step (step (step fun h => ?_)))) h
  cases hfidelity : input.fidelity with
  | slotLevel =>
    rw [hfidelity] at h
    cases h
    trivial
  | declarationOrderOnly missingFor =>
    rw [hfidelity] at h
    exact invariant_named h

theorem freshArm_raw {context : ArmContext} {gate : FreshGate} {fresh : Verified} :
    (∃ e, freshArm context gate fresh = .error e ∧ e.Raw) ↔
      fresh.creationBytecode.bind libraryNameBand = none ∧
        ¬ (ReadableLayouts fresh.output ∧
          ReadableAst fresh.output context.partition.target context.name) := by
  have hlayouts := detectFidelity_ends fresh.output
  have hast := declaresNamespacedStorage_ends fresh.output context.partition.target context.name
  unfold freshArm
  cases hband : fresh.creationBytecode.bind libraryNameBand with
  | some band => simp [dispose_refuses]
  | none =>
    simp only [true_and]
    constructor
    · rintro ⟨e, he, hraw⟩ ⟨hrl, hra⟩
      rcases bind_error.mp he with he | ⟨fidelity, -, he⟩
      · obtain ⟨_, hok⟩ := hlayouts.returns.mpr hrl
        cases he.symm.trans hok
      rcases bind_error.mp he with he | ⟨namespaces, -, he⟩
      · obtain ⟨_, hok⟩ := hast.returns.mpr hra
        cases he.symm.trans hok
      rcases bind_error.mp he with he | ⟨_, -, he⟩
      · exact hraw (assertInput_named he)
      · cases he
    · intro hnot
      cases hdetect : detectFidelity fresh.output with
      | error e => exact ⟨e, rfl, hlayouts.raises e hdetect⟩
      | ok fidelity =>
        have hrl := hlayouts.returns.mp ⟨fidelity, hdetect⟩
        cases hnamespaces : declaresNamespacedStorage fresh.output context.partition.target
            context.name with
        | error e =>
          refine ⟨e, ?_, hast.raises e hnamespaces⟩
          exact bind_error.mpr (.inr ⟨fidelity, rfl, bind_error.mpr (.inl rfl)⟩)
        | ok namespaces => exact absurd ⟨hrl, hast.returns.mp ⟨namespaces, hnamespaces⟩⟩ hnot

theorem artifactAbstraction_named (hresolves : Resolvable env contract) {e : Raised}
    (h : artifactAbstraction env contract = .error e) : e.Named := by
  obtain ⟨resolution, hresolve, -⟩ := hresolves
  unfold artifactAbstraction at h
  rw [hresolve] at h
  cases resolution with
  | unique name object => cases h
  | indeterminate name object => cases h
  | ambiguous name candidates object =>
    have h : (if _ then _ else _ : Except Raised (String × C)) = .error e := h
    split at h <;> cases h
    trivial

theorem artifactRecord_named (hresolves : Resolvable env contract) {name : String} {object : C}
    {e : Raised} (h : artifactRecord env name object = .error e) : e.Named := by
  obtain ⟨-, -, hrecord⟩ := hresolves
  obtain ⟨report, hreport⟩ := hrecord object
  unfold artifactRecord at h
  rw [hreport] at h
  rcases report with record | _ | ⟨missingField, rest⟩
  · cases h
  · cases h
    trivial
  · cases h

theorem cutPartition_named {targetKey : String} {sources : List String} {e : Raised}
    (h : cutPartition targetKey sources = .error e) : e.Named := by
  rcases bind_error.mp h with h | ⟨_, -, h⟩
  · exact invariant_named h
  rcases bind_error.mp h with h | ⟨_, -, h⟩
  · exact invariant_named h
  · cases h

/-- A raw error comes from the gate or from the candidate it answered with. -/
theorem derive_raw (hresolves : Resolvable env contract) :
    (∃ e, deriveValidationInput runtime env contract fuel = some (.error e) ∧ e.Raw) ↔
      ∃ name record partition, Consulted env contract fuel name record partition ∧
        ((∃ e, consultBuildRecord runtime (gateRequest env name record partition) = .error e) ∨
          ∃ gate verified, consultBuildRecord runtime (gateRequest env name record partition) =
              .ok (.fresh gate verified) ∧
            ∃ e, freshArm ⟨name, record, partition⟩ gate verified = .error e ∧ e.Raw) := by
  constructor
  · rintro ⟨e, he, hraw⟩
    unfold deriveValidationInput at he
    split at he
    · rename_i hnamed
      cases he
      exact absurd (artifactAbstraction_named hresolves hnamed) hraw
    · rename_i name object hnamed
      split at he
      · rename_i hrecord
        cases he
        exact absurd (artifactRecord_named hresolves hrecord) hraw
      · simp [dispose_refuses] at he
      · rename_i record hrecord
        split at he
        · simp [dispose_refuses] at he
        · rename_i hrange
          split at he
          · cases he
          · simp [dispose_refuses] at he
          · rename_i graph hwalked
            rcases bind_error.mp (Option.some.inj he) with hcut | ⟨partition, hcut, hconsult⟩
            · exact absurd (cutPartition_named hcut) hraw
            refine ⟨name, record, partition,
              ⟨⟨object, hnamed, hrecord⟩, hrange, graph, hwalked, hcut⟩, ?_⟩
            rcases bind_error.mp hconsult with hconsult | ⟨answer, hconsult, hanswer⟩
            · exact .inl ⟨e, hconsult⟩
            · rcases answer with ⟨gate, verified⟩ | rejected | because
              · exact .inr ⟨gate, verified, hconsult, e, hanswer, hraw⟩
              · simp [dispose_refuses] at hanswer
              · simp [dispose_refuses] at hanswer
  · rintro ⟨name, record, partition, ⟨⟨object, hnamed, hrecord⟩, hrange, graph, hwalked, hcut⟩,
      hraises⟩
    have hderive : deriveValidationInput runtime env contract fuel =
        some (consultAndProduce runtime env name record graph) := by
      simp only [deriveValidationInput, hnamed, hrecord, hrange, hwalked]
    rw [hderive]
    rcases hraises with ⟨e, hconsult⟩ | ⟨gate, verified, hconsult, e, harm, hraw⟩
    · refine ⟨e, ?_, consult_ends.raises e hconsult⟩
      exact congrArg some (bind_error.mpr (.inr ⟨partition, hcut,
        bind_error.mpr (.inl hconsult)⟩))
    · refine ⟨e, ?_, hraw⟩
      exact congrArg some (bind_error.mpr (.inr ⟨partition, hcut,
        bind_error.mpr (.inr ⟨_, hconsult, harm⟩)⟩))

/-- Where nothing raises, the first candidate that passes is answered with. -/
theorem consult_first {request : GateRequest} {file : BuildInfoFile}
    (hexamined : ExaminableUpTo runtime request)
    (hfirst : UpTo (¬ Passes runtime request ·) (candidates runtime request) file)
    (hpasses : Passes runtime request file) :
    ∃ gate verified, consultBuildRecord runtime request = .ok (.fresh gate verified) ∧
      judge runtime request file = .ok (.accept verified) := by
  rcases hscan : scan (judge runtime request) (candidates runtime request) with
    e | ⟨rejected, _ | ⟨file', verified⟩⟩
  · exact absurd hexamined (scan_error_iff.mp ⟨e, hscan⟩)
  · obtain ⟨hnone, -, -⟩ := scan_exhausted (fun file => decide (Locates request file))
      (fun file => by rw [judge_skip, decide_eq_false_iff_not]) hscan
    exact absurd (judge_accepts.mpr hpasses) (hnone file hfirst.mem)
  · obtain ⟨hupTo, hjudge⟩ := scan_accepted hscan
    simp only [judge_accepts] at hupTo
    have hpasses' : Passes runtime request file' := judge_accepts.mp ⟨verified, hjudge⟩
    cases hfirst.unique (not_not.mpr hpasses) hupTo (not_not.mpr hpasses')
    exact ⟨_, verified, consult_accepted hscan, hjudge⟩

theorem derive_robust_iff (hresolves : Resolvable env contract) :
    Robust runtime env contract fuel ↔
      ∀ name record partition, Consulted env contract fuel name record partition →
        Readable runtime (gateRequest env name record partition) := by
  constructor
  · intro hrobust name record partition hconsulted
    have hexamined : ExaminableUpTo runtime (gateRequest env name record partition) := by
      intro file hfile
      exact (judge_ends file).returns.mp (hrobust.judged name record partition hconsulted file hfile)
    refine ⟨hexamined, fun file hfirst hpasses maps entry hlocate hband output houtput => ?_⟩
    obtain ⟨gate, verified, hconsult, hjudge⟩ := consult_first hexamined hfirst hpasses
    obtain ⟨maps', entry', hlocate', hverified⟩ := judge_accept hjudge
    cases hlocate.symm.trans hlocate'
    cases houtput.symm.trans hverified.output
    by_contra hnot
    rw [← hverified.creationBytecode] at hband
    have harm : ∃ e, freshArm ⟨name, record, partition⟩ gate verified = .error e ∧ e.Raw :=
      freshArm_raw.mpr ⟨hband, hnot⟩
    obtain ⟨e, hderive, he⟩ := (derive_raw hresolves).mpr
      ⟨name, record, partition, hconsulted, .inr ⟨gate, verified, hconsult, harm⟩⟩
    exact he (hrobust.named e hderive)
  · intro hreadable
    constructor
    · intro e hderive
      by_contra he
      obtain ⟨name, record, partition, hconsulted, hraises⟩ :=
        (derive_raw hresolves).mp ⟨e, hderive, he⟩
      have hread := hreadable name record partition hconsulted
      rcases hraises with ⟨e, hconsult⟩ | ⟨gate, verified, hconsult, harm⟩
      · obtain ⟨answer, hanswer⟩ := consult_ends.returns.mpr hread.examined
        cases hconsult.symm.trans hanswer
      · obtain ⟨hband, hnot⟩ := freshArm_raw.mp harm
        obtain ⟨file, hfirst, hpasses, hfresh⟩ := consult_fresh hconsult
        obtain ⟨maps, entry, hlocate, hverified, -⟩ := hfresh.own
        rw [hverified.creationBytecode] at hband
        exact hnot (hread.produced file hfirst hpasses maps entry hlocate hband _ hverified.output)
    · intro name record partition hconsulted file hfile
      exact (judge_ends file).returns.mpr
        ((hreadable name record partition hconsulted).examined file hfile)

end

theorem drifted_robust_iff :
    Robust plainRuntime drifted "Box" 2 ↔
      ∀ name record partition, Consulted drifted "Box" 2 name record partition →
        Readable plainRuntime (gateRequest drifted name record partition) :=
  derive_robust_iff ⟨_, rfl, fun _ => ⟨_, rfl⟩⟩

-- ---------------------------------------------------------------------------
-- A null before the definition, and a good record behind it
-- ---------------------------------------------------------------------------

def malformed : ValidationInputEnvironment Unit :=
  { drifted with readBuildInfo := fun _ => .ok (.files [brokenRecord, boxRecord]) }

theorem consult_malformed :
    consultBuildRecord plainRuntime (gateRequest malformed "Box" driftedRecord boxPartition) =
      .error .typeError := by
  have hsorted : sortBy plainRuntime.localeCompare BuildInfoFile.file [brokenRecord, boxRecord] =
      [brokenRecord, boxRecord] := by
    refine sortBy_of_sorted ?_
    simp [precedes]
    decide
  have hread : (gateRequest malformed "Box" driftedRecord boxPartition).readBuildInfo
      (gateRequest malformed "Box" driftedRecord boxPartition).buildInfoDirectory =
    .ok (.files [brokenRecord, boxRecord]) := rfl
  unfold consultBuildRecord
  simp only [hread, hsorted]
  rfl

theorem derive_malformed :
    deriveValidationInput plainRuntime malformed "Box" 2 = some (.error .typeError) := by
  have hnamed : artifactAbstraction malformed "Box" = .ok ("Box", ()) := rfl
  have hrecord : artifactRecord malformed "Box" () = .ok (.inl driftedRecord) := rfl
  have hrange : rangeGate malformed = none := rfl
  have hwalk : resolveSourceGraph (graphRequest malformed "Box" driftedRecord) 2 =
    some (.ok boxGraph) := rfl
  have hproduce : consultAndProduce plainRuntime malformed "Box" driftedRecord boxGraph =
      .error .typeError :=
    bind_error.mpr (.inr ⟨_, cutPartition_box, bind_error.mpr (.inl consult_malformed)⟩)
  simp only [deriveValidationInput, hnamed, hrecord, hrange, hwalk, hproduce]

theorem malformed_not_robust :
    Resolvable malformed "Box" ∧ ¬ Robust plainRuntime malformed "Box" 2 :=
  ⟨⟨_, rfl, fun _ => ⟨_, rfl⟩⟩, fun hrobust => hrobust.named .typeError derive_malformed⟩

end TronUpgrades.Validation
