import Mathlib.Data.Option.Basic
import TronUpgrades.Checks.Scan
import TronUpgrades.Validation.BuildRecord

/-!
# What the build-record gate decides

The seven checks of a candidate one by one, and the gate as the first candidate
in path order that passes them all. `gate_law` says when the gate answers so:
where no candidate it examines makes a check raise.
-/

namespace TronUpgrades.Validation

open Checks Json Keyed

-- ---------------------------------------------------------------------------
-- The projection, key by key
-- ---------------------------------------------------------------------------

section
variable {maps : RecordMaps} {closure : List String} {projected output : SolcStandardOutput}

def hasAst (maps : RecordMaps) (key : String) : Bool :=
  (asObject (get? maps.sources key)).any fun source => (asObject (get? source "ast")).isSome

/-- The value under the key, where it is an object. -/
def objectAt (fields : Fields) (key : String) : Option Json :=
  (asObject (get? fields key)).map .obj

theorem get?_setKey (m : OrderedMap String Json) (key key' : String) (value : Fields) :
    (setKey m key value).get? key' = if key' = key then some (.obj value) else m.get? key' := by
  unfold setKey
  split
  · rename_i h
    subst h
    exact OrderedMap.get?_upsert_self ..
  · exact OrderedMap.get?_upsert_of_ne m _ ‹_›

theorem projectKeys_isSome :
    (projectKeys maps closure projected).isSome = closure.all (hasAst maps) := by
  induction closure generalizing projected with
  | nil => rfl
  | cons key closure ih =>
    cases hsource : asObject (get? maps.sources key) with
    | none => simp [projectKeys, hasAst, hsource]
    | some source =>
      cases hast : asObject (get? source "ast") with
      | none => simp [projectKeys, hasAst, hsource, hast]
      | some ast =>
        have hkey : hasAst maps key = true := by simp [hasAst, hsource, hast]
        simp only [projectKeys, hsource, hast, Option.bind_eq_bind, Option.bind_some, ih,
          List.all_cons, hkey, Bool.true_and]

theorem get?_setContracts (m : OrderedMap String Json) (key key' : String) :
    (setContracts maps key m).get? key' =
      if key' = key then (objectAt maps.contracts key).or (m.get? key') else m.get? key' := by
  unfold setContracts
  cases hcontracts : asObject (get? maps.contracts key) with
  | none => simp [objectAt, hcontracts]
  | some contractsForKey => simp [objectAt, hcontracts, get?_setKey]

theorem projectKeys_sources (h : projectKeys maps closure projected = some output) (key : String) :
    output.sources.get? key =
      if key ∈ closure then objectAt maps.sources key else projected.sources.get? key := by
  induction closure generalizing projected with
  | nil =>
    cases h
    rfl
  | cons first closure ih =>
    simp only [projectKeys, Option.bind_eq_bind, Option.bind_eq_some_iff] at h
    obtain ⟨source, hsource, ast, hast, h⟩ := h
    rw [ih h, get?_setKey]
    by_cases hfirst : key = first
    · subst hfirst
      simp [objectAt, hsource]
    · simp [hfirst]

theorem projectKeys_contracts (h : projectKeys maps closure projected = some output)
    (key : String) :
    output.contracts.get? key = if key ∈ closure then
        (objectAt maps.contracts key).or (projected.contracts.get? key)
      else projected.contracts.get? key := by
  induction closure generalizing projected with
  | nil =>
    cases h
    rfl
  | cons first closure ih =>
    simp only [projectKeys, Option.bind_eq_bind, Option.bind_eq_some_iff] at h
    obtain ⟨source, hsource, ast, hast, h⟩ := h
    rw [ih h, get?_setContracts]
    by_cases hfirst : key = first
    · subst hfirst
      cases objectAt maps.contracts key <;> simp
    · simp [hfirst]

/-- The projection is the record on the closure, and nothing off it. -/
theorem projectBuildRecord_get? (h : projectBuildRecord maps closure = some output)
    (key : String) :
    output.sources.get? key = (if key ∈ closure then objectAt maps.sources key else none) ∧
      output.contracts.get? key = if key ∈ closure then objectAt maps.contracts key else none := by
  have hempty : (OrderedMap.empty : OrderedMap String Json).get? key = none := rfl
  constructor
  · rw [projectKeys_sources h, hempty]
  · rw [projectKeys_contracts h, hempty, Option.or_none]

theorem projectBuildRecord_isSome :
    (projectBuildRecord maps closure).isSome = closure.all (hasAst maps) :=
  projectKeys_isSome

/-- The keys of a projection are the closure's. -/
theorem projectBuildRecord_keys (h : projectBuildRecord maps closure = some output)
    (key : String) : (output.sources.get? key).isSome = true ↔ key ∈ closure := by
  have hall : closure.all (hasAst maps) = true := by
    rw [← projectBuildRecord_isSome, h]
    rfl
  rw [(projectBuildRecord_get? h key).1]
  constructor
  · intro hsome
    split at hsome
    · assumption
    · cases hsome
  · intro hkey
    have hast := List.all_eq_true.mp hall key hkey
    rw [if_pos hkey, objectAt, Option.isSome_map]
    exact Option.isSome_of_any hast

end

-- ---------------------------------------------------------------------------
-- The checks
-- ---------------------------------------------------------------------------

/-- A record that locates the target, by its maps and the target's entry. -/
def locate (request : GateRequest) (file : BuildInfoFile) : Option (RecordMaps × Fields) := do
  let maps ← recordMaps file.output
  let entry ← locateEntry maps request
  return (maps, entry)

def comparable (deployed : RecordBytecode) (artifactDeployedBytecode : String) : Bool :=
  deployed.object ≠ "" && artifactDeployedBytecode ≠ "" && artifactDeployedBytecode ≠ "0x"

/-- The artifact's bytecode, its link placeholders written as the record has
them, is the record's, whatever the case of the letters. -/
def sameBytecode (runtime : Runtime) (deployed : RecordBytecode)
    (artifactDeployedBytecode : String) : Except Raised Bool := do
  let linkReferences ← (runtime.extractLinkReferences deployed).mapError .foreign
  let unlinkedArtifact ←
    (runtime.unlinkBytecode artifactDeployedBytecode linkReferences).mapError .foreign
  return runtime.toLowerCase unlinkedArtifact = runtime.toLowerCase ("0x" ++ deployed.object)

/-- Each check under the reason for which it rejects. -/
def passes (runtime : Runtime) (request : GateRequest) (file : BuildInfoFile) (maps : RecordMaps)
    (entry : Fields) : RejectionReason → Except Raised Bool
  | .nothingToCompare => .ok ((entryBytecode entry "deployedBytecode").any
      (comparable · request.artifactDeployedBytecode))
  | .deployedBytecodeDiffers =>
    match entryBytecode entry "deployedBytecode" with
    | some deployed => sameBytecode runtime deployed request.artifactDeployedBytecode
    | none => .ok false
  | .astClosureIncomplete => .ok (request.closure.all (hasAst maps))
  | .targetDefinitionAbsent =>
    if request.targetKey ∈ request.closure then
      (findNode request.contractName (sourceNodes (get? maps.sources request.targetKey))).map
        Option.isSome
    else .ok false
  | .inputPairAbsent => .ok file.inputFile.isSome
  | .inputPairUnparseable => .ok file.input.isSome
  | .inputPairUnusable => .ok ((file.input.bind narrowRecordedInput).any
      (carriesEverySource · request.closure))

def checks : List RejectionReason :=
  [.nothingToCompare, .deployedBytecodeDiffers, .astClosureIncomplete, .targetDefinitionAbsent,
    .inputPairAbsent, .inputPairUnparseable, .inputPairUnusable]

/-- What is handed on of a candidate, all of it the candidate's own. -/
structure VerifiedOf (request : GateRequest) (file : BuildInfoFile) (maps : RecordMaps)
    (entry : Fields) (verified : Verified) : Prop where
  output : projectBuildRecord maps request.closure = some verified.output
  input : file.input = some verified.solcInput.value
  narrowed : narrowRecordedInput verified.solcInput.value = some verified.solcInput
  carries : ∀ key ∈ request.closure, (get? verified.solcInput.sources key).isSome = true
  inputFile : file.inputFile = some verified.inputFile
  creationBytecode : verified.creationBytecode = entryBytecode entry "bytecode"

section
variable {runtime : Runtime} {request : GateRequest} {file : BuildInfoFile} {maps : RecordMaps}
  {entry : Fields}

/-- What is examined is what the checks say, in their order. -/
def Agrees (request : GateRequest) (file : BuildInfoFile) (maps : RecordMaps) (entry : Fields) :
    Except Raised (Option RejectionReason) → Except Raised Examined → Prop
  | .error e, examined => examined = .error e
  | .ok (some reason), examined => examined = .ok (.rejected reason)
  | .ok none, examined =>
    ∃ verified, examined = .ok (.verified verified) ∧ VerifiedOf request file maps entry verified

theorem narrowRecordedInput_value {value : Json} {solcInput : SolcStandardInput}
    (h : narrowRecordedInput value = some solcInput) : solcInput.value = value := by
  simp only [narrowRecordedInput, Option.bind_eq_bind, Option.bind_eq_some_iff,
    Option.pure_def, Option.some.injEq] at h
  obtain ⟨_, -, _, -, _, -, _, -, _, -, _, -, _, -, rfl⟩ := h
  rfl

theorem examinePair_agrees {output : SolcStandardOutput}
    (houtput : projectBuildRecord maps request.closure = some output) :
    Agrees request file maps entry
      (firstFailure (passes runtime request file maps entry)
        [.inputPairAbsent, .inputPairUnparseable, .inputPairUnusable])
      (.ok (examinePair request file entry output)) := by
  unfold examinePair
  cases hinputFile : file.inputFile with
  | none => simp [firstFailure, passes, hinputFile, Agrees]
  | some inputFile =>
    cases hinput : file.input with
    | none => simp [firstFailure, passes, hinputFile, hinput, Agrees]
    | some input =>
      cases hnarrow : narrowRecordedInput input with
      | none => simp [firstFailure, passes, hinputFile, hinput, hnarrow, Agrees]
      | some solcInput =>
        cases hcarries : carriesEverySource solcInput request.closure with
        | false => simp [firstFailure, passes, hinputFile, hinput, hnarrow, hcarries, Agrees]
        | true =>
          have hvalue := narrowRecordedInput_value hnarrow
          subst hvalue
          simp only [firstFailure, passes, hinputFile, hinput, hnarrow, hcarries, Agrees,
            Option.isSome_some, Option.bind_some, Option.any_some]
          exact ⟨_, rfl, houtput, hinput, hnarrow, List.all_eq_true.mp hcarries, hinputFile, rfl⟩

theorem sourceNodes_objectAt (fields : Fields) (key : String) :
    sourceNodes (objectAt fields key) = sourceNodes (get? fields key) := by
  unfold sourceNodes objectAt
  rcases get? fields key with _ | _ | _ | _ | _ | _ | _ <;> rfl

/-- The definition is looked for in the projection, and found where the record
has it under a key of the closure. -/
theorem isLayoutVacuous_eq {output : SolcStandardOutput}
    (houtput : projectBuildRecord maps request.closure = some output) :
    isLayoutVacuous output request.targetKey request.contractName =
      (passes runtime request file maps entry .targetDefinitionAbsent).map not := by
  have hnodes : astNodes output request.targetKey = if request.targetKey ∈ request.closure then
      sourceNodes (get? maps.sources request.targetKey) else [] := by
    unfold astNodes
    rw [(projectBuildRecord_get? houtput _).1]
    split
    · exact sourceNodes_objectAt ..
    · rfl
  unfold isLayoutVacuous findContractDefinition passes
  rw [hnodes]
  split
  · cases findNode request.contractName (sourceNodes (get? maps.sources request.targetKey)) with
    | error e => rfl
    | ok definition => cases definition <;> rfl
  · rfl

theorem verifyBuildRecordFreshness_eq (deployed : RecordBytecode) (artifact : String) :
    verifyBuildRecordFreshness runtime deployed artifact =
      if comparable deployed artifact = true then
        (sameBytecode runtime deployed artifact).map fun same =>
          if same then none else some .deployedBytecodeDiffers
      else .ok (some .nothingToCompare) := by
  have hcomparable : comparable deployed artifact = true ↔
      ¬ (deployed.object = "" ∨ artifact = "" ∨ artifact = "0x") := by
    simp [comparable, not_or, and_assoc]
  unfold verifyBuildRecordFreshness sameBytecode
  by_cases h : deployed.object = "" ∨ artifact = "" ∨ artifact = "0x"
  · rw [if_neg (fun hc => hcomparable.mp hc h)]
    exact if_pos h
  · rw [if_pos (hcomparable.mpr h)]
    refine (if_neg h).trans ?_
    cases (runtime.extractLinkReferences deployed).mapError Raised.foreign with
    | error e => rfl
    | ok linkReferences =>
      cases hunlink : (runtime.unlinkBytecode artifact linkReferences).mapError Raised.foreign with
      | error e => simp [hunlink, bind, Except.bind, Except.map]
      | ok unlinked => simp [hunlink, bind, Except.bind, Except.map, pure, Except.pure]

theorem locate_eq_some : locate request file = some (maps, entry) ↔
    recordMaps file.output = some maps ∧ locateEntry maps request = some entry := by
  simp only [locate, Option.bind_eq_bind, Option.bind_eq_some_iff, Option.pure_def,
    Option.some.injEq, Prod.mk.injEq]
  constructor
  · rintro ⟨_, hmaps, _, hentry, rfl, rfl⟩
    exact ⟨hmaps, hentry⟩
  · rintro ⟨hmaps, hentry⟩
    exact ⟨_, hmaps, _, hentry, rfl, rfl⟩

theorem examine_agrees (runtime : Runtime)
    (hlocate : locate request file = some (maps, entry)) :
    Agrees request file maps entry (firstFailure (passes runtime request file maps entry) checks)
      (examine runtime request file) := by
  obtain ⟨hmaps, hentry⟩ := locate_eq_some.mp hlocate
  unfold examine checks
  simp only [hmaps, hentry]
  cases hdeployed : entryBytecode entry "deployedBytecode" with
  | none =>
    rw [firstFailure_fail (by simp [passes, hdeployed])]
    rfl
  | some deployed =>
    simp only [verifyBuildRecordFreshness_eq]
    cases hcomparable : comparable deployed request.artifactDeployedBytecode with
    | false =>
      rw [firstFailure_fail (by simp [passes, hdeployed, hcomparable])]
      rfl
    | true =>
      rw [firstFailure_pass (by simp [passes, hdeployed, hcomparable])]
      rcases hsame : sameBytecode runtime deployed request.artifactDeployedBytecode with e | _ | _
      · rw [firstFailure_raise (by simpa [passes, hdeployed] using hsame)]
        rfl
      · rw [firstFailure_fail (by simpa [passes, hdeployed] using hsame)]
        rfl
      · rw [firstFailure_pass (by simpa [passes, hdeployed] using hsame)]
        have hasts : (projectBuildRecord maps request.closure).isSome =
          request.closure.all (hasAst maps) := projectBuildRecord_isSome
        cases houtput : projectBuildRecord maps request.closure with
        | none =>
          rw [houtput] at hasts
          rw [firstFailure_fail (by simp [passes, ← hasts])]
          rfl
        | some output =>
          rw [houtput] at hasts
          rw [firstFailure_pass (by simp [passes, ← hasts])]
          have hvacuous : isLayoutVacuous output request.targetKey request.contractName =
            (passes runtime request file maps entry .targetDefinitionAbsent).map not :=
              isLayoutVacuous_eq houtput
          simp only [hvacuous]
          rcases hdefined : passes runtime request file maps entry .targetDefinitionAbsent with
            e | _ | _
          · rw [firstFailure_raise hdefined]
            rfl
          · rw [firstFailure_fail hdefined]
            rfl
          · rw [firstFailure_pass hdefined]
            exact examinePair_agrees houtput

end

-- ---------------------------------------------------------------------------
-- Candidates
-- ---------------------------------------------------------------------------

section
variable (runtime : Runtime) (request : GateRequest)

/-- What the directory holds, in path order; nothing where it cannot be read. -/
def candidates : List BuildInfoFile :=
  match request.readBuildInfo request.buildInfoDirectory with
  | .ok (.files files) => sortBy runtime.localeCompare (·.file) files
  | _ => []

def Locates (file : BuildInfoFile) : Prop := (locate request file).isSome = true

instance : DecidablePred (Locates request) := fun _ => inferInstanceAs (Decidable (_ = true))

/-- The candidate passes every check. -/
def Passes (file : BuildInfoFile) : Prop :=
  ∃ maps entry, locate request file = some (maps, entry) ∧
    ∀ check, passes runtime request file maps entry check = .ok true

/-- The check is the first that the candidate fails. -/
def FailsFirst (file : BuildInfoFile) (check : RejectionReason) : Prop :=
  ∃ maps entry, locate request file = some (maps, entry) ∧
    UpTo (passes runtime request file maps entry · = .ok true) checks check ∧
    passes runtime request file maps entry check = .ok false

/-- A check of the candidate raises, the ones before it passed. -/
def Raises (file : BuildInfoFile) : Prop :=
  ∃ maps entry check e, locate request file = some (maps, entry) ∧
    UpTo (passes runtime request file maps entry · = .ok true) checks check ∧
    passes runtime request file maps entry check = .error e

def judge (file : BuildInfoFile) : Except Raised (Verdict RejectionReason Verified) :=
  (examine runtime request file).map fun
    | .notLocated => .skip
    | .rejected reason => .reject reason
    | .verified verified => .accept verified

end

section
variable {runtime : Runtime} {request : GateRequest} {file : BuildInfoFile}

theorem mem_checks (check : RejectionReason) : check ∈ checks := by
  cases check <;> decide

theorem not_locates : ¬ Locates request file ↔ locate request file = none := by
  simp [Locates]

theorem judge_none (h : locate request file = none) :
    judge runtime request file = .ok .skip := by
  unfold judge examine
  cases hmaps : recordMaps file.output with
  | none => rfl
  | some maps =>
    cases hentry : locateEntry maps request with
    | none => simp [hentry, Except.map]
    | some entry => simp [locate_eq_some.mpr ⟨hmaps, hentry⟩] at h

section
variable {maps : RecordMaps} {entry : Fields} (hlocate : locate request file = some (maps, entry))
include hlocate

theorem passes_iff : Passes runtime request file ↔
    firstFailure (passes runtime request file maps entry) checks = .ok none := by
  rw [firstFailure_none]
  constructor
  · rintro ⟨maps', entry', hlocate', h⟩ check _
    obtain ⟨rfl, rfl⟩ := Prod.mk.inj (Option.some.inj (hlocate.symm.trans hlocate'))
    exact h check
  · exact fun h => ⟨maps, entry, hlocate, fun check => h check (mem_checks check)⟩

theorem failsFirst_iff {check : RejectionReason} : FailsFirst runtime request file check ↔
    firstFailure (passes runtime request file maps entry) checks = .ok (some check) := by
  rw [firstFailure_some]
  constructor
  · rintro ⟨maps', entry', hlocate', h⟩
    obtain ⟨rfl, rfl⟩ := Prod.mk.inj (Option.some.inj (hlocate.symm.trans hlocate'))
    exact h
  · exact fun h => ⟨maps, entry, hlocate, h⟩

theorem raises_iff : Raises runtime request file ↔
    ∃ e, firstFailure (passes runtime request file maps entry) checks = .error e := by
  simp only [firstFailure_error]
  constructor
  · rintro ⟨maps', entry', check, e, hlocate', h⟩
    obtain ⟨rfl, rfl⟩ := Prod.mk.inj (Option.some.inj (hlocate.symm.trans hlocate'))
    exact ⟨e, check, h⟩
  · rintro ⟨e, check, h⟩
    exact ⟨maps, entry, check, e, hlocate, h⟩

/-- The verdict on a candidate that locates the target. -/
theorem judge_some (runtime : Runtime) :
    (∃ e, firstFailure (passes runtime request file maps entry) checks = .error e ∧
      judge runtime request file = .error e) ∨
    (∃ reason, firstFailure (passes runtime request file maps entry) checks = .ok (some reason) ∧
      judge runtime request file = .ok (.reject reason)) ∨
    (firstFailure (passes runtime request file maps entry) checks = .ok none ∧
      ∃ verified, judge runtime request file = .ok (.accept verified) ∧
        VerifiedOf request file maps entry verified) := by
  have hagrees := examine_agrees runtime hlocate
  unfold judge
  rcases hfirst : firstFailure (passes runtime request file maps entry) checks with e | _ | reason
  · rw [hfirst] at hagrees
    exact .inl ⟨e, rfl, congrArg (Except.map _) hagrees⟩
  · rw [hfirst] at hagrees
    obtain ⟨verified, hexamine, hverified⟩ := hagrees
    exact .inr (.inr ⟨rfl, verified, congrArg (Except.map _) hexamine, hverified⟩)
  · rw [hfirst] at hagrees
    exact .inr (.inl ⟨reason, rfl, congrArg (Except.map _) hagrees⟩)

end

theorem judge_skip : judge runtime request file = .ok .skip ↔ ¬ Locates request file := by
  rw [not_locates]
  constructor
  · intro h
    cases hlocate : locate request file with
    | none => rfl
    | some located =>
      obtain ⟨e, -, hjudge⟩ | ⟨reason, -, hjudge⟩ | ⟨-, verified, hjudge, -⟩ :=
        judge_some hlocate runtime <;> rw [hjudge] at h <;> cases h
  · exact judge_none

theorem judge_reject {reason : RejectionReason} :
    judge runtime request file = .ok (.reject reason) ↔ FailsFirst runtime request file reason := by
  cases hlocate : locate request file with
  | none =>
    rw [judge_none hlocate]
    refine ⟨nofun, ?_⟩
    rintro ⟨_, _, hlocate', -⟩
    cases hlocate.symm.trans hlocate'
  | some located =>
    rw [failsFirst_iff hlocate]
    obtain ⟨e, hfirst, hjudge⟩ | ⟨reason', hfirst, hjudge⟩ | ⟨hfirst, verified, hjudge, -⟩ :=
      judge_some hlocate runtime <;> simp [hjudge, hfirst]

theorem judge_raises : (∃ e, judge runtime request file = .error e) ↔
    Raises runtime request file := by
  cases hlocate : locate request file with
  | none =>
    rw [judge_none hlocate]
    refine ⟨nofun, ?_⟩
    rintro ⟨_, _, _, _, hlocate', -⟩
    cases hlocate.symm.trans hlocate'
  | some located =>
    rw [raises_iff hlocate]
    obtain ⟨e, hfirst, hjudge⟩ | ⟨reason', hfirst, hjudge⟩ | ⟨hfirst, verified, hjudge, -⟩ :=
      judge_some hlocate runtime <;> simp [hjudge, hfirst]

theorem judge_accepts : Accepts (judge runtime request) file ↔ Passes runtime request file := by
  cases hlocate : locate request file with
  | none =>
    unfold Accepts
    rw [judge_none hlocate]
    refine ⟨nofun, ?_⟩
    rintro ⟨_, _, hlocate', -⟩
    cases hlocate.symm.trans hlocate'
  | some located =>
    rw [passes_iff hlocate]
    obtain ⟨e, hfirst, hjudge⟩ | ⟨reason', hfirst, hjudge⟩ | ⟨hfirst, verified, hjudge, -⟩ :=
      judge_some hlocate runtime <;> simp [Accepts, hjudge, hfirst]

theorem judge_accept {verified : Verified}
    (h : judge runtime request file = .ok (.accept verified)) :
    ∃ maps entry, locate request file = some (maps, entry) ∧
      VerifiedOf request file maps entry verified := by
  cases hlocate : locate request file with
  | none =>
    rw [judge_none hlocate] at h
    cases h
  | some located =>
    obtain ⟨e, -, hjudge⟩ | ⟨reason, -, hjudge⟩ | ⟨-, verified', hjudge, hverified⟩ :=
      judge_some hlocate runtime <;> rw [hjudge] at h <;> cases h
    exact ⟨_, _, rfl, hverified⟩

def rejection (judged : BuildInfoFile × RejectionReason) : BuildRecordRejection :=
  ⟨judged.1.file, judged.2⟩

/-- The gate's loop is a scan of the candidates, what it has rejected in hand. -/
def answer (rejected : List BuildRecordRejection)
    (found : List (BuildInfoFile × RejectionReason) × Option (BuildInfoFile × Verified)) :
    GateResult :=
  let rejected := rejected ++ found.1.map rejection
  match found.2 with
  | some (file, verified) => .fresh ⟨file.file, rejected.length + 1⟩ verified
  | none =>
    .fallback (if rejected.length = 0 then .absent .noRecordForTarget else .stale rejected)

theorem consultFiles_scan (files : List BuildInfoFile) (rejected : List BuildRecordRejection) :
    consultFiles runtime request files rejected =
      (scan (judge runtime request) files).map (answer rejected) := by
  induction files generalizing rejected with
  | nil => simp [consultFiles, scan, answer, Except.map]
  | cons file files ih =>
    unfold consultFiles
    rcases hexamine : examine runtime request file with e | _ | reason | verified
    · simp [scan, judge, hexamine, bind, Except.bind, Except.map]
    · simp [scan, judge, hexamine, bind, Except.bind, Except.map, ih]
    · simp only [scan, judge, hexamine, bind, Except.bind, Except.map, ih]
      cases scan (judge runtime request) files with
      | error e => rfl
      | ok found => simp [answer, rejection]
    · simp [scan, judge, hexamine, bind, Except.bind, Except.map, answer, pure, Except.pure]

/-- The scan's outcome is the gate's. -/
theorem consult_error {e : Raised}
    (h : scan (judge runtime request) (candidates runtime request) = .error e) :
    consultBuildRecord runtime request = .error e := by
  unfold consultBuildRecord
  unfold candidates at h
  split at h
  · rename_i files hread
    simp [hread, consultFiles_scan, h, Except.map]
  · cases h

theorem consult_accepted {rejected : List (BuildInfoFile × RejectionReason)} {verified : Verified}
    (h : scan (judge runtime request) (candidates runtime request) =
      .ok (rejected, some (file, verified))) :
    consultBuildRecord runtime request =
      .ok (.fresh ⟨file.file, rejected.length + 1⟩ verified) := by
  unfold consultBuildRecord
  unfold candidates at h
  split at h
  · rename_i files hread
    simp [hread, consultFiles_scan, h, Except.map, answer]
  · cases h

theorem consult_exhausted {rejected : List (BuildInfoFile × RejectionReason)}
    (h : scan (judge runtime request) (candidates runtime request) = .ok (rejected, none)) :
    if rejected = [] then
      ∃ because, consultBuildRecord runtime request = .ok (.fallback (.absent because))
    else consultBuildRecord runtime request =
      .ok (.fallback (.stale (rejected.map rejection))) := by
  unfold consultBuildRecord
  unfold candidates at h
  split at h
  · rename_i files hread
    simp only [hread, consultFiles_scan, h, Except.map, answer, List.nil_append, List.length_map,
      List.length_eq_zero_iff]
    split
    · exact ⟨_, rfl⟩
    · rfl
  · rename_i hread
    cases h
    rw [if_pos rfl]
    rcases hresult : request.readBuildInfo request.buildInfoDirectory with e | _ | _ | files
    · exact ⟨_, rfl⟩
    · exact ⟨_, rfl⟩
    · exact ⟨_, rfl⟩
    · exact absurd hresult (hread files)

end

-- ---------------------------------------------------------------------------
-- The law of the gate
-- ---------------------------------------------------------------------------

section
variable (runtime : Runtime) (request : GateRequest)

/-- What a fresh answer holds is one candidate's, and the projection has the
closure's keys and that record's values. -/
structure FreshFrom (file : BuildInfoFile) (gate : FreshGate) (verified : Verified) : Prop where
  named : gate.file = file.file
  own : ∃ maps entry, locate request file = some (maps, entry) ∧
    VerifiedOf request file maps entry verified ∧
    ∀ key ∈ request.closure, verified.output.sources.get? key = objectAt maps.sources key ∧
      verified.output.contracts.get? key = objectAt maps.contracts key
  keys : ∀ key, (verified.output.sources.get? key).isSome = true ↔ key ∈ request.closure

structure GateLaw : Prop where
  fresh : (∃ gate verified, consultBuildRecord runtime request = .ok (.fresh gate verified)) ↔
    ∃ file ∈ candidates runtime request, Passes runtime request file
  first : ∀ gate verified, consultBuildRecord runtime request = .ok (.fresh gate verified) →
    ∃ file, UpTo (¬ Passes runtime request ·) (candidates runtime request) file ∧
      Passes runtime request file ∧ FreshFrom request file gate verified
  stale : (∃ rejected, consultBuildRecord runtime request = .ok (.fallback (.stale rejected))) ↔
    (∃ file ∈ candidates runtime request, Locates request file) ∧
      ∀ file ∈ candidates runtime request, ¬ Passes runtime request file
  lists : ∀ rejected, consultBuildRecord runtime request = .ok (.fallback (.stale rejected)) →
    ∃ judged : List (BuildInfoFile × RejectionReason), rejected = judged.map rejection ∧
      judged.map Prod.fst =
        (candidates runtime request).filter (fun file => Locates request file) ∧
      ∀ file reason, (file, reason) ∈ judged → FailsFirst runtime request file reason
  absent : (∃ because, consultBuildRecord runtime request = .ok (.fallback (.absent because))) ↔
    ∀ file ∈ candidates runtime request, ¬ Locates request file
  /-- Only files whose names the path order holds equal have an order. -/
  unordered : ∀ files files',
    request.readBuildInfo request.buildInfoDirectory = .ok (.files files) →
    (∀ name, sameKey runtime.localeCompare BuildInfoFile.file name files =
      sameKey runtime.localeCompare BuildInfoFile.file name files') →
    consultBuildRecord runtime { request with readBuildInfo := fun _ => .ok (.files files') } =
      consultBuildRecord runtime request

/-- No check raises of a candidate that no passing one comes before. -/
def NoneRaises : Prop :=
  ∀ file, UpTo (¬ Passes runtime request ·) (candidates runtime request) file →
    ¬ Raises runtime request file

end

section
variable {runtime : Runtime} {request : GateRequest} {file : BuildInfoFile}

theorem scan_raises_iff :
    (∃ e, scan (judge runtime request) (candidates runtime request) = .error e) ↔
      ¬ NoneRaises runtime request := by
  simp only [scan_raises, judge_accepts, judge_raises, NoneRaises, not_forall, not_not,
    exists_prop]

theorem passes_locates (h : Passes runtime request file) : Locates request file := by
  obtain ⟨maps, entry, hlocate, -⟩ := h
  simp [Locates, hlocate]

theorem judge_accept_freshFrom {verified : Verified} (count : Nat)
    (h : judge runtime request file = .ok (.accept verified)) :
    FreshFrom request file ⟨file.file, count⟩ verified := by
  obtain ⟨maps, entry, hlocate, hverified⟩ := judge_accept h
  refine ⟨rfl, ⟨maps, entry, hlocate, hverified, fun key hkey => ?_⟩,
    projectBuildRecord_keys hverified.output⟩
  simpa [hkey] using projectBuildRecord_get? hverified.output key

theorem consult_fresh {gate : FreshGate} {verified : Verified}
    (h : consultBuildRecord runtime request = .ok (.fresh gate verified)) :
    ∃ file, UpTo (¬ Passes runtime request ·) (candidates runtime request) file ∧
      Passes runtime request file ∧ FreshFrom request file gate verified := by
  rcases hscan : scan (judge runtime request) (candidates runtime request) with
    e | ⟨rejected, _ | ⟨file, verified'⟩⟩
  · cases (consult_error hscan).symm.trans h
  · have hconsult := consult_exhausted hscan
    split at hconsult
    · obtain ⟨because, hconsult⟩ := hconsult
      cases hconsult.symm.trans h
    · cases hconsult.symm.trans h
  · cases (consult_accepted hscan).symm.trans h
    obtain ⟨hupTo, hjudge⟩ := scan_accepted hscan
    simp only [judge_accepts] at hupTo
    exact ⟨file, hupTo, judge_accepts.mp ⟨verified, hjudge⟩, judge_accept_freshFrom _ hjudge⟩

theorem consult_unordered [Std.TransCmp runtime.localeCompare] {files files' : List BuildInfoFile}
    (hread : request.readBuildInfo request.buildInfoDirectory = .ok (.files files))
    (h : ∀ name, sameKey runtime.localeCompare BuildInfoFile.file name files =
      sameKey runtime.localeCompare BuildInfoFile.file name files') :
    consultBuildRecord runtime { request with readBuildInfo := fun _ => .ok (.files files') } =
      consultBuildRecord runtime request := by
  have hsorted := sortBy_congr h
  have hjudge : judge runtime { request with readBuildInfo := fun _ => .ok (.files files') } =
      judge runtime request := rfl
  simp only [consultBuildRecord, hread, consultFiles_scan, hjudge, hsorted]

/-- A candidate was accepted. -/
theorem gateLaw_of_accepted [Std.TransCmp runtime.localeCompare]
    {rejected : List (BuildInfoFile × RejectionReason)} {verified : Verified}
    (hscan : scan (judge runtime request) (candidates runtime request) =
      .ok (rejected, some (file, verified))) : GateLaw runtime request := by
  obtain ⟨hupTo, hjudge⟩ := scan_accepted hscan
  have hconsult := consult_accepted hscan
  have hpasses : Passes runtime request file := judge_accepts.mp ⟨verified, hjudge⟩
  simp only [judge_accepts] at hupTo
  constructor
  · exact ⟨fun _ => ⟨file, hupTo.mem, hpasses⟩, fun _ => ⟨_, _, hconsult⟩⟩
  · intro gate verified' hfresh
    cases hconsult.symm.trans hfresh
    exact ⟨file, hupTo, hpasses, judge_accept_freshFrom _ hjudge⟩
  · constructor
    · rintro ⟨_, hstale⟩
      cases hconsult.symm.trans hstale
    · exact fun h => absurd hpasses (h.2 file hupTo.mem)
  · intro _ hstale
    cases hconsult.symm.trans hstale
  · constructor
    · rintro ⟨_, habsent⟩
      cases hconsult.symm.trans habsent
    · exact fun h => absurd (passes_locates hpasses) (h file hupTo.mem)
  · exact fun files files' => consult_unordered

/-- Every candidate was seen, and none accepted. -/
theorem gateLaw_of_exhausted [Std.TransCmp runtime.localeCompare]
    {rejected : List (BuildInfoFile × RejectionReason)}
    (hscan : scan (judge runtime request) (candidates runtime request) = .ok (rejected, none)) :
    GateLaw runtime request := by
  have hskips (file : BuildInfoFile) : judge runtime request file = .ok .skip ↔
      decide (Locates request file) = false := by
    rw [judge_skip, decide_eq_false_iff_not]
  obtain ⟨hnone, hlocated, hrejected⟩ := scan_exhausted _ hskips hscan
  simp only [judge_accepts] at hnone
  have hconsult := consult_exhausted hscan
  have hempty : rejected = [] ↔ ∀ file ∈ candidates runtime request, ¬ Locates request file := by
    rw [← List.map_eq_nil_iff (f := Prod.fst), hlocated, List.filter_eq_nil_iff]
    simp only [decide_eq_true_eq]
  have hnotFresh (gate : FreshGate) (verified : Verified) :
      consultBuildRecord runtime request ≠ .ok (.fresh gate verified) := by
    intro hfresh
    split at hconsult
    · obtain ⟨because, hconsult⟩ := hconsult
      cases hconsult.symm.trans hfresh
    · cases hconsult.symm.trans hfresh
  have hstale : (∃ file ∈ candidates runtime request, Locates request file) ↔ rejected ≠ [] := by
    rw [Ne, hempty]
    simp
  constructor
  · constructor
    · rintro ⟨gate, verified, hfresh⟩
      exact absurd hfresh (hnotFresh gate verified)
    · rintro ⟨file, hfile, hpasses⟩
      exact absurd hpasses (hnone file hfile)
  · exact fun gate verified hfresh => absurd hfresh (hnotFresh gate verified)
  · rw [hstale]
    split at hconsult
    · rename_i hnil
      obtain ⟨because, hconsult⟩ := hconsult
      constructor
      · rintro ⟨_, h⟩
        cases hconsult.symm.trans h
      · exact fun h => absurd hnil h.1
    · rename_i hne
      exact ⟨fun _ => ⟨hne, hnone⟩, fun _ => ⟨_, hconsult⟩⟩
  · intro reported h
    split at hconsult
    · obtain ⟨because, hconsult⟩ := hconsult
      cases hconsult.symm.trans h
    · cases hconsult.symm.trans h
      exact ⟨rejected, rfl, hlocated, fun file reason hmem => judge_reject.mp (hrejected _ _ hmem)⟩
  · rw [← hempty]
    split at hconsult
    · rename_i hnil
      exact ⟨fun _ => hnil, fun _ => hconsult⟩
    · rename_i hne
      constructor
      · rintro ⟨_, habsent⟩
        cases hconsult.symm.trans habsent
      · exact fun h => absurd h hne
  · exact fun files files' => consult_unordered

theorem gate_law [Std.TransCmp runtime.localeCompare] :
    GateLaw runtime request ↔ NoneRaises runtime request := by
  constructor
  · intro law
    refine Classical.byContradiction fun hraises => ?_
    obtain ⟨e, hscan⟩ := scan_raises_iff.mpr hraises
    have hconsult := consult_error hscan
    -- An answer that raised is none of the three, and one of the three is due.
    have hpasses : ∀ file ∈ candidates runtime request, ¬ Passes runtime request file := by
      intro file hfile hpasses
      obtain ⟨gate, verified, hfresh⟩ := law.fresh.mpr ⟨file, hfile, hpasses⟩
      cases hconsult.symm.trans hfresh
    have hlocates : ∀ file ∈ candidates runtime request, ¬ Locates request file := by
      intro file hfile hlocates
      obtain ⟨rejected, hstale⟩ := law.stale.mpr ⟨⟨file, hfile, hlocates⟩, hpasses⟩
      cases hconsult.symm.trans hstale
    obtain ⟨because, habsent⟩ := law.absent.mpr hlocates
    cases hconsult.symm.trans habsent
  · intro hnone
    rcases hscan : scan (judge runtime request) (candidates runtime request) with
      e | ⟨rejected, _ | ⟨file, verified⟩⟩
    · exact absurd hnone (scan_raises_iff.mp ⟨e, hscan⟩)
    · exact gateLaw_of_exhausted hscan
    · exact gateLaw_of_accepted hscan

end

-- ---------------------------------------------------------------------------
-- A record with a null among its nodes
-- ---------------------------------------------------------------------------

/-- Bytecode without libraries: no link references, nothing to put back. -/
def plainRuntime : Runtime where
  localeCompare := compare
  toLowerCase text := .ofList (Text.toLowerCase text.toList)
  LinkReference := Nat × Nat
  extractLinkReferences _ := .ok []
  unlinkBytecode bytecode _ := .ok bytecode

instance : Std.TransCmp plainRuntime.localeCompare :=
  inferInstanceAs (Std.TransCmp (compare : String → String → Ordering))

def boxOutput (deployed : String) (nodes : List Json) : Json :=
  .obj [
    ("contracts", .obj [("Box.sol", .obj [("Box", .obj [("evm", .obj [
      ("deployedBytecode", .obj [("object", .str deployed)]),
      ("bytecode", .obj [("object", .str "6002")])])])])]),
    ("sources", .obj [("Box.sol", .obj [("ast", .obj [("nodes", .arr nodes)])])])]

def boxInput : Json :=
  .obj [
    ("language", .str "Solidity"),
    ("sources", .obj [("Box.sol", .obj [("content", .str "contract Box")])]),
    ("settings", .obj [("outputSelection", .obj [])])]

def boxDefinition : Json :=
  .obj [("nodeType", .str "ContractDefinition"), ("name", .str "Box"), ("id", .num 1)]

def brokenRecord : BuildInfoFile :=
  ⟨"a.output.json", some (boxOutput "6001" [.null, boxDefinition]), some "a.json", some boxInput⟩

def boxRecord : BuildInfoFile :=
  ⟨"b.output.json", some (boxOutput "6001" [boxDefinition]), some "b.json", some boxInput⟩

/-- Of an earlier build. -/
def staleRecord : BuildInfoFile :=
  ⟨"a.output.json", some (boxOutput "6000" [boxDefinition]), some "a.json", some boxInput⟩

def boxRequest (files : List BuildInfoFile) : GateRequest where
  readBuildInfo _ := .ok (.files files)
  buildInfoDirectory := "build-info"
  targetKey := "Box.sol"
  contractName := "Box"
  artifactDeployedBytecode := "0x6001"
  closure := ["Box.sol"]

theorem boxRecord_passes (files : List BuildInfoFile) :
    Passes plainRuntime (boxRequest files) boxRecord := by
  refine ⟨_, _, rfl, fun check => ?_⟩
  cases check with
  | deployedBytecodeDiffers =>
    have hsame : plainRuntime.toLowerCase "0x6001" = plainRuntime.toLowerCase ("0x" ++ "6001") := by
      decide
    exact congrArg Except.ok (decide_eq_true hsame)
  | _ => rfl

theorem boxRecord_second {first : BuildInfoFile} (hname : first.file = "a.output.json") :
    sortBy plainRuntime.localeCompare BuildInfoFile.file [first, boxRecord] = [first, boxRecord] := by
  refine sortBy_of_sorted (List.pairwise_pair.mpr ?_)
  rw [precedes, hname]
  decide

theorem boxRecord_listed {first : BuildInfoFile} (hname : first.file = "a.output.json") :
    boxRecord ∈ candidates plainRuntime (boxRequest [first, boxRecord]) := by
  simp [candidates, boxRequest, boxRecord_second hname]

/-- The record after the broken one passes every check and is not answered. -/
theorem null_node_raises : ¬ GateLaw plainRuntime (boxRequest [brokenRecord, boxRecord]) := by
  intro law
  have hconsult : consultBuildRecord plainRuntime (boxRequest [brokenRecord, boxRecord]) =
      .error .typeError := by
    simp only [consultBuildRecord, boxRequest, boxRecord_second (show brokenRecord.file = _ from rfl)]
    rfl
  obtain ⟨gate, verified, hfresh⟩ :=
    law.fresh.mpr ⟨boxRecord, boxRecord_listed rfl, boxRecord_passes _⟩
  cases hconsult.symm.trans hfresh

/-- The record after a stale one is answered. -/
theorem gate_law_stale : GateLaw plainRuntime (boxRequest [staleRecord, boxRecord]) ∧
    ∃ gate verified, consultBuildRecord plainRuntime (boxRequest [staleRecord, boxRecord]) =
      .ok (.fresh gate verified) := by
  have hlisted : candidates plainRuntime (boxRequest [staleRecord, boxRecord]) =
      [staleRecord, boxRecord] := by
    simp [candidates, boxRequest, boxRecord_second (show staleRecord.file = _ from rfl)]
  have hscan : ∃ found, scan (judge plainRuntime (boxRequest [staleRecord, boxRecord]))
      (candidates plainRuntime (boxRequest [staleRecord, boxRecord])) = .ok found := by
    rw [hlisted]
    exact ⟨_, rfl⟩
  have hnone : NoneRaises plainRuntime (boxRequest [staleRecord, boxRecord]) := by
    refine Classical.byContradiction fun hraises => ?_
    obtain ⟨e, hraised⟩ := scan_raises_iff.mpr hraises
    obtain ⟨found, hfound⟩ := hscan
    cases hfound.symm.trans hraised
  have law := gate_law.mpr hnone
  exact ⟨law, law.fresh.mpr ⟨boxRecord, boxRecord_listed rfl, boxRecord_passes _⟩⟩

end TronUpgrades.Validation
