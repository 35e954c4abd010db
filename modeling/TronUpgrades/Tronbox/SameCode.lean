import TronUpgrades.Tronbox.Judged

/-!
# Whether what is judged is what is deployed

Validation reaches the artifact through the contract's name; the deployment,
and an adoption's comparison with the code on chain, use the object the caller
passed. The two agree in every run whose answers for the name agree with the
object, and a console variable older than the last compile tells them apart.
-/

namespace TronUpgrades.Tronbox

open Effects Address

-- ---------------------------------------------------------------------------
-- Code outside link spans
-- ---------------------------------------------------------------------------

/-- The length of a library placeholder at the head. -/
def linkSpan? (code : List Char) : Option Nat :=
  match hashedPlaceholder? code, legacyPlaceholder? code with
  | some (_, after), _ => some (code.length - after.length)
  | none, some (_, after) => some (code.length - after.length)
  | none, none => none

/-- `fuel` is more than the length of the judged code. -/
def sameFrom : Nat → List Char → List Char → Bool
  | 0, _, _ => false
  | fuel + 1, judged, sent =>
    match linkSpan? judged with
    | some n => n ≤ sent.length && sameFrom fuel (judged.drop n) (sent.drop n)
    | none =>
      match judged, sent with
      | [], [] => true
      | c :: judged, d :: sent => c == d && sameFrom fuel judged sent
      | _, _ => false

/-- Equal but where the judged code has a library linked in. -/
def sameOutsideLinks (judged sent : String) : Bool :=
  sameFrom (judged.toList.length + 1) judged.toList sent.toList

example : sameOutsideLinks "0x60__Lib___01" "0x60abcdefgh01" = true := by decide

-- ---------------------------------------------------------------------------
-- The operations that deploy an implementation
-- ---------------------------------------------------------------------------

inductive ImplementationOperation
  | deployProxy (args : List Json)
  | upgradeProxy (proxy : String)
  | deployBeacon
  | upgradeBeacon (beacon : String)
  | deployImplementation
  | prepareUpgrade (proxy : String)

def ImplementationOperation.name : ImplementationOperation → String
  | .deployProxy _ => "deployProxy"
  | .upgradeProxy _ => "upgradeProxy"
  | .deployBeacon => "deployBeacon"
  | .upgradeBeacon _ => "upgradeBeacon"
  | .deployImplementation => "deployImplementation"
  | .prepareUpgrade _ => "prepareUpgrade"

section
variable {E : Engine}

/-- The operation, with its result left out. -/
def ImplementationOperation.run {S : Signature} (context : OperationContext E S)
    (contract : ContractAbstraction E) : ImplementationOperation → Task S Unit
  | .deployProxy args => discard (runDeployProxy context contract args)
  | .upgradeProxy proxy => discard (runUpgradeProxy context proxy contract)
  | .deployBeacon => discard (runDeployBeacon context contract)
  | .upgradeBeacon beacon => discard (runUpgradeBeacon context beacon contract)
  | .deployImplementation => discard (runDeployImplementation context contract)
  | .prepareUpgrade proxy => discard (runPrepareUpgrade context proxy contract)

variable {env : Environment} {resolved : ResolvedForProxyOps E} {contract : ContractAbstraction E}
  {h : HostHistory E} {P : HostHistory E → HostOp E → Prop} {α : Type}

/-- Some validation by the operation has judged it. -/
def JudgedBy (contract : ContractAbstraction E) (operation : String) (h : HostHistory E)
    (validated : ValidatedImplementation E) : Prop :=
  ∃ resolved, JudgedAs contract operation resolved h validated

theorem ActsCleared.mono {Cleared Cleared' : HostHistory E → ValidatedImplementation E → Prop}
    {op : HostOp E} (hc : ∀ validated, Cleared h validated → Cleared' h validated)
    (a : ActsCleared contract Cleared h op) : ActsCleared contract Cleared' h op := by
  obtain ⟨validated, hcleared, hlayout⟩ := a.cleared
  exact ⟨⟨validated, hc validated hcleared, hlayout⟩, a.own⟩

theorem discard_judges {x : HostTask E α} {operation : String}
    {Cleared : HostHistory E → ValidatedImplementation E → Prop}
    (hx : wp .free (whereActs (ActsCleared contract Cleared)) x (fun _ _ => True) [])
    (hc : ∀ h validated, Cleared h validated → JudgedBy contract operation h validated) :
    wp .free (whereActs (ActsCleared contract (JudgedBy contract operation))) (discard x)
      (fun _ _ => True) [] := by
  apply wp.bind (R := fun _ _ => True)
  · exact wp_guard_mono (fun h op hG hop => (hG hop).mono (hc h)) hx
  · exact fun _ _ _ => trivial
  · exact fun _ _ _ => trivial

theorem ImplementationOperation.judges (operation : ImplementationOperation) :
    wp .free (whereActs (ActsCleared contract (JudgedBy contract operation.name)))
      (operation.run ⟨productionToolkit env, resolved⟩ contract) (fun _ _ => True) [] := by
  cases operation with
  | deployProxy args => exact discard_judges runDeployProxy_judges fun h v hj => ⟨_, hj⟩
  | upgradeProxy proxy => exact discard_judges runUpgradeProxy_judges fun h v hj => ⟨_, hj.1⟩
  | deployBeacon => exact discard_judges runDeployBeacon_judges fun h v hj => ⟨_, hj⟩
  | upgradeBeacon beacon => exact discard_judges runUpgradeBeacon_judges fun h v hj => ⟨_, hj⟩
  | deployImplementation =>
    exact discard_judges runDeployImplementation_judges fun h v hj => ⟨_, hj⟩
  | prepareUpgrade proxy =>
    apply discard_judges runPrepareUpgrade_judges
    rintro h v ⟨kind, -, hj⟩
    exact ⟨_, hj⟩

-- ---------------------------------------------------------------------------
-- Runs whose answers agree with the object
-- ---------------------------------------------------------------------------

/-- An artifact is found under the name with the creation code of the object. -/
def SameCreation (contract : ContractAbstraction E) : Event (hostEffects E) Failure → Prop
  | ⟨.artifactRecord _, .ok (.complete bytecode)⟩ =>
    sameOutsideLinks bytecode contract.deployableBytecode = true
  | _ => True

/-- An artifact is resolved with the runtime code of the object, up to the
metadata. -/
def SameRuntime (contract : ContractAbstraction E) : Event (hostEffects E) Failure → Prop
  | ⟨.resolveArtifact _, .ok resolution⟩ => ∀ expected, contract.deployedBytecode = some expected →
    ∃ own, resolution.contract.deployedBytecode = some own ∧
      E.hashBytecodeWithoutMetadata own = E.hashBytecodeWithoutMetadata expected
  | _ => True

theorem lastJudged_mem {artifact : ContractAbstraction E} {bytecode : String}
    (hlast : lastJudged h = some (artifact, bytecode)) :
    ⟨.artifactRecord artifact, .ok (.complete bytecode)⟩ ∈ h := by
  induction h with
  | nil => cases hlast
  | cons event h ih =>
    unfold lastJudged at hlast
    split at hlast
    · cases hlast
    · rename_i heq
      cases heq
      cases hlast
      exact List.mem_cons_self
    · rename_i heq
      cases heq
      exact List.mem_cons_of_mem _ (ih hlast)

/-- Wherever the engine has called back, the code sent is the judged one's, and
wherever it settles, the layout is. -/
structure DeploysJudged (contract : ContractAbstraction E) (operation : String)
    (x : HostTask E α) (allowed : Event (hostEffects E) Failure → Prop) : Prop where
  code : ∀ deployed args next h,
    Script.Reaches (.recorded fun _ => allowed) (x, []) (.call (.hostNew deployed args) next, h) →
    callingBack h = true → ∃ artifact bytecode, lastJudged h = some (artifact, bytecode) ∧
      sameOutsideLinks bytecode deployed.deployableBytecode = true
  layout : ∀ version layout outcome next h,
    Script.Reaches (.recorded fun _ => allowed) (x, [])
      (.call (.engineSettle version layout outcome) next, h) →
    ∃ validated, JudgedBy contract operation h validated ∧ layout = validated.layout

/-- Wherever the engine settles, the layout is that of the artifact whose
runtime code was compared with the code on chain. -/
def AdoptsJudged (x : HostTask E α) (allowed : Event (hostEffects E) Failure → Prop) : Prop :=
  ∀ version layout outcome next h,
    Script.Reaches (.recorded fun _ => allowed) (x, [])
      (.call (.engineSettle version layout outcome) next, h) →
    ∃ name resolved validated artifact bytecode, Judged h name resolved validated ∧
      layout = validated.layout ∧ lastJudged h = some (artifact, bytecode) ∧
      ∃ own address code, artifact.deployedBytecode = some own ∧
        Answered h (.getCode address) code ∧
        E.hashBytecodeWithoutMetadata own = E.hashBytecodeWithoutMetadata code

theorem deployed_is_judged (env : Environment) (resolved : ResolvedForProxyOps E)
    (contract : ContractAbstraction E) :
    (∀ operation : ImplementationOperation, DeploysJudged contract operation.name
      (operation.run ⟨productionToolkit env, resolved⟩ contract) (SameCreation contract)) ∧
    ∀ address, AdoptsJudged (runForceImport ⟨productionToolkit env, resolved⟩ address contract)
      (SameRuntime contract) := by
  constructor
  · intro operation
    constructor
    · intro c args next h hr hcalling
      have hacts := operation.judges.calls hr.toFree rfl
      obtain rfl := hacts.own c args rfl hcalling
      obtain ⟨validated, ⟨resolved', name, -, hj⟩, -⟩ := hacts.cleared
      obtain ⟨input, validations, resolution, bytecode, -, -, -, hlast, -⟩ := hj
      exact ⟨resolution.contract, bytecode, hlast, hr.lawful (by simp) _ (lastJudged_mem hlast)⟩
    · intro version layout outcome next h hr
      obtain ⟨validated, hj, hlayout⟩ := (operation.judges.calls hr.toFree rfl).cleared
      exact ⟨validated, hj, hlayout _ _ _ rfl⟩
  · intro address version layout outcome next h hr
    obtain ⟨-, hacts⟩ := runForceImport_judges.calls hr.toFree rfl
    obtain ⟨validated, hadopts, hlayout⟩ := hacts.cleared
    obtain ⟨kind, name, -, hj⟩ := hadopts.judged
    obtain ⟨expected, onChain, code, hexpected, hcode, hsame⟩ := hadopts.compared
    obtain ⟨input, validations, resolution, bytecode, hinput, hv, hresolution, hlast, hjudge⟩ := hj
    obtain ⟨own, hown, hhash⟩ := hr.lawful (by simp) _ hresolution expected hexpected
    refine ⟨name, _, validated, resolution.contract, bytecode,
      ⟨input, validations, resolution, bytecode, hinput, hv, hresolution, hlast, hjudge⟩,
      hlayout _ _ _ rfl, hlast, own, onChain, code, hown, hcode, ?_⟩
    rw [hhash, hsame]

end

/-- The contract was compiled again since the object was required. -/
def recompiledHost (_ : HostHistory sampleEngine) :
    (op : HostOp sampleEngine) → Except Failure op.Reply
  | .deriveValidationInput _ => .ok (.ok true)
  | .resolveArtifact _ => .ok (.unique { sampleContract with bytecode := some "0x6009" })
  | .artifactRecord _ => .ok (.complete "0x6009")
  | .queueTurn => .ok ()
  | .entry .address _ | .entry .transactionHash _ => .ok none
  | .engineStart _ _ => .ok none
  | _ => .error (.error "not asked for")

/-- An older object is deployed under the judgement of the newer artifact. -/
theorem older_object_deployed : ∃ contract args next h artifact bytecode,
    Script.Reaches .free
      (ImplementationOperation.deployImplementation.run
        ⟨productionToolkit sampleEnvironment, sampleOptions⟩ sampleContract, [])
      (.call (.hostNew contract args) next, h) ∧
    callingBack h = true ∧ lastJudged h = some (artifact, bytecode) ∧
    sameOutsideLinks bytecode contract.deployableBytecode = false :=
  ⟨sampleContract, [], _, _, _, _,
    reaches_advancing recompiledHost (fun _ _ => trivial) 7 _ _,
    rfl, rfl, by decide⟩

end TronUpgrades.Tronbox
