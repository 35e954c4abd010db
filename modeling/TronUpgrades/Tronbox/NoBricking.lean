import Mathlib.Tactic.ByContra
import TronUpgrades.Tronbox.Judged

/-!
# No upgrade bricks a proxy

A UUPS proxy without the upgrade entry point in its new implementation can
never be upgraded again. `runUpgradeProxy` and `runPrepareUpgrade` spend only
on a candidate that the validation accepts under the very kind they route by;
for a proxy without an admin that kind is `uups`, so the candidate has the
entry point.
-/

namespace TronUpgrades.Tronbox

open Effects Record Address

/-- What is relied on of the engine: under `uups` a missing entry point is an
error unless the options allow it, and the inference goes by the entry point. -/
structure EntryPointLaws (E : Engine) (hasEntry : E.Validations → E.Version → Prop)
    (allowsMissing : E.ValidationOptions → Prop) : Prop where
  reports : ∀ validations version options errors,
    E.getErrors validations version options .uups = .ok errors →
    ¬ hasEntry validations version → ¬ allowsMissing options → errors ≠ []
  infers : ∀ validations version kind, E.inferProxyKind validations version = .ok kind →
    (kind = .uups ↔ hasEntry validations version)

section
variable {E : Engine}

/-- What the engine's `processProxyKind` may settle on for a proxy with the
record: the kind given, else the one inferred, and no other than the record's. -/
def SettlesOn (record given : Option ProxyKind) (validations : E.Validations)
    (version : E.Version) (kind : ProxyKind) : Prop :=
  (match given with
    | some given => kind = given
    | none => E.inferProxyKind validations version = .ok kind) ∧
  ∀ recorded ∈ record, recorded = kind

def ProcessesKind (record : Option ProxyKind) : Event (hostEffects E) Failure → Prop
  | ⟨.processProxyKind _ given validations version, .ok kind⟩ =>
    SettlesOn record given validations version kind
  | ⟨.proxyRecord _, .ok answer⟩ => answer = record
  | _ => True

/-- The proxy has an implementation, and neither admin nor beacon. -/
def WithoutAdmin (codec : AddressCodec) (proxy : String) : Event (hostEffects E) Failure → Prop
  | ⟨.readProxySlots address, .ok slots⟩ => canonicalizeAddress codec proxy = .ok address →
    ∃ implementation, slots = .code (some implementation) none none
  | _ => True

variable {name : String} {resolved : ResolvedForProxyOps E} {input : E.ValidationInput}
  {validations : E.Validations} {abi : E.Abi} {bytecode : String}
  {validated : ValidatedImplementation E} {h : HostHistory E} {contract : ContractAbstraction E}
  {operation : String} {kind : ProxyKind}

/-- An accepted candidate has no errors under the kind it was judged with, and
is accepted under that kind when it is given. -/
theorem judge_ok
    (hj : judge name resolved input validations abi bytecode = .ok validated) :
    ∃ kind, kindForErrors validated.validations validated.version resolved.kind = .ok kind ∧
      E.getErrors validated.validations validated.version resolved.engineOptions kind = .ok [] ∧
      judge name { resolved with kind := some kind } input validations abi bytecode =
        .ok validated := by
  unfold judge at hj ⊢
  obtain ⟨unlinked, hunlinked, hj⟩ := bind_ok hj
  obtain ⟨encodedArgs, hargs, hj⟩ := bind_ok hj
  obtain ⟨kind, hkind, hj⟩ := bind_ok hj
  obtain ⟨errors, herrors, hj⟩ := bind_ok hj
  obtain ⟨_, hnone, hj⟩ := bind_ok hj
  obtain ⟨layout, hlayout, hj⟩ := bind_ok hj
  cases hj
  obtain rfl := Decidable.not_not.mp (refuseIf_ok hnone)
  refine ⟨kind, hkind, mapError_ok herrors, ?_⟩
  simp only [hunlinked, hargs, herrors, hlayout, kindForErrors, ok_bind]
  rfl

theorem Judged.accepted (j : Judged h name resolved validated) :
    ∃ kind, kindForErrors validated.validations validated.version resolved.kind = .ok kind ∧
      E.getErrors validated.validations validated.version resolved.engineOptions kind = .ok [] ∧
      Judged h name { resolved with kind := some kind } validated := by
  obtain ⟨input, validations, resolution, bytecode, hinput, hv, hresolution, hlast, hj⟩ := j
  obtain ⟨kind, hkind, herrors, hj⟩ := judge_ok hj
  exact ⟨kind, hkind, herrors, input, validations, resolution, bytecode, hinput, hv, hresolution,
    hlast, hj⟩

/-- The kind the engine settles on is the one the candidate was judged with. -/
theorem ProcessesKind.judged {record : Option ProxyKind} {address : String}
    (hp : ProcessesKind (E := E) record
      ⟨.processProxyKind address resolved.kind validated.validations validated.version, .ok kind⟩)
    {judgedWith : ProxyKind}
    (hk : kindForErrors validated.validations validated.version resolved.kind = .ok judgedWith) :
    judgedWith = kind := by
  obtain ⟨hgiven, -⟩ := hp
  cases hr : resolved.kind with
  | some given =>
    rw [hr] at hk hgiven
    cases hk
    exact hgiven.symm
  | none =>
    rw [hr] at hk hgiven
    have hinferred := mapError_ok hk
    rw [hgiven] at hinferred
    cases hinferred
    rfl

variable {hasEntry : E.Validations → E.Version → Prop} {allowsMissing : E.ValidationOptions → Prop}

theorem EntryPointLaws.hasEntry_of_uups (laws : EntryPointLaws E hasEntry allowsMissing)
    (hmissing : ¬ allowsMissing resolved.engineOptions)
    (j : Judged h name { resolved with kind := some .uups } validated) :
    hasEntry validated.validations validated.version := by
  obtain ⟨kind, hkind, herrors, -⟩ := j.accepted
  cases hkind
  by_contra hentry
  exact laws.reports _ _ _ _ herrors hentry hmissing rfl

/-- Without an admin an upgrade is routed as `uups` or not at all. -/
theorem upgradeAdmin_none {address : String} {adminAddress : Option String}
    (h : upgradeAdmin address kind none = .ok adminAddress) (hbeacon : kind ≠ .beacon) :
    kind = .uups := by
  cases kind with
  | transparent => cases h
  | uups => rfl
  | beacon => exact absurd rfl hbeacon

variable {env : Environment} {proxy : String} {record : Option ProxyKind} {α : Type}

theorem ProxyUpgradeJudged.accepted (hlaw : ∀ event ∈ h, ProcessesKind record event)
    (hj : ProxyUpgradeJudged env resolved proxy contract h validated) :
    ∃ kind, ProxyUpgradeRouted env resolved proxy kind h validated ∧
      JudgedAs contract "upgradeProxy" { resolved with kind := some kind } h validated := by
  obtain ⟨⟨name, hname, hj⟩, kind, hrouted⟩ := hj
  obtain ⟨address, hkind⟩ := hrouted.kind
  obtain ⟨judgedWith, hk, -, hj⟩ := hj.accepted
  obtain rfl := (hlaw _ hkind).judged hk
  exact ⟨judgedWith, hrouted, name, hname, hj⟩

theorem ProxyUpgradeRouted.uups (hlaw : ∀ event ∈ h, WithoutAdmin env.codec proxy event)
    (hr : ProxyUpgradeRouted env resolved proxy kind h validated) : kind = .uups := by
  obtain ⟨address, implementation, admin, adminAddress, haddress, hslots, hadmin⟩ := hr.slots
  obtain ⟨implementation', heq⟩ := hlaw _ hslots haddress
  cases heq
  exact upgradeAdmin_none hadmin hr.notBeacon

theorem PrepareRouted.uups (hlaw : ∀ event ∈ h, ProcessesKind record event)
    (hrecord : ∀ recorded ∈ record, recorded = .uups) (hr : PrepareRouted env proxy kind h) :
    kind = .uups := by
  obtain ⟨address, key, -, -, hanswer⟩ := hr.recorded
  have hanswer : some kind = record := hlaw _ hanswer
  exact hrecord kind hanswer.symm

/-- What an upgrade operation never does to a proxy with this record. -/
structure NeverBricks (hasEntry : E.Validations → E.Version → Prop)
    (allowsMissing : E.ValidationOptions → Prop) (env : Environment)
    (resolved : ResolvedForProxyOps E) (proxy : String) (contract : ContractAbstraction E)
    (record : Option ProxyKind) (operation : String) (x : HostTask E α)
    (Routed : ProxyKind → HostHistory E → ValidatedImplementation E → Prop) : Prop where
  /-- Without an admin, nothing is spent on a candidate without the entry point. -/
  spared : (∀ recorded ∈ record, recorded = .uups) → ¬ allowsMissing resolved.engineOptions →
    ∀ op next h, Script.Reaches
      (.recorded fun _ event => ProcessesKind record event ∧ WithoutAdmin env.codec proxy event)
      (x, []) (.call op next, h) →
    (∀ kind validated, JudgedAs contract operation { resolved with kind := some kind } h validated →
      ¬ hasEntry validated.validations validated.version) →
    HostOp.spends op = false
  /-- What is spent is spent on a candidate accepted under the kind routed by. -/
  accepted : ∀ op next h,
    Script.Reaches (.recorded fun _ => ProcessesKind record) (x, []) (.call op next, h) →
    HostOp.spends op = true →
    ∃ kind validated, Routed kind h validated ∧
      JudgedAs contract operation { resolved with kind := some kind } h validated

theorem HostOp.acts_of_spends {op : HostOp E} (hop : op.spends = true) : op.acts = true := by
  cases op <;> first | rfl | cases hop

/-- Both parts from what is judged wherever the operation acts. -/
theorem NeverBricks.of_judges (laws : EntryPointLaws E hasEntry allowsMissing) {x : HostTask E α}
    {Cleared : HostHistory E → ValidatedImplementation E → Prop}
    {Routed : ProxyKind → HostHistory E → ValidatedImplementation E → Prop}
    (hx : wp .free (whereActs (ActsCleared contract Cleared)) x (fun _ _ => True) [])
    (accepted : ∀ h validated, (∀ event ∈ h, ProcessesKind record event) → Cleared h validated →
      ∃ kind, Routed kind h validated ∧
        JudgedAs contract operation { resolved with kind := some kind } h validated)
    (uups : ∀ kind h validated, (∀ recorded ∈ record, recorded = .uups) →
      (∀ event ∈ h, ProcessesKind record event ∧ WithoutAdmin env.codec proxy event) →
      Routed kind h validated → kind = .uups) :
    NeverBricks hasEntry allowsMissing env resolved proxy contract record operation x Routed where
  spared hrecord hmissing op next h hr hcandidate := by
    have hlaw := hr.lawful (by simp)
    cases hop : HostOp.spends op with
    | false => rfl
    | true =>
      obtain ⟨validated, hc, -⟩ := (hx.calls hr.toFree (HostOp.acts_of_spends hop)).cleared
      obtain ⟨kind, hrouted, hj⟩ := accepted h validated (fun e he => (hlaw e he).1) hc
      obtain rfl := uups kind h validated hrecord hlaw hrouted
      obtain ⟨name, hname, hjudged⟩ := hj
      exact absurd (laws.hasEntry_of_uups hmissing hjudged)
        (hcandidate .uups validated ⟨name, hname, hjudged⟩)
  accepted op next h hr hop := by
    obtain ⟨validated, hc, -⟩ := (hx.calls hr.toFree (HostOp.acts_of_spends hop)).cleared
    obtain ⟨kind, hrouted, hj⟩ := accepted h validated (hr.lawful (by simp)) hc
    exact ⟨kind, validated, hrouted, hj⟩

theorem upgrades_never_brick (laws : EntryPointLaws E hasEntry allowsMissing) (env : Environment)
    (resolved : ResolvedForProxyOps E) (proxy : String) (contract : ContractAbstraction E)
    (record : Option ProxyKind) :
    NeverBricks hasEntry allowsMissing env resolved proxy contract record "upgradeProxy"
      (runUpgradeProxy ⟨productionToolkit env, resolved⟩ proxy contract)
      (ProxyUpgradeRouted env resolved proxy) ∧
    NeverBricks hasEntry allowsMissing env resolved proxy contract record "prepareUpgrade"
      (runPrepareUpgrade ⟨productionToolkit env, resolved⟩ proxy contract)
      (fun kind h _ => PrepareRouted env proxy kind h) := by
  constructor
  · apply NeverBricks.of_judges laws runUpgradeProxy_judges
    · exact fun h validated hlaw hj => hj.accepted hlaw
    · exact fun kind h validated _ hlaw hr => hr.uups fun event he => (hlaw event he).2
  · apply NeverBricks.of_judges laws runPrepareUpgrade_judges
    · rintro h validated - ⟨kind, hrouted, hj⟩
      exact ⟨kind, hrouted, hj⟩
    · intro kind h validated hrecord hlaw hr
      exact hr.uups (fun event he => (hlaw event he).1) hrecord

end

theorem sampleEngine_laws :
    EntryPointLaws sampleEngine (fun hasEntry _ => hasEntry = true) (fun allows => allows = true)
    where
  reports validations version options errors herrors hentry hmissing := by
    cases herrors
    simp_all
  infers validations version kind hkind := by
    cases hkind
    cases validations with
    | true => exact ⟨fun _ => rfl, fun _ => rfl⟩
    | false => exact ⟨nofun, nofun⟩

theorem sample_never_bricked :
    NeverBricks (fun hasEntry _ => hasEntry = true) (fun allows => allows = true)
      sampleEnvironment sampleOptions "0x0000000000000000000000000000000000000042" sampleContract
      (some .uups) "upgradeProxy"
      (runUpgradeProxy ⟨productionToolkit sampleEnvironment, sampleOptions⟩
        "0x0000000000000000000000000000000000000042" sampleContract)
      (ProxyUpgradeRouted sampleEnvironment sampleOptions
        "0x0000000000000000000000000000000000000042") :=
  (upgrades_never_brick sampleEngine_laws sampleEnvironment sampleOptions _ sampleContract _).1

end TronUpgrades.Tronbox
