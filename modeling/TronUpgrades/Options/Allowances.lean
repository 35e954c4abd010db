import TronUpgrades.Options.Resolve
import TronUpgrades.Checks.Ends

/-!
# Allowances are not widened

`Documented` is what is relied on of the engine's defaulting, which judges by
the array it was given and pushes into it. `allowanceLaws`: the kinds resolved
are the kinds the caller granted, and no use the engine makes of a copy adds to
the resolved array or to a copy taken later.
-/

namespace TronUpgrades.Options

open Checks (bind_ok pure_ok forM_ok forM_congr)

-- ---------------------------------------------------------------------------
-- The two channels of an allowance
-- ---------------------------------------------------------------------------

/-- A flag of the engine's that stands for kinds. -/
inductive AllowanceFlag
  | customTypes | linkedLibraries
  deriving DecidableEq, Repr

namespace AllowanceFlag

def name : AllowanceFlag → String
  | .customTypes => "unsafeAllowCustomTypes"
  | .linkedLibraries => "unsafeAllowLinkedLibraries"

def kinds : AllowanceFlag → List UnsafeAllowKind
  | .customTypes => [.enumDefinition, .structDefinition]
  | .linkedLibraries => [.externalLibraryLinking]

end AllowanceFlag

namespace ValidationInput

variable (given : ValidationInput)

def flag : AllowanceFlag → Option Bool
  | .customTypes => given.unsafeAllowCustomTypes
  | .linkedLibraries => given.unsafeAllowLinkedLibraries

def kinds : List UnsafeAllowKind := given.unsafeAllow.getD []

end ValidationInput

namespace ValidationOptions

variable {α β : Type} (options : ValidationOptions α)

def flag : AllowanceFlag → Bool
  | .customTypes => options.unsafeAllowCustomTypes
  | .linkedLibraries => options.unsafeAllowLinkedLibraries

def holding (unsafeAllow : β) : ValidationOptions β := { options with unsafeAllow }

@[simp] theorem holding_flag (b : β) (flag : AllowanceFlag) :
    (options.holding b).flag flag = options.flag flag := by
  cases flag <;> rfl

@[simp] theorem input_flag (options : ValidationOptions (List UnsafeAllowKind))
    (flag : AllowanceFlag) : options.input.flag flag = some (options.flag flag) := by
  cases flag <;> rfl

@[simp] theorem input_kinds (options : ValidationOptions (List UnsafeAllowKind)) :
    options.input.kinds = options.unsafeAllow := rfl

end ValidationOptions

/-- A flag that is missing is derived from the kinds present, and the kinds a
true flag covers are pushed. -/
structure Documented (withValidationDefaults : EngineDefaults) : Prop where
  flag : ∀ given flag, (withValidationDefaults given).flag flag =
    (given.flag flag).getD (flag.kinds.all fun kind => given.kinds.contains kind)
  unsafeAllow : ∀ given, ∃ pushed,
    (withValidationDefaults given).unsafeAllow = given.kinds ++ pushed ∧
    ∀ kind, kind ∈ pushed ↔ ∃ flag, (withValidationDefaults given).flag flag = true ∧
      kind ∈ flag.kinds

namespace SuppliedOptions

variable (supplied : SuppliedOptions)

/-- The caller's own `unsafeAllow` lists the kind. -/
def Lists (kind : UnsafeAllowKind) : Prop :=
  ∃ items, supplied.read "unsafeAllow" = .array items ∧ .string kind.name ∈ items

/-- Through `unsafeAllow`, or through the flag that covers the kind. -/
def Grants (kind : UnsafeAllowKind) : Prop :=
  supplied.Lists kind ∨ ∃ flag : AllowanceFlag, kind ∈ flag.kinds ∧
    supplied.read flag.name = .boolean true

end SuppliedOptions

namespace Documented

variable {withValidationDefaults : EngineDefaults} (core : Documented withValidationDefaults)
  (given : ValidationInput)

include core

theorem mem_unsafeAllow {kind : UnsafeAllowKind} :
    kind ∈ (withValidationDefaults given).unsafeAllow ↔ kind ∈ given.kinds ∨
      ∃ flag : AllowanceFlag, given.flag flag = some true ∧ kind ∈ flag.kinds := by
  obtain ⟨pushed, happend, hpushed⟩ := core.unsafeAllow given
  rw [happend, List.mem_append, hpushed]
  constructor
  · rintro (hgiven | ⟨flag, htrue, hkind⟩)
    · exact .inl hgiven
    · rw [core.flag] at htrue
      cases hflag : given.flag flag with
      | some b =>
        rw [hflag] at htrue
        exact .inr ⟨flag, hflag.trans (congrArg some htrue), hkind⟩
      | none =>
        -- A flag derived from the kinds covers only kinds that are present.
        rw [hflag, Option.getD_none, List.all_eq_true] at htrue
        exact .inl (List.contains_iff_mem.mp (htrue kind hkind))
  · rintro (hgiven | ⟨flag, hflag, hkind⟩)
    · exact .inl hgiven
    · exact .inr ⟨flag, by rw [core.flag, hflag]; rfl, hkind⟩

/-- What a true flag covers is present, whether it was given or derived. -/
theorem covered {flag : AllowanceFlag} (hflag : (withValidationDefaults given).flag flag = true)
    {kind : UnsafeAllowKind} (hkind : kind ∈ flag.kinds) :
    kind ∈ (withValidationDefaults given).unsafeAllow := by
  obtain ⟨pushed, happend, hpushed⟩ := core.unsafeAllow given
  rw [happend, List.mem_append, hpushed]
  exact .inr ⟨flag, hflag, hkind⟩

end Documented

-- ---------------------------------------------------------------------------
-- What the readers answer
-- ---------------------------------------------------------------------------

theorem name_injective {kind kind' : UnsafeAllowKind} (h : kind.name = kind'.name) :
    kind = kind' := by
  cases kind <;> cases kind' <;> first | rfl | exact absurd h (by decide)

theorem mem_unsafeAllowKinds (kind : UnsafeAllowKind) : kind ∈ unsafeAllowKinds := by
  cases kind <;> decide

theorem asUnsafeAllowKind_some {member : OptionValue} {kind : UnsafeAllowKind} :
    asUnsafeAllowKind member = some kind ↔ member = .string kind.name := by
  constructor
  · intro h
    cases member with
    | string s =>
      have hname := List.find?_some h
      rw [← beq_iff_eq.mp hname]
    | _ => cases h
  · rintro rfl
    have hfound : (unsafeAllowKinds.find? (·.name == kind.name)).isSome :=
      List.find?_isSome.mpr ⟨kind, mem_unsafeAllowKinds kind, beq_self_eq_true _⟩
    obtain ⟨kind', hkind'⟩ := Option.isSome_iff_exists.mp hfound
    have hname := List.find?_some hkind'
    rw [name_injective (beq_iff_eq.mp hname)] at hkind'
    exact hkind'

section
variable {supplied : SuppliedOptions}

theorem readBooleanOption_ok {key : String} {flag : Option Bool}
    (h : readBooleanOption supplied key = .ok flag) (b : Bool) :
    flag = some b ↔ supplied.read key = .boolean b := by
  unfold readBooleanOption readOption at h
  cases hread : supplied.read key with
  | undefined =>
    rw [hread] at h
    cases h
    simp
  | boolean b' =>
    rw [hread] at h
    cases h
    simp
  | _ =>
    rw [hread] at h
    cases h

theorem readUnsafeAllow_ok {unsafeAllow : Option (List UnsafeAllowKind)}
    (h : readUnsafeAllow supplied = .ok unsafeAllow) (kind : UnsafeAllowKind) :
    kind ∈ unsafeAllow.getD [] ↔ supplied.Lists kind := by
  unfold readUnsafeAllow at h
  unfold SuppliedOptions.Lists
  cases hread : supplied.read "unsafeAllow" with
  | undefined =>
    rw [hread] at h
    cases h
    simp
  | array items =>
    rw [hread] at h
    cases hfind : items.find? fun member => (asUnsafeAllowKind member).isNone with
    | some member =>
      simp only [hfind] at h
      cases h
    | none =>
      simp only [hfind] at h
      cases h
      simp only [Option.getD_some, List.mem_filterMap, asUnsafeAllowKind_some]
      constructor
      · rintro ⟨_, hitem, rfl⟩
        exact ⟨items, rfl, hitem⟩
      · rintro ⟨_, ⟨⟩, hitem⟩
        exact ⟨_, hitem, rfl⟩
  | _ =>
    rw [hread] at h
    cases h

end

-- ---------------------------------------------------------------------------
-- What a resolution has passed
-- ---------------------------------------------------------------------------

theorem checkContradiction_ok {supplied : SuppliedOptions} {contradiction : Contradiction}
    (h : checkContradiction supplied contradiction = .ok ()) :
    contradiction.holds supplied = .ok false := by
  obtain ⟨holds, hholds, h⟩ := bind_ok.mp h
  cases holds with
  | false => exact hholds
  | true => cases h

section
variable {withValidationDefaults : EngineDefaults} {supplied : SuppliedOptions}
  {accepted : List String} {resolved : ResolvedUpgradeOptions}

/-- The object the engine's defaulting is given agrees with what was supplied. -/
structure Reads (supplied : SuppliedOptions) (given : ValidationInput) : Prop where
  kinds : ∀ kind, kind ∈ given.kinds ↔ supplied.Lists kind
  flag : ∀ (flag : AllowanceFlag) b,
    given.flag flag = some b ↔ supplied.read flag.name = .boolean b

theorem validationInput_ok {given : ValidationInput} (h : validationInput supplied = .ok given) :
    Reads supplied given := by
  unfold validationInput at h
  simp only [bind_ok, pure_ok] at h
  obtain ⟨_, -, unsafeAllow, hunsafe, _, hcustom, _, hlinked, _, -, _, -, rfl⟩ := h
  refine ⟨readUnsafeAllow_ok hunsafe, ?_⟩
  rintro (_ | _) b
  · exact readBooleanOption_ok hcustom b
  · exact readBooleanOption_ok hlinked b

theorem resolved_validation
    (h : resolveUpgradeOptions withValidationDefaults supplied accepted = .ok resolved) :
    ∃ given, Reads supplied given ∧ resolved.validation = withValidationDefaults given := by
  obtain ⟨_, -, h⟩ := bind_ok.mp h
  unfold buildResolved at h
  obtain ⟨given, hgiven, h⟩ := bind_ok.mp h
  simp only [bind_ok, pure_ok] at h
  obtain ⟨_, -, _, -, _, -, _, -, _, -, _, -, _, -, _, -, _, -, rfl⟩ := h
  exact ⟨given, validationInput_ok hgiven, rfl⟩

theorem checked
    (h : resolveUpgradeOptions withValidationDefaults supplied accepted = .ok resolved) :
    ∀ step ∈ checkSteps, step.check supplied accepted = .ok () := by
  obtain ⟨_, hsteps, -⟩ := bind_ok.mp h
  exact forM_ok hsteps

theorem not_contradicted
    (h : resolveUpgradeOptions withValidationDefaults supplied accepted = .ok resolved)
    {contradiction : Contradiction} (hmem : contradiction ∈ contradictions) :
    contradiction.holds supplied = .ok false := by
  have hstep := checked h _ (.tail _ (.tail _ (.head _)))
  exact checkContradiction_ok (forM_ok hstep contradiction hmem)

/-- An explicit false, and all that the flag covers listed, is refused. -/
theorem revoked_ok
    (h : resolveUpgradeOptions withValidationDefaults supplied accepted = .ok resolved)
    {flag : AllowanceFlag} (hfalse : supplied.read flag.name = .boolean false) :
    ¬ ∀ kind ∈ flag.kinds, supplied.Lists kind := by
  intro hlists
  cases flag with
  | customTypes =>
    have hholds := not_contradicted h (.tail _ (.head _))
    unfold customTypesRevoked at hholds
    simp only [bind_ok, pure_ok] at hholds
    obtain ⟨unsafeAllow, hunsafe, flag, hflag, hholds⟩ := hholds
    have hstruct := (readUnsafeAllow_ok hunsafe _).mpr (hlists .structDefinition (by decide))
    have henum := (readUnsafeAllow_ok hunsafe _).mpr (hlists .enumDefinition (by decide))
    have hno : flag = some false := (readBooleanOption_ok hflag false).mpr hfalse
    rw [hno, List.contains_iff_mem.mpr hstruct, List.contains_iff_mem.mpr henum] at hholds
    cases hholds
  | linkedLibraries =>
    have hholds := not_contradicted h (.head _)
    unfold linkedLibrariesRevoked at hholds
    obtain ⟨flag, hflag, hholds⟩ := bind_ok.mp hholds
    have hno : flag = some false := (readBooleanOption_ok hflag false).mpr hfalse
    rw [if_pos hno] at hholds
    simp only [bind_ok, pure_ok] at hholds
    obtain ⟨unsafeAllow, hunsafe, hholds⟩ := hholds
    have hlinked := (readUnsafeAllow_ok hunsafe _).mpr (hlists .externalLibraryLinking (by decide))
    rw [List.contains_iff_mem.mpr hlinked] at hholds
    cases hholds

theorem granted_iff (core : Documented withValidationDefaults)
    (h : resolveUpgradeOptions withValidationDefaults supplied accepted = .ok resolved)
    (kind : UnsafeAllowKind) :
    kind ∈ resolved.validation.unsafeAllow ↔ supplied.Grants kind := by
  obtain ⟨given, hreads, hvalidation⟩ := resolved_validation h
  rw [hvalidation, core.mem_unsafeAllow, hreads.kinds]
  simp only [hreads.flag, SuppliedOptions.Grants, and_comm]

end

-- ---------------------------------------------------------------------------
-- Only own accepted keys
-- ---------------------------------------------------------------------------

namespace SuppliedOptions

variable {supplied supplied' : SuppliedOptions} {accepted : List String}

/-- No key of the object's own is outside the list. -/
def Within (supplied : SuppliedOptions) (accepted : List String) : Prop :=
  ∀ key, (supplied.own? key).isSome → key ∈ accepted

/-- `Object.keys` lists every own key that is outside the list. -/
def Listed (supplied : SuppliedOptions) (accepted : List String) : Prop :=
  ∀ entry ∈ supplied.own, entry.1 ∉ accepted → entry.2.enumerable = true

theorem own?_some {key : String} {p : OwnProperty} (h : supplied.own? key = some p) :
    (key, p) ∈ supplied.own := by
  unfold own? at h
  obtain ⟨⟨key', p'⟩, hfind, rfl⟩ := Option.map_eq_some_iff.mp h
  have hkey := List.find?_some hfind
  rw [← beq_iff_eq.mp hkey]
  exact List.mem_of_find?_eq_some hfind

theorem read_congr (h : ∀ key ∈ accepted, supplied.own? key = supplied'.own? key)
    (hw : supplied.Within accepted) (hw' : supplied'.Within accepted) (key : String) :
    supplied.read key = supplied'.read key := by
  unfold read get
  by_cases hkey : key ∈ accepted
  · rw [h key hkey]
    cases supplied'.own? key <;> rfl
  · have hnone : supplied.own? key = none := by
      by_contra hown
      exact hkey (hw key (Option.isSome_iff_ne_none.mpr hown))
    have hnone' : supplied'.own? key = none := by
      by_contra hown
      exact hkey (hw' key (Option.isSome_iff_ne_none.mpr hown))
    rw [hnone, hnone']
    rfl

end SuppliedOptions

section
variable {withValidationDefaults : EngineDefaults} {supplied supplied' : SuppliedOptions}
  {accepted : List String} {resolved : ResolvedUpgradeOptions}

theorem checkKeys_ok (h : checkKeys supplied accepted = .ok ()) :
    ∀ key ∈ supplied.keys, key ∈ accepted := by
  intro key hkey
  by_contra hnot
  unfold checkKeys at h
  have hpos : (supplied.keys.filter fun key => !accepted.contains key).length > 0 :=
    List.length_pos_of_mem (List.mem_filter.mpr ⟨hkey, by simpa using hnot⟩)
  simp only [if_pos hpos] at h
  cases h

theorem mem_keys_own {key : String} (h : key ∈ supplied.keys) : (supplied.own? key).isSome := by
  unfold SuppliedOptions.keys at h
  obtain ⟨entry, hentry, rfl⟩ := List.mem_map.mp h
  unfold SuppliedOptions.own?
  rw [Option.isSome_map, List.find?_isSome]
  exact ⟨entry, (List.mem_filter.mp hentry).1, beq_self_eq_true _⟩

theorem checkKeys_within (hw : supplied.Within accepted) :
    checkKeys supplied accepted = .ok () := by
  have hnone : (supplied.keys.filter fun key => !accepted.contains key) = [] := by
    rw [List.filter_eq_nil_iff]
    intro key hkey
    simpa using hw key (mem_keys_own hkey)
  unfold checkKeys
  rw [hnone]
  rfl

theorem within_of_resolved (hlisted : supplied.Listed accepted)
    (h : resolveUpgradeOptions withValidationDefaults supplied accepted = .ok resolved) :
    supplied.Within accepted := by
  intro key hown
  by_contra hnot
  obtain ⟨p, hp⟩ := Option.isSome_iff_exists.mp hown
  have hmem := SuppliedOptions.own?_some hp
  refine hnot (checkKeys_ok (checked h _ (.head _)) key (List.mem_map.mpr ⟨(key, p), ?_, rfl⟩))
  exact List.mem_filter.mpr ⟨hmem, hlisted _ hmem hnot⟩

section
variable (hread : supplied.read = supplied'.read)

include hread

theorem readOption_congr {α : Type} (narrow : OptionValue → Option α) (values : AcceptedValues) :
    readOption narrow values supplied = readOption narrow values supplied' := by
  funext key
  unfold readOption
  rw [hread]

theorem readBooleanOption_congr : readBooleanOption supplied = readBooleanOption supplied' := by
  funext key
  exact congrFun (readOption_congr hread _ _) key

theorem readUnsafeAllow_congr : readUnsafeAllow supplied = readUnsafeAllow supplied' := by
  unfold readUnsafeAllow
  rw [hread]

theorem holds_congr {contradiction : Contradiction} (h : contradiction ∈ contradictions) :
    contradiction.holds supplied = contradiction.holds supplied' := by
  unfold contradictions at h
  simp only [List.mem_cons, List.not_mem_nil, or_false] at h
  rcases h with rfl | rfl | rfl
  · simp only [linkedLibrariesRevoked, readBooleanOption_congr hread, readUnsafeAllow_congr hread]
  · simp only [customTypesRevoked, readBooleanOption_congr hread, readUnsafeAllow_congr hread]
  · simp only [redeployPolicyTwice, hread]

/-- Past the keys, a step only reads. -/
theorem check_congr (hkeys : checkKeys supplied accepted = checkKeys supplied' accepted)
    {step : CheckStep} (h : step ∈ checkSteps) :
    step.check supplied accepted = step.check supplied' accepted := by
  unfold checkSteps at h
  simp only [List.mem_cons, List.not_mem_nil, or_false] at h
  rcases h with rfl | rfl | rfl | rfl | rfl
  · exact hkeys
  · simp only [checkClosedSets, readProxyKind, readRedeployMode, readOption_congr hread,
      readBooleanOption_congr hread, readUnsafeAllow_congr hread]
  · refine forM_congr fun contradiction hmem => ?_
    unfold checkContradiction
    rw [holds_congr hread hmem]
  · simp only [checkBounds, readMilliseconds, readOption_congr hread]
  · simp only [checkShapes, readConstructorArgs, readInitializerOption, readCallOption,
      readInitialOwner, readOption_congr hread]

theorem build_congr : buildResolved withValidationDefaults supplied =
    buildResolved withValidationDefaults supplied' := by
  simp only [buildResolved, validationInput, resolveRedeployMode, readProxyKind, readRedeployMode,
    readMilliseconds, readConstructorArgs, readInitializerOption, readCallOption, readInitialOwner,
    readOption_congr hread, readBooleanOption_congr hread, readUnsafeAllow_congr hread]

end

theorem resolve_within (hlisted : supplied.Listed accepted)
    (h : resolveUpgradeOptions withValidationDefaults supplied accepted = .ok resolved)
    (hsame : ∀ key ∈ accepted, supplied.own? key = supplied'.own? key)
    (hw' : supplied'.Within accepted) :
    resolveUpgradeOptions withValidationDefaults supplied' accepted = .ok resolved := by
  have hw := within_of_resolved hlisted h
  have hread : supplied.read = supplied'.read :=
    funext (SuppliedOptions.read_congr hsame hw hw')
  have hkeys : checkKeys supplied accepted = checkKeys supplied' accepted := by
    rw [checkKeys_within hw, checkKeys_within hw']
  have hchecks : (checkSteps.forM fun step => step.check supplied accepted) =
      checkSteps.forM fun step => step.check supplied' accepted :=
    forM_congr fun _ => check_congr hread hkeys
  unfold resolveUpgradeOptions at h ⊢
  rw [← hchecks, ← build_congr hread]
  exact h

end

-- ---------------------------------------------------------------------------
-- What is handed to the engine
-- ---------------------------------------------------------------------------

/-- The `unsafeAllow` arrays, by reference. -/
abbrev Arrays := List (List UnsafeAllowKind)

/-- An object whose array is held by reference, as data. -/
def ValidationOptions.load (options : ValidationOptions Nat) (arrays : Arrays) :
    ValidationOptions (List UnsafeAllowKind) :=
  options.holding (arrays.getD options.unsafeAllow [])

@[simp] theorem ValidationOptions.load_flag (options : ValidationOptions Nat) (arrays : Arrays)
    (flag : AllowanceFlag) : (options.load arrays).flag flag = options.flag flag :=
  options.holding_flag _ flag

def engineValidationOptions (resolved : ValidationOptions Nat) (arrays : Arrays) :
    ValidationOptions Nat × Arrays :=
  (resolved.holding arrays.length, arrays ++ [arrays.getD resolved.unsafeAllow []])

/-- The arrays there are, and every options object that the engine holds. -/
structure Uses where
  arrays : Arrays
  held : List (ValidationOptions Nat)

inductive Use
  /-- `engineValidationOptions(resolved)`, handed to the engine. -/
  | take
  /-- The engine's defaulting of an object it holds. -/
  | default (i : Nat)

/-- Its answer holds the array it was given. -/
def Uses.defaulted (withValidationDefaults : EngineDefaults) (uses : Uses)
    (options : ValidationOptions Nat) : Uses :=
  let answer := withValidationDefaults (options.load uses.arrays).input
  ⟨uses.arrays.set options.unsafeAllow answer.unsafeAllow,
    uses.held ++ [answer.holding options.unsafeAllow]⟩

namespace ResolvedUpgradeOptions

variable (withValidationDefaults : EngineDefaults) (resolved : ResolvedUpgradeOptions)

/-- The resolved object holds the first array. -/
def held : ValidationOptions Nat := resolved.validation.holding 0

def start : Uses := ⟨[resolved.validation.unsafeAllow], []⟩

/-- The defaulting answers an object that holds the array it was given. -/
def take (uses : Uses) : Uses :=
  let (options, arrays) := engineValidationOptions resolved.held uses.arrays
  ⟨arrays, uses.held ++ [options]⟩

def use (uses : Uses) : Use → Uses
  | .take => resolved.take uses
  | .default i => (uses.held[i]?).elim uses (uses.defaulted withValidationDefaults)

def uses (steps : List Use) : Uses :=
  steps.foldl (resolved.use withValidationDefaults) resolved.start

end ResolvedUpgradeOptions

/-- The resolved array is as it was, the engine holds none but other arrays with
the same kinds, and the flags it holds are the resolved ones. -/
structure Uses.Confined (resolved : ResolvedUpgradeOptions) (uses : Uses) : Prop where
  unchanged : uses.arrays[0]? = some resolved.validation.unsafeAllow
  kinds : ∀ kinds ∈ uses.arrays, ∀ kind, kind ∈ kinds ↔ kind ∈ resolved.validation.unsafeAllow
  held : ∀ options ∈ uses.held, 0 < options.unsafeAllow ∧
    options.unsafeAllow < uses.arrays.length ∧
    ∀ flag, options.flag flag = resolved.validation.flag flag

section
variable {withValidationDefaults : EngineDefaults} {resolved : ResolvedUpgradeOptions} {uses : Uses}

theorem start_confined : resolved.start.Confined resolved where
  unchanged := rfl
  kinds := by
    intro kinds hkinds kind
    rw [List.mem_singleton.mp hkinds]
  held := by
    intro options hoptions
    cases hoptions

theorem Uses.Confined.take (h : uses.Confined resolved) :
    (resolved.take uses).Confined resolved := by
  have hresolved : uses.arrays.getD 0 [] = resolved.validation.unsafeAllow := by
    rw [List.getD_eq_getElem?_getD, h.unchanged]
    rfl
  have hpos : 0 < uses.arrays.length := (List.getElem?_eq_some_iff.mp h.unchanged).1
  constructor
  · change (uses.arrays ++ [_])[0]? = _
    rw [List.getElem?_append_left hpos, h.unchanged]
  · intro kinds hkinds kind
    rcases List.mem_append.mp hkinds with hkinds | hkinds
    · exact h.kinds kinds hkinds kind
    · rw [List.mem_singleton.mp hkinds]
      change kind ∈ uses.arrays.getD 0 [] ↔ _
      rw [hresolved]
  · intro options hoptions
    change _ ∧ options.unsafeAllow < (uses.arrays ++ [_]).length ∧ _
    rw [List.length_append, List.length_singleton]
    rcases List.mem_append.mp hoptions with hoptions | hoptions
    · obtain ⟨hne, hlt, hflags⟩ := h.held options hoptions
      exact ⟨hne, by omega, hflags⟩
    · rw [List.mem_singleton.mp hoptions]
      refine ⟨hpos, Nat.lt_succ_self _, ?_⟩
      intro flag
      exact (ValidationOptions.holding_flag ..).trans (ValidationOptions.holding_flag ..)

theorem Uses.Confined.load (h : uses.Confined resolved) {options : ValidationOptions Nat}
    (hheld : options ∈ uses.held) (kind : UnsafeAllowKind) :
    kind ∈ (options.load uses.arrays).unsafeAllow ↔ kind ∈ resolved.validation.unsafeAllow := by
  obtain ⟨-, hlt, -⟩ := h.held options hheld
  have hload : (options.load uses.arrays).unsafeAllow = uses.arrays[options.unsafeAllow] := by
    change uses.arrays.getD options.unsafeAllow [] = _
    rw [List.getD_eq_getElem?_getD, List.getElem?_eq_getElem hlt]
    rfl
  rw [hload]
  exact h.kinds _ (List.getElem_mem hlt) kind

variable (core : Documented withValidationDefaults)
  (hcovered : ∀ flag : AllowanceFlag, resolved.validation.flag flag = true →
    ∀ kind ∈ flag.kinds, kind ∈ resolved.validation.unsafeAllow)

include core hcovered

/-- Defaulting a held object pushes only what its true flags cover, and that was
there. -/
theorem Uses.Confined.default (h : uses.Confined resolved) {options : ValidationOptions Nat}
    (hheld : options ∈ uses.held) :
    (uses.defaulted withValidationDefaults options).Confined resolved := by
  obtain ⟨hpos, hlt, hflags⟩ := h.held options hheld
  have hgiven := h.load hheld
  constructor
  · change (uses.arrays.set options.unsafeAllow _)[0]? = _
    rw [List.getElem?_set_ne (by omega), h.unchanged]
  · intro kinds hkinds kind
    rcases List.mem_or_eq_of_mem_set hkinds with hkinds | rfl
    · exact h.kinds kinds hkinds kind
    · rw [core.mem_unsafeAllow, ValidationOptions.input_kinds]
      constructor
      · rintro (hkind | ⟨flag, hflag, hkind⟩)
        · exact (hgiven kind).mp hkind
        · rw [ValidationOptions.input_flag, ValidationOptions.load_flag, hflags] at hflag
          exact hcovered flag (Option.some.inj hflag) kind hkind
      · intro hkind
        exact .inl ((hgiven kind).mpr hkind)
  · intro options' hheld'
    change _ ∧ options'.unsafeAllow < (uses.arrays.set options.unsafeAllow _).length ∧ _
    rw [List.length_set]
    rcases List.mem_append.mp hheld' with hheld' | hheld'
    · exact h.held options' hheld'
    · rw [List.mem_singleton.mp hheld']
      refine ⟨hpos, hlt, fun flag => ?_⟩
      rw [ValidationOptions.holding_flag, core.flag, ValidationOptions.input_flag,
        ValidationOptions.load_flag, hflags]
      rfl

theorem Uses.Confined.use (h : uses.Confined resolved) (step : Use) :
    (resolved.use withValidationDefaults uses step).Confined resolved := by
  cases step with
  | take => exact h.take
  | default i =>
    change ((uses.held[i]?).elim uses (uses.defaulted withValidationDefaults)).Confined resolved
    cases hi : uses.held[i]? with
    | none => exact h
    | some options => exact h.default core hcovered (List.mem_of_getElem? hi)

theorem uses_confined (steps : List Use) :
    (resolved.uses withValidationDefaults steps).Confined resolved := by
  have run : ∀ uses : Uses, uses.Confined resolved →
      (steps.foldl (resolved.use withValidationDefaults) uses).Confined resolved := by
    induction steps with
    | nil => exact fun _ h => h
    | cons step steps ih =>
      intro uses h
      rw [List.foldl_cons]
      exact ih _ (h.use core hcovered step)
  exact run _ start_confined

end

-- ---------------------------------------------------------------------------
-- The laws
-- ---------------------------------------------------------------------------

/-- What holds of an accepted object. An explicit false revokes what it covers
but for a custom type that `unsafeAllow` lists without the other. -/
structure AllowanceLaws (withValidationDefaults : EngineDefaults) (supplied : SuppliedOptions)
    (accepted : List String) (resolved : ResolvedUpgradeOptions) : Prop where
  granted : ∀ kind, kind ∈ resolved.validation.unsafeAllow ↔ supplied.Grants kind
  revoked : ∀ flag : AllowanceFlag, supplied.read flag.name = .boolean false → ∀ kind ∈ flag.kinds,
    kind ∈ resolved.validation.unsafeAllow → flag = .customTypes ∧ supplied.Lists kind ∧
      ∀ kind' ∈ flag.kinds, kind' ≠ kind → kind' ∉ resolved.validation.unsafeAllow
  ownOnly : supplied.Listed accepted → ∀ supplied' : SuppliedOptions, supplied'.Within accepted →
    (∀ key ∈ accepted, supplied.own? key = supplied'.own? key) →
    resolveUpgradeOptions withValidationDefaults supplied' accepted = .ok resolved
  handed : ∀ steps, let uses := resolved.uses withValidationDefaults steps
    uses.arrays[0]? = some resolved.validation.unsafeAllow ∧
    (engineValidationOptions resolved.held uses.arrays).1.load
      (engineValidationOptions resolved.held uses.arrays).2 = resolved.validation ∧
    ∀ options ∈ uses.held, ∀ kind,
      kind ∈ (options.load uses.arrays).unsafeAllow ↔ supplied.Grants kind

section
variable {withValidationDefaults : EngineDefaults} {supplied : SuppliedOptions}
  {accepted : List String} {resolved : ResolvedUpgradeOptions}

/-- The flags cover different kinds. -/
theorem covers_unique {flag flag' : AllowanceFlag} {kind : UnsafeAllowKind} (h : kind ∈ flag.kinds)
    (h' : kind ∈ flag'.kinds) : flag = flag' := by
  revert h h'
  cases flag <;> cases flag' <;> cases kind <;> decide

theorem lists_of_grants {flag : AllowanceFlag} (hfalse : supplied.read flag.name = .boolean false)
    {kind : UnsafeAllowKind} (hkind : kind ∈ flag.kinds) (h : supplied.Grants kind) :
    supplied.Lists kind := by
  rcases h with hlists | ⟨flag', hkind', htrue⟩
  · exact hlists
  · rw [covers_unique hkind' hkind, hfalse] at htrue
    cases htrue

theorem loaded_copy {arrays : Arrays} (h : arrays[0]? = some resolved.validation.unsafeAllow) :
    (engineValidationOptions resolved.held arrays).1.load
      (engineValidationOptions resolved.held arrays).2 = resolved.validation := by
  unfold engineValidationOptions ValidationOptions.load ResolvedUpgradeOptions.held
  simp [ValidationOptions.holding, h]

theorem allowance_laws (core : Documented withValidationDefaults)
    (h : resolveUpgradeOptions withValidationDefaults supplied accepted = .ok resolved) :
    AllowanceLaws withValidationDefaults supplied accepted resolved where
  granted := granted_iff core h
  revoked := by
    intro flag hfalse kind hkind hgranted
    have lists : ∀ kind ∈ flag.kinds, kind ∈ resolved.validation.unsafeAllow →
        supplied.Lists kind := fun kind hkind hgranted =>
      lists_of_grants hfalse hkind ((granted_iff core h kind).mp hgranted)
    have hnot := revoked_ok h hfalse
    cases flag with
    | linkedLibraries =>
      refine absurd (fun kind' hkind' => ?_) hnot
      rw [List.mem_singleton.mp hkind', ← List.mem_singleton.mp hkind]
      exact lists kind hkind hgranted
    | customTypes =>
      refine ⟨rfl, lists kind hkind hgranted, fun kind' hkind' hne hgranted' => hnot ?_⟩
      have hall : ∀ other ∈ AllowanceFlag.customTypes.kinds, other = kind ∨ other = kind' := by
        revert hkind hkind' hne
        cases kind <;> cases kind' <;> decide
      intro other hother
      rcases hall other hother with rfl | rfl
      · exact lists _ hkind hgranted
      · exact lists _ hkind' hgranted'
  ownOnly := fun hlisted _ hwithin hsame => resolve_within hlisted h hsame hwithin
  handed := by
    intro steps
    have hconfined : (resolved.uses withValidationDefaults steps).Confined resolved := by
      obtain ⟨given, -, hvalidation⟩ := resolved_validation h
      refine uses_confined core (fun flag hflag kind hkind => ?_) steps
      rw [hvalidation] at hflag ⊢
      exact core.covered given hflag hkind
    refine ⟨hconfined.unchanged, loaded_copy hconfined.unchanged, fun options hheld kind => ?_⟩
    rw [hconfined.load hheld, granted_iff core h]

end

-- ---------------------------------------------------------------------------
-- At two operations' keys
-- ---------------------------------------------------------------------------

def handleOptionKeys : List String :=
  ["deployer", "artifacts", "tronWrap", "tronWeb", "waitForTransactionReceipt"]

def deployProxyAcceptedOptions : List String :=
  handleOptionKeys ++ ["kind", "initializer", "constructorArgs", "unsafeAllow",
    "unsafeAllowRenames", "unsafeSkipStorageCheck", "unsafeAllowCustomTypes",
    "unsafeAllowLinkedLibraries", "unsafeSkipProxyAdminCheck", "initialOwner",
    "redeployImplementation", "useDeployedImplementation", "timeout", "pollingInterval"]

def deployBeaconProxyAcceptedOptions : List String :=
  handleOptionKeys ++ ["initializer", "timeout", "pollingInterval"]

/-- A defaulting as the documentation has it. -/
def derivingDefaults : EngineDefaults := fun given =>
  let flag (flag : AllowanceFlag) : Bool :=
    (given.flag flag).getD (flag.kinds.all fun kind => given.kinds.contains kind)
  let pushed (covering : AllowanceFlag) := if flag covering then covering.kinds else []
  { kind := given.kind.getD .transparent
    unsafeAllow := given.kinds ++ (pushed .customTypes ++ pushed .linkedLibraries)
    unsafeAllowCustomTypes := flag .customTypes
    unsafeAllowLinkedLibraries := flag .linkedLibraries
    unsafeAllowRenames := given.unsafeAllowRenames.getD false
    unsafeSkipStorageCheck := given.unsafeSkipStorageCheck.getD false }

theorem derivingDefaults_flag (given : ValidationInput) (flag : AllowanceFlag) :
    (derivingDefaults given).flag flag =
      (given.flag flag).getD (flag.kinds.all fun kind => given.kinds.contains kind) := by
  cases flag <;> rfl

theorem derivingDefaults_documented : Documented derivingDefaults where
  flag := derivingDefaults_flag
  unsafeAllow := by
    intro given
    refine ⟨_, rfl, fun kind => ?_⟩
    simp only [← derivingDefaults_flag, List.mem_append, List.mem_ite_nil_right]
    constructor
    · rintro (⟨hflag, hkind⟩ | ⟨hflag, hkind⟩)
      · exact ⟨.customTypes, hflag, hkind⟩
      · exact ⟨.linkedLibraries, hflag, hkind⟩
    · rintro ⟨_ | _, hflag, hkind⟩
      · exact .inl ⟨hflag, hkind⟩
      · exact .inr ⟨hflag, hkind⟩

/-- The flag revokes both custom types, and the array lists one. -/
def structListed : SuppliedOptions where
  own := [("unsafeAllowCustomTypes", { value := .boolean false }),
    ("unsafeAllow", { value := .array [.string "struct-definition"] })]

/-- `Object.keys` does not list the key. -/
def hiddenAllow : SuppliedOptions where
  own := [("unsafeAllow", { value := .array [.string "delegatecall"], enumerable := false })]

/-- What an explicit false covers is granted, and so is what an operation's keys
leave out. -/
theorem structListed_granted :
    structListed.read AllowanceFlag.customTypes.name = .boolean false ∧
    (resolveUpgradeOptions derivingDefaults structListed deployProxyAcceptedOptions).toOption.map
      (·.validation.unsafeAllow) = some [.structDefinition] ∧
    (resolveUpgradeOptions derivingDefaults hiddenAllow
      deployBeaconProxyAcceptedOptions).toOption.map (·.validation.unsafeAllow) =
        some [.delegatecall] := by
  exact ⟨rfl, rfl, rfl⟩

def linkedGiven : SuppliedOptions where
  own := [("unsafeAllowLinkedLibraries", { value := .boolean true }),
    ("unsafeAllow", { value := .array [.string "struct-definition", .string "enum-definition"] })]

theorem allowance_laws_linkedGiven : ∃ resolved,
    resolveUpgradeOptions derivingDefaults linkedGiven deployProxyAcceptedOptions = .ok resolved ∧
    resolved.validation.unsafeAllow = [.structDefinition, .enumDefinition, .enumDefinition,
      .structDefinition, .externalLibraryLinking] ∧
    AllowanceLaws derivingDefaults linkedGiven deployProxyAcceptedOptions resolved :=
  ⟨_, rfl, rfl, allowance_laws derivingDefaults_documented rfl⟩

end TronUpgrades.Options
