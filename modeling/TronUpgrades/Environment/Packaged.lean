import TronUpgrades.Effects.Script
import TronUpgrades.Environment.Resolve
import TronUpgrades.Posix.Below

/-!
# Packaged artifacts

`resolvePackaged` hands the caller's path to the host as it is, after a look at
a copy of it whose backslashes are slashes. On a POSIX host the copy may have
parents where the path has names, so that the path goes further up than the
copy: `resolvePackaged_contained_iff` says exactly when the path is contained.
-/

namespace TronUpgrades.Environment

open Effects Posix

/-- What is asked of the host: its resolver, and whether a file exists. -/
inductive PackagedOp
  | require (input : String)
  | probe (file : String)

@[reducible] def PackagedOp.Reply : PackagedOp → Type
  | .require _ => HostValue
  | .probe _ => Bool

@[reducible] def packagedEffects : Signature := ⟨PackagedOp, PackagedOp.Reply⟩

abbrev PackagedTask (α : Type) := Script packagedEffects EnvironmentError α

def packagedCall (op : PackagedOp) : PackagedTask op.Reply := Script.perform (S := packagedEffects) op

def artifactFailure (detail : String) : EnvironmentError :=
  .incomplete [unsatisfiedSlot .artifacts (.invariantViolated detail)]

-- ---------------------------------------------------------------------------
-- The path
-- ---------------------------------------------------------------------------

/-- The argument, a string or of some other type. -/
inductive PackageRequest
  | text (path : String)
  | other (typeOf : String)

/-- `replace(/\\/g, '/')` -/
def slashNormalized (path : Path) : Path := path.map fun c => if c = '\\' then slash else c

/-- `/^[A-Za-z]:\//` -/
def namesDrive : Path → Bool
  | letter :: ':' :: '/' :: _ => letter.isAlpha
  | _ => false

/-- What is refused of a path: where it starts, or where its copy goes. -/
def leavesPackages (path : Path) : Bool :=
  let normalized := normalize (slashNormalized path)
  "./".toList.isPrefixOf path || isAbsolute path || isAbsolute normalized ||
    namesDrive normalized || normalized == parent || "../".toList.isPrefixOf normalized

def namesJson (path : Path) : Bool :=
  ".json".toList.isSuffixOf (normalize (slashNormalized path))

def validatePackageRelativePath : PackageRequest → Except EnvironmentError String
  | .other typeOf => .error (artifactFailure
      ("a packaged artifact must be addressed by a string path relative to " ++
        "node_modules, and the argument is of type " ++ typeOf ++ "."))
  | .text path =>
    if path = "" then .error (artifactFailure "a packaged artifact path must not be empty.")
    else if path.toList.contains '\x00' then
      .error (artifactFailure "a packaged artifact path must not contain a NUL byte.")
    else if leavesPackages path.toList then .error (artifactFailure
      ("packaged artifact path \"" ++ path ++ "\" must stay within an " ++
        "installed package under node_modules: it must be relative, must not " ++
        "begin with \"./\", and must not escape upwards."))
    else if !namesJson path.toList then .error (artifactFailure
      ("packaged artifact path \"" ++ path ++ "\" must name a JSON artifact."))
    else .ok path

-- ---------------------------------------------------------------------------
-- Resolving
-- ---------------------------------------------------------------------------

def nodeModules : Path := "node_modules".toList

/-- Where the host looks for the path. -/
def hostPath (root path : Path) : Path := join [root, nodeModules, path]

/-- The object that the host's resolver answered, where it did. -/
def resolveThroughIntercept (input : String) : PackagedTask (Option HostValue) := do
  let resolved ← (packagedCall (.require input)).attempt
  match resolved with
  | .ok value => return if value.isObjectLike then some value else none
  | .error _ => return none

/-- A file that is not there, and one that the host could not load. -/
def diagnosePackaged (root validated : String) : PackagedTask HostValue := do
  let file := String.ofList (hostPath root.toList validated.toList)
  let exists? ← Script.attempt (do
    -- the assertion is inside the guard
    if !isAbsolute file.toList then throw (artifactFailure file)
    else packagedCall (.probe file))
  match exists? with
  | .error _ => throw (artifactFailure
      ("packaged artifact \"" ++ validated ++ "\" could not be loaded from " ++
        "\"" ++ file ++ "\", and the injected reader's existence probe for that " ++
        "path failed, so the seam cannot say whether the file is missing or malformed."))
  | .ok false => throw (artifactFailure
      ("packaged artifact \"" ++ validated ++ "\" does not exist at \"" ++ file ++ "\". " ++
        "Nothing is installed at the path TronBox resolves, so install or " ++
        "update the package that provides the artifact."))
  | .ok true => throw (artifactFailure
      ("packaged artifact \"" ++ validated ++ "\" exists at \"" ++ file ++ "\" but TronBox " ++
        "could not load it: the file is unreadable or is not valid JSON. " ++
        "Reinstall the package that provides it, or check its permissions."))

def resolvePackaged (root : String) (request : PackageRequest) : PackagedTask HostValue := do
  let validated ← .ofExcept (validatePackageRelativePath request)
  let outcome ← resolveThroughIntercept validated
  match outcome with
  | some contract => return contract
  | none => diagnosePackaged root validated

-- ---------------------------------------------------------------------------
-- Containment
-- ---------------------------------------------------------------------------

def packagesDirectory (root : Path) : Path := join [root, nodeModules]

/-- An accepted path is below the packages; one that is not there is refused
with nothing asked of the host. -/
structure PackagedContained (root path : String) : Prop where
  inside : ∀ validated, validatePackageRelativePath (.text path) = .ok validated →
    StrictlyBelow (packagesDirectory root.toList) (hostPath root.toList validated.toList)
  refused : ¬ StrictlyBelow (packagesDirectory root.toList) (hostPath root.toList path.toList) →
    ∃ failure, resolvePackaged root (.text path) = .throw failure

/-- What the look at the copy lets through. -/
structure PassesChecks (path : String) : Prop where
  nonempty : path ≠ ""
  noNul : '\x00' ∉ path.toList
  stays : leavesPackages path.toList = false
  json : namesJson path.toList = true

/-- With its backslashes left as they are, the path goes on from the directory,
or comes back to it by naming what its parents took off. -/
def ComesBack (root path : Path) : Prop :=
  let directory := normalSegments (packagesDirectory root) false
  ∃ below ≠ [], down path = directory.drop (directory.length - ups path) ++ below

section
variable {path root : String}

theorem validatePackageRelativePath_ok {validated : String} :
    validatePackageRelativePath (.text path) = .ok validated ↔ PassesChecks path ∧ path = validated := by
  unfold validatePackageRelativePath
  constructor
  · intro h
    simp only at h
    split at h
    · cases h
    split at h
    · cases h
    split at h
    · cases h
    split at h
    · cases h
    cases h
    rename_i hempty hnul hleaves hjson
    exact ⟨⟨hempty, by simpa using hnul, by simpa using hleaves, by simpa using hjson⟩, rfl⟩
  · rintro ⟨⟨hempty, hnul, hleaves, hjson⟩, rfl⟩
    simp [hempty, hnul, hleaves, hjson]

theorem nodeModules_ne : nodeModules ≠ [] := by decide

theorem packagesDirectory_segments {root : Path} (hroot : isAbsolute root = true) :
    normalSegments (packagesDirectory root) false =
      normalSegments (root ++ slash :: nodeModules) false := by
  have hne : root ≠ [] := by
    rintro rfl
    cases hroot
  have hjoin : packagesDirectory root = normalize (root ++ slash :: nodeModules) := by
    simp [packagesDirectory, join, hne, nodeModules_ne]
  have habsolute : isAbsolute (root ++ slash :: nodeModules) = true :=
    (isAbsolute_append hne).trans hroot
  rw [hjoin, normalSegments_normalize habsolute]

theorem hostPath_segments {root path : Path} (hroot : isAbsolute root = true) (hpath : path ≠ []) :
    normalSegments (hostPath root path) false =
      normalSegments ((root ++ slash :: nodeModules) ++ slash :: path) false := by
  have hne : root ≠ [] := by
    rintro rfl
    cases hroot
  obtain ⟨below, hjoin, hbelow⟩ := join_absolute hroot nodeModules path
  have habsolute : isAbsolute (root ++ below) = true := (isAbsolute_append hne).trans hroot
  rw [hostPath, hjoin, normalSegments_normalize habsolute, hbelow nodeModules_ne hpath, List.append_assoc,
    List.cons_append]

theorem hostPath_below {root path : Path} (hroot : isAbsolute root = true) (hpath : path ≠ []) :
    StrictlyBelow (packagesDirectory root) (hostPath root path) ↔ ComesBack root path := by
  rw [strictlyBelow_congr (packagesDirectory_segments hroot) (hostPath_segments hroot hpath),
    strictlyBelow_relative, ← packagesDirectory_segments hroot]
  rfl

end

/-- A path that is let through is contained exactly where it comes back by itself,
not just its copy. -/
theorem resolvePackaged_contained_iff (root : AbsolutePath) (path : String) :
    PackagedContained root.1 path ↔ (PassesChecks path → ComesBack root.1.toList path.toList) := by
  constructor
  · intro h hpasses
    have hpath : path.toList ≠ [] := by simpa using hpasses.nonempty
    exact (hostPath_below root.2 hpath).mp
      (h.inside path (validatePackageRelativePath_ok.mpr ⟨hpasses, rfl⟩))
  · intro h
    by_cases hpasses : PassesChecks path
    · have hpath : path.toList ≠ [] := by simpa using hpasses.nonempty
      have hbelow := (hostPath_below root.2 hpath).mpr (h hpasses)
      refine ⟨fun validated hvalidated => ?_, fun hescapes => absurd hbelow hescapes⟩
      obtain ⟨-, rfl⟩ := validatePackageRelativePath_ok.mp hvalidated
      exact hbelow
    · refine ⟨fun validated hvalidated => ?_, fun _ => ?_⟩
      · exact absurd (validatePackageRelativePath_ok.mp hvalidated).1 hpasses
      · cases hvalidated : validatePackageRelativePath (.text path) with
        | ok validated => exact absurd (validatePackageRelativePath_ok.mp hvalidated).1 hpasses
        | error failure =>
          refine ⟨failure, ?_⟩
          rw [resolvePackaged, hvalidated]
          rfl

section
variable {path : Path}

theorem slashNormalized_self (h : '\\' ∉ path) : slashNormalized path = path := by
  refine (List.map_congr_left fun c hc => ?_).trans (List.map_id path)
  have hne : c ≠ '\\' := fun heq => h (heq ▸ hc)
  simp [hne]

/-- Without a backslash the copy is the path, and what the look lets through is
contained. -/
theorem comesBack_of_noBackslash (root : Path) (hnone : '\\' ∉ path) (hne : path ≠ [])
    (hstays : leavesPackages path = false) (hjson : namesJson path = true) : ComesBack root path := by
  simp only [leavesPackages, slashNormalized_self hnone, Bool.or_eq_false_iff] at hstays
  obtain ⟨⟨⟨⟨⟨-, hrelative⟩, -⟩, -⟩, hparent⟩, hup⟩ := hstays
  cases hsegments : normalSegments path true with
  | nil =>
    have hnothing : normalizeString path true = [] := by
      rw [normalizeString, hsegments]
      rfl
    rw [namesJson, slashNormalized_self hnone, normalize_relative hne hrelative,
      if_pos hnothing] at hjson
    split at hjson
    · exact absurd hjson (by decide)
    · exact absurd hjson (by decide)
  | cons first rest =>
    have hfirst : first ≠ parent := by
      rintro rfl
      have hleaves := normalize_up hne hrelative hsegments
      rw [hparent, hup] at hleaves
      cases hleaves
    refine ⟨first :: rest, List.cons_ne_nil _ _, ?_⟩
    simp [down, ups, hsegments, hfirst]

end

/-- One name with a backslash is two in the copy. -/
def twoNames : String := "a\\b/../../x.json"

/-- The look lets it through, and the host resolves it beside the packages. -/
theorem twoNames_leaves :
    validatePackageRelativePath (.text twoNames) = .ok twoNames ∧
      hostPath "/p".toList twoNames.toList = "/p/x.json".toList ∧
      ¬ PackagedContained "/p" twoNames := by
  refine ⟨rfl, by decide, fun h => ?_⟩
  obtain ⟨below, -, hbelow⟩ := h.inside twoNames rfl
  have hpath : normalSegments (hostPath "/p".toList twoNames.toList) false =
      ["p".toList, "x.json".toList] := by decide
  have hdirectory : normalSegments (packagesDirectory "/p".toList) false =
      ["p".toList, nodeModules] := by decide
  rw [hpath, hdirectory] at hbelow
  exact absurd (List.cons.inj (List.cons.inj hbelow).2).1 (by decide)

end TronUpgrades.Environment
