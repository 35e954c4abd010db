import Mathlib.Data.Set.Finite.Lattice
import TronUpgrades.Posix.Normal
import TronUpgrades.Validation.ImportClosure

/-!
# How far imports lead

On a file system with finitely many files only finitely many sources can be
read: a path on disk is normal, and a package's source is addressed by a
specifier of some text, or by one below the directory of a source on disk. So
the walk comes to an end.
-/

namespace TronUpgrades.Validation

open Keyed Posix
open Checks (bind_ok)

-- ---------------------------------------------------------------------------
-- Module specifiers
-- ---------------------------------------------------------------------------

structure ValidSpecifier (specifier : Path) : Prop where
  ne : specifier ≠ []
  relative : isAbsolute specifier = false
  down : Downward specifier

theorem isValidModuleSpecifier_valid {specifier : Path}
    (h : isValidModuleSpecifier specifier = true) : ValidSpecifier specifier := by
  unfold isValidModuleSpecifier at h
  split at h
  · cases h
  · rename_i hno
    rw [Bool.or_eq_true, not_or] at hno
    refine ⟨?_, by simpa using hno.1, fun hup => hno.2 ?_⟩
    · rintro rfl
      cases h
    · rw [List.contains_iff_mem,
        splitOnP_flatMap (p := (· == slash)) (fun c hc => by simp_all [isSeparator])]
      exact List.mem_flatMap.mpr ⟨['.', '.'], hup, by decide⟩

theorem named_nodeModules : named "node_modules".toList = ["node_modules".toList] := by decide

/-- Where a package's source is on disk says which segments its specifier
names. -/
theorem named_of_onDisk {paths : ProjectPaths} {specifier : Path}
    (hroot : isAbsolute paths.root = true) (h : ValidSpecifier specifier) :
    named specifier = (normalSegments (modulePathOnDisk paths specifier) false).drop
      ((normalSegments paths.root false).length + 1) := by
  rw [modulePathOnDisk, normalSegments_join hroot (by decide) h.ne ⟨by decide, h.down⟩,
    named_nodeModules]
  simp

theorem extractImports_ne {source : List Char} {specifier : Path}
    (h : specifier ∈ extractImports source) : specifier ≠ [] := by
  simpa using (List.mem_filter.mp h).2

-- ---------------------------------------------------------------------------
-- What can be read
-- ---------------------------------------------------------------------------

/-- There are finitely many files, each at one absolute normal path. -/
def FiniteFiles (request : SourceGraphRequest) : Prop :=
  {path | request.exists_ path = true ∧ isAbsolute path = true ∧ normalize path = path}.Finite

section
variable (request : SourceGraphRequest)

/-- The paths on disk that the walk can read. -/
def onDisk : Set Path :=
  insert request.targetPath
    {path | request.exists_ path = true ∧ isAbsolute path = true ∧ normalize path = path}

/-- What the texts on disk import, as it is written. -/
def written : Set Path :=
  ⋃ path ∈ onDisk request,
    {specifier | ∃ content, request.readSource path = .ok content ∧
      specifier ∈ extractImports content}

/-- The directories, below the packages, of sources on disk. -/
def below : Set (List Path) :=
  ⋃ path ∈ onDisk request, {directory | directory ∈
    ((normalSegments path false).drop ((normalSegments request.paths.root false).length + 1)).inits}

/-- Specifiers written somewhere, or relative to the directory of a source on
disk. -/
def specifiers : Set Path :=
  written request ∪ ⋃ segments ∈ below request, ⋃ specifier ∈ written request,
    {module | specifier ≠ [] ∧ ∃ directory, (directory ≠ [] ∧ isAbsolute directory = false ∧
      Downward directory) ∧ named directory = segments ∧
        module = forwardSlashes (join [directory, specifier])}

variable {request}

theorem onDisk_finite (h : FiniteFiles request) : (onDisk request).Finite := h.insert _

theorem written_finite (h : FiniteFiles request) : (written request).Finite := by
  refine (onDisk_finite h).biUnion fun path _ => ?_
  cases hread : request.readSource path with
  | error thrown =>
    refine Set.finite_empty.subset fun specifier hs => ?_
    obtain ⟨content, hcontent, -⟩ := hs
    cases hcontent
  | ok content =>
    refine (List.finite_toSet (extractImports content)).subset fun specifier hs => ?_
    obtain ⟨content', hcontent, hspecifier⟩ := hs
    cases hcontent
    exact hspecifier

theorem below_finite (h : FiniteFiles request) : (below request).Finite :=
  (onDisk_finite h).biUnion fun _ _ => List.finite_toSet _

theorem specifiers_finite (h : FiniteFiles request) : (specifiers request).Finite := by
  refine (written_finite h).union ((below_finite h).biUnion fun segments _ =>
    (written_finite h).biUnion fun specifier _ => Set.Subsingleton.finite ?_)
  -- Only what the directory names counts.
  rintro _ ⟨hne, directory, hdirectory, hnamed, rfl⟩ _ ⟨-, directory', hdirectory', hnamed', rfl⟩
  rw [join_congr hne hdirectory hdirectory' (hnamed.trans hnamed'.symm)]

/-- The references the walk can come to. -/
def InReach (request : SourceGraphRequest) (current : PendingRef) : Prop :=
  match current.ref with
  | .file path => request.exists_ path = true → path ∈ onDisk request
  | .module specifier => isValidModuleSpecifier specifier = true ∧ specifier ∈ specifiers request

theorem file_inReach {path specifier : Path} (hcwd : isAbsolute request.paths.cwd = true)
    (hexists : request.exists_ (resolveFileSystemImport request.paths path specifier) = true) :
    resolveFileSystemImport request.paths path specifier ∈ onDisk request := by
  obtain ⟨resolved, hresolved⟩ := resolve_absolute hcwd [join [dirname path, specifier]]
  refine .inr ⟨hexists, ?_⟩
  rw [resolveFileSystemImport, hresolved]
  exact ⟨rfl, normalize_absolutePath (normalSegments_normal resolved) false⟩

theorem module_onDisk {specifier : Path} (hroot : isAbsolute request.paths.root = true)
    (hexists : request.exists_ (modulePathOnDisk request.paths specifier) = true) :
    modulePathOnDisk request.paths specifier ∈ onDisk request :=
  .inr ⟨hexists, join_normal hroot⟩

theorem path_onDisk {current : PendingRef} (hroot : isAbsolute request.paths.root = true)
    (h : InReach request current)
    (hexists : request.exists_ (refPath request.paths current.ref) = true) :
    refPath request.paths current.ref ∈ onDisk request := by
  obtain ⟨ref, site⟩ := current
  cases ref with
  | file path => exact h hexists
  | module specifier => exact module_onDisk hroot hexists

/-- What a reference in reach imports is in reach. -/
theorem next_inReach {current : PendingRef} {key specifier : Path} {content : List Char}
    {next : List PendingRef} (hcwd : isAbsolute request.paths.cwd = true)
    (hroot : isAbsolute request.paths.root = true) (h : InReach request current)
    (hread : ReadFor request current key content next) (hspecifier : specifier ∈ extractImports content)
    (site : Option ImportSite) :
    InReach request ⟨nextRef request.paths current.ref specifier, site⟩ := by
  have hwritten : specifier ∈ written request :=
    Set.mem_biUnion (path_onDisk hroot h hread.exists_) ⟨content, hread.read, hspecifier⟩
  have haccepted := hread.accepted specifier hspecifier
  unfold InReach
  split
  · rename_i path hnext
    -- A file is reached from a file.
    unfold nextRef at hnext
    split at hnext
    · split at hnext
      · cases hnext
        exact file_inReach hcwd
      · cases hnext
    · cases hnext
  · rename_i module hnext
    refine ⟨?_, ?_⟩
    · cases hvalid : isValidModuleSpecifier module with
      | true => rfl
      | false => exact absurd (.inr ⟨module, hnext, hvalid⟩) haccepted
    · unfold nextRef at hnext
      split at hnext
      · split at hnext
        · cases hnext
        · rename_i importer himporter
          cases hnext
          have hexists := hread.exists_
          unfold InReach at h
          rw [himporter] at h hexists
          have hvalid := isValidModuleSpecifier_valid h.1
          obtain ⟨hdirectory, hnamed⟩ := dirname_downward hvalid.relative hvalid.down
          rw [named_of_onDisk hroot hvalid] at hnamed
          have hbelow : named (dirname importer) ∈ below request :=
            Set.mem_biUnion (module_onDisk hroot hexists) ((List.mem_inits _ _).mpr hnamed)
          exact .inr (Set.mem_biUnion hbelow (Set.mem_biUnion hwritten
            ⟨extractImports_ne hspecifier, _, hdirectory, rfl, rfl⟩))
      · cases hnext
        exact .inl hwritten

/-- The source keys of what is in reach and can be read. -/
theorem keys_finite (h : FiniteFiles request) :
    {key | ∃ address ∈ onDisk request ∪ specifiers request,
      sourceKey address request.paths = some key}.Finite := by
  refine (((onDisk_finite h).union (specifiers_finite h)).image
    fun address => (sourceKey address request.paths).getD []).subset ?_
  rintro key ⟨address, haddress, hkey⟩
  exact ⟨address, haddress, by simp [hkey]⟩

theorem target_inReach : InReach request (target request) := fun _ => .inl rfl

/-- On finitely many files the walk ends. -/
theorem imports_end (hcwd : isAbsolute request.paths.cwd = true)
    (hroot : isAbsolute request.paths.root = true) (hfiles : FiniteFiles request) :
    ∃ fuel result, (imports request).walk fuel [target request] .empty = some result := by
  refine Worklist.walk_ends (U := InReach request) (K := (keys_finite hfiles).toFinset) ?_ ?_ ?_
  · intro current content next hreach hread n hn
    obtain ⟨key, -, hread⟩ := imports_read hread
    rw [hread.next] at hn
    obtain ⟨specifier, hspecifier, rfl⟩ := List.mem_map.mp hn
    exact next_inReach hcwd hroot hreach hread hspecifier _
  · intro current key content next hreach hkey hread
    obtain ⟨key', hkey', hread⟩ := imports_read hread
    rw [Set.Finite.mem_toFinset]
    refine ⟨refAddress current.ref, ?_, keyFor_ok.mp hkey⟩
    obtain ⟨ref, site⟩ := current
    cases ref with
    | file path => exact .inl (hreach hread.exists_)
    | module specifier => exact .inr hreach.2
  · intro r hr
    cases List.mem_singleton.mp hr
    exact target_inReach

end

end TronUpgrades.Validation
