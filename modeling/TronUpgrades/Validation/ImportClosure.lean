import TronUpgrades.Checks.Scan
import TronUpgrades.Keyed.Worklist
import TronUpgrades.Validation.ImportGraph

/-!
# The walk over imports as a worklist

`resolveSourceGraph` looks at references in turn, keyed by their source keys.
What it refuses for is one of five offences, and where it ends it has looked
at everything the target leads to.
-/

namespace TronUpgrades.Validation

open Keyed Posix
open Checks (UpTo bind_ok bind_error)

-- ---------------------------------------------------------------------------
-- Offences
-- ---------------------------------------------------------------------------

/-- An import that is refused where it is written. -/
def RefusedImport (paths : ProjectPaths) (current : SourceRef) (specifier : Path) : Prop :=
  isAbsolute specifier = true ∨
    ∃ module, nextRef paths current specifier = .module module ∧ isValidModuleSpecifier module = false

/-- What a reference is refused for, where these keys were seen before. -/
inductive Offence (request : SourceGraphRequest) (seen : List Path) (current : PendingRef) :
    SourceCause → Prop
  | keyless (hkey : sourceKey (refAddress current.ref) request.paths = none) :
    Offence request seen current (unresolvableImport current request.targetLabel)
  | missingTarget {key : Path} (hkey : sourceKey (refAddress current.ref) request.paths = some key)
      (hnew : key ∉ seen) (hmissing : request.exists_ (refPath request.paths current.ref) = false)
      (hsite : current.importedFrom = none) :
    Offence request seen current
      (.sourceUnreadable key (refPath request.paths current.ref) .missing)
  | missingImport {key : Path} {site : ImportSite}
      (hkey : sourceKey (refAddress current.ref) request.paths = some key) (hnew : key ∉ seen)
      (hmissing : request.exists_ (refPath request.paths current.ref) = false)
      (hsite : current.importedFrom = some site) :
    Offence request seen current (.importUnresolvable site.by_ site.specifier)
  | unreadable {key : Path} {thrown : Thrown}
      (hkey : sourceKey (refAddress current.ref) request.paths = some key) (hnew : key ∉ seen)
      (hexists : request.exists_ (refPath request.paths current.ref) = true)
      (hread : request.readSource (refPath request.paths current.ref) = .error thrown) :
    Offence request seen current
      (.sourceUnreadable key (refPath request.paths current.ref) .unreadable)
  | refusedImport {key specifier : Path} {content : List Char}
      (hkey : sourceKey (refAddress current.ref) request.paths = some key) (hnew : key ∉ seen)
      (hexists : request.exists_ (refPath request.paths current.ref) = true)
      (hread : request.readSource (refPath request.paths current.ref) = .ok content)
      (hfirst : UpTo (fun specifier => ¬ RefusedImport request.paths current.ref specifier)
        (extractImports content) specifier)
      (hrefused : RefusedImport request.paths current.ref specifier) :
    Offence request seen current (.importUnresolvable key specifier)

theorem acceptedRef_ok {paths : ProjectPaths} {current : SourceRef} {key specifier : Path}
    {next : PendingRef} (h : acceptedRef paths current key specifier = .ok next) :
    ¬ RefusedImport paths current specifier ∧
      next = ⟨nextRef paths current specifier, some ⟨key, specifier⟩⟩ := by
  unfold acceptedRef at h
  simp only at h
  split at h
  · cases h
  · rename_i habsolute
    split at h
    · rename_i module hnext
      split at h
      · rename_i hvalid
        cases h
        refine ⟨?_, rfl⟩
        rintro (habs | ⟨module', hnext', hinvalid⟩)
        · exact habsolute habs
        · rw [hnext] at hnext'
          cases hnext'
          rw [hvalid] at hinvalid
          cases hinvalid
      · cases h
    · rename_i path hnext
      cases h
      refine ⟨?_, rfl⟩
      rintro (habs | ⟨module', hnext', -⟩)
      · exact habsolute habs
      · rw [hnext] at hnext'
        cases hnext'

theorem acceptedRef_error {paths : ProjectPaths} {current : SourceRef} {key specifier : Path}
    {cause : SourceCause} (h : acceptedRef paths current key specifier = .error cause) :
    RefusedImport paths current specifier ∧ cause = .importUnresolvable key specifier := by
  unfold acceptedRef at h
  simp only at h
  split at h
  · rename_i habsolute
    cases h
    exact ⟨.inl habsolute, rfl⟩
  · split at h
    · rename_i module hnext
      split at h
      · cases h
      · rename_i hinvalid
        cases h
        exact ⟨.inr ⟨module, hnext, by simpa using hinvalid⟩, rfl⟩
    · cases h

theorem mapM_acceptedRef_ok {paths : ProjectPaths} {current : SourceRef} {key : Path}
    {specifiers : List Path} {next : List PendingRef} :
    specifiers.mapM (acceptedRef paths current key) = .ok next →
      (∀ specifier ∈ specifiers, ¬ RefusedImport paths current specifier) ∧
        next = specifiers.map fun specifier =>
          ⟨nextRef paths current specifier, some ⟨key, specifier⟩⟩ := by
  induction specifiers generalizing next with
  | nil =>
    intro h
    cases h
    exact ⟨fun _ h => absurd h List.not_mem_nil, rfl⟩
  | cons specifier specifiers ih =>
    intro h
    rw [List.mapM_cons] at h
    obtain ⟨first, hfirst, h⟩ := bind_ok.mp h
    obtain ⟨rest, hrest, h⟩ := bind_ok.mp h
    cases h
    obtain ⟨haccepted, rfl⟩ := acceptedRef_ok hfirst
    obtain ⟨hall, rfl⟩ := ih hrest
    exact ⟨List.forall_mem_cons.mpr ⟨haccepted, hall⟩, rfl⟩

theorem mapM_acceptedRef_error {paths : ProjectPaths} {current : SourceRef} {key : Path}
    {specifiers : List Path} {cause : SourceCause} :
    specifiers.mapM (acceptedRef paths current key) = .error cause ↔
      ∃ specifier, UpTo (fun specifier => ¬ RefusedImport paths current specifier) specifiers
        specifier ∧ RefusedImport paths current specifier ∧
          cause = .importUnresolvable key specifier := by
  induction specifiers with
  | nil =>
    refine ⟨fun h => (by cases h), ?_⟩
    rintro ⟨specifier, h, -⟩
    exact h.not_nil.elim
  | cons specifier specifiers ih =>
    rw [List.mapM_cons, bind_error]
    constructor
    · rintro (h | ⟨first, hfirst, h⟩)
      · obtain ⟨hrefused, rfl⟩ := acceptedRef_error h
        exact ⟨specifier, .head, hrefused, rfl⟩
      · obtain ⟨haccepted, rfl⟩ := acceptedRef_ok hfirst
        rcases bind_error.mp h with h | ⟨rest, -, h⟩
        · obtain ⟨specifier', hupTo, hrefused, rfl⟩ := ih.mp h
          exact ⟨specifier', .cons haccepted hupTo, hrefused, rfl⟩
        · cases h
    · rintro ⟨specifier', hupTo, hrefused, rfl⟩
      cases hfirst : acceptedRef paths current key specifier with
      | error cause =>
        obtain ⟨hhere, rfl⟩ := acceptedRef_error hfirst
        rcases hupTo.of_cons with rfl | ⟨haccepted, -⟩
        · exact .inl rfl
        · exact absurd hhere haccepted
      | ok first =>
        obtain ⟨haccepted, -⟩ := acceptedRef_ok hfirst
        rcases hupTo.of_cons with rfl | ⟨-, hupTo⟩
        · exact absurd hrefused haccepted
        · exact .inr ⟨first, rfl, bind_error.mpr (.inl (ih.mpr ⟨specifier', hupTo, hrefused, rfl⟩))⟩

-- ---------------------------------------------------------------------------
-- The worklist
-- ---------------------------------------------------------------------------

/-- What is read for a reference under its key. -/
def readFor (request : SourceGraphRequest) (current : PendingRef) (key : Path) :
    Except SourceCause (List Char × List PendingRef) :=
  let diskPath := refPath request.paths current.ref
  if !request.exists_ diskPath then
    match current.importedFrom with
    | none => .error (.sourceUnreadable key diskPath .missing)
    | some _ => .error (unresolvableImport current request.targetLabel)
  else match request.readSource diskPath with
    | .error _ => .error (.sourceUnreadable key diskPath .unreadable)
    | .ok content => do
      let next ← (extractImports content).mapM (acceptedRef request.paths current.ref key)
      return (content, next)

def keyFor (request : SourceGraphRequest) (current : PendingRef) : Except SourceCause Path :=
  match sourceKey (refAddress current.ref) request.paths with
  | none => .error (unresolvableImport current request.targetLabel)
  | some key => .ok key

/-- References to sources, keyed by their source keys. -/
def imports (request : SourceGraphRequest) :
    Worklist PendingRef Path (List Char) SourceCause where
  key := keyFor request
  read current := keyFor request current >>= readFor request current

theorem keyFor_ok {request : SourceGraphRequest} {current : PendingRef} {key : Path} :
    keyFor request current = .ok key ↔ sourceKey (refAddress current.ref) request.paths = some key := by
  unfold keyFor
  split <;> simp [*]

theorem keyFor_error {request : SourceGraphRequest} {current : PendingRef} {cause : SourceCause} :
    keyFor request current = .error cause ↔ sourceKey (refAddress current.ref) request.paths = none ∧
      cause = unresolvableImport current request.targetLabel := by
  unfold keyFor
  split <;> simp [*, eq_comm]

/-- A successful reading, with all that the text imports. -/
structure ReadFor (request : SourceGraphRequest) (current : PendingRef) (key : Path)
    (content : List Char) (next : List PendingRef) : Prop where
  exists_ : request.exists_ (refPath request.paths current.ref) = true
  read : request.readSource (refPath request.paths current.ref) = .ok content
  accepted : ∀ specifier ∈ extractImports content,
    ¬ RefusedImport request.paths current.ref specifier
  next : next = (extractImports content).map fun specifier =>
    ⟨nextRef request.paths current.ref specifier, some ⟨key, specifier⟩⟩

theorem readFor_ok {request : SourceGraphRequest} {current : PendingRef} {key : Path}
    {content : List Char} {next : List PendingRef}
    (h : readFor request current key = .ok (content, next)) :
    ReadFor request current key content next := by
  unfold readFor at h
  simp only at h
  split at h
  · split at h <;> cases h
  · rename_i hexists
    split at h
    · cases h
    · rename_i content' hread
      obtain ⟨next', hnext, h⟩ := bind_ok.mp h
      cases h
      obtain ⟨haccepted, hnext⟩ := mapM_acceptedRef_ok hnext
      exact ⟨by simpa using hexists, hread, haccepted, hnext⟩

theorem imports_read {request : SourceGraphRequest} {current : PendingRef} {content : List Char}
    {next : List PendingRef} (h : (imports request).read current = .ok (content, next)) :
    ∃ key, keyFor request current = .ok key ∧ ReadFor request current key content next := by
  obtain ⟨key, hkey, h⟩ := bind_ok.mp h
  exact ⟨key, hkey, readFor_ok h⟩

section
variable {request : SourceGraphRequest} {sources : OrderedMap Path (List Char)}
variable {current : PendingRef} {key : Path} {cause : SourceCause}

theorem visit_keyless (h : keyFor request current = .error cause) :
    visit request sources current = .error cause := by
  obtain ⟨hkey, rfl⟩ := keyFor_error.mp h
  simp [visit, hkey]

theorem visit_seen (h : keyFor request current = .ok key) (old : (sources.get? key).isSome = true) :
    visit request sources current = .ok (.seen key) := by
  simp [visit, keyFor_ok.mp h, old]

theorem visit_new (h : keyFor request current = .ok key)
    (new : ¬ (sources.get? key).isSome = true) : visit request sources current =
      (readFor request current key).map fun found => .read key found.1 found.2 := by
  unfold visit readFor
  simp only [keyFor_ok.mp h, if_neg new]
  split
  · cases current.importedFrom <;> rfl
  · cases request.readSource (refPath request.paths current.ref) with
    | error thrown => rfl
    | ok content =>
      simp only
      cases (extractImports content).mapM (acceptedRef request.paths current.ref key) <;> rfl

end

theorem walk_eq (request : SourceGraphRequest) (targetKey : Path) (fuel : Nat)
    (pending : List PendingRef) (sources : OrderedMap Path (List Char)) :
    walk request fuel pending sources (some targetKey) =
      ((imports request).walk fuel pending sources).map
        (Except.map fun sources => { targetKey, sources }) := by
  induction fuel generalizing pending sources with
  | zero => cases pending <;> rfl
  | succ fuel ih =>
    cases pending with
    | nil => rfl
    | cons current pending =>
      rw [walk, Worklist.walk]
      cases hkey : keyFor request current with
      | error cause =>
        rw [visit_keyless hkey]
        simp [imports, hkey, Except.map]
      | ok key =>
        have hkey' : (imports request).key current = .ok key := hkey
        have hread : (imports request).read current = readFor request current key := by
          simp [imports, hkey, bind, Except.bind]
        rw [hkey', hread]
        by_cases old : (sources.get? key).isSome = true
        · rw [visit_seen hkey old]
          simp only [if_pos old]
          exact ih pending sources
        · rw [visit_new hkey old]
          simp only [if_neg old]
          cases readFor request current key with
          | error cause => rfl
          | ok found => exact ih _ _

/-- The reference the walk begins with. -/
def target (request : SourceGraphRequest) : PendingRef := ⟨.file request.targetPath, none⟩

/-- The first key the walk meets is the target's. -/
theorem resolveSourceGraph_eq {request : SourceGraphRequest} {targetKey : Path}
    (h : sourceKey request.targetPath request.paths = some targetKey) (fuel : Nat) :
    resolveSourceGraph request fuel = ((imports request).walk fuel [target request] .empty).map
      (Except.map fun sources => { targetKey, sources }) := by
  have hkey : keyFor request ⟨.file request.targetPath, none⟩ = .ok targetKey := keyFor_ok.mpr h
  have new : ¬ ((OrderedMap.empty : OrderedMap Path (List Char)).get? targetKey).isSome = true := by
    simp [OrderedMap.get?, OrderedMap.empty]
  rw [← walk_eq, resolveSourceGraph, target]
  cases fuel with
  | zero => rfl
  | succ fuel =>
    rw [walk, walk, visit_new hkey new]
    cases readFor request ⟨.file request.targetPath, none⟩ targetKey <;> rfl

theorem resolveSourceGraph_keyless {request : SourceGraphRequest}
    (h : sourceKey request.targetPath request.paths = none) (fuel : Nat) :
    resolveSourceGraph request (fuel + 1) =
      some (.error (unresolvableImport (target request) request.targetLabel)) := by
  have hkey : keyFor request ⟨.file request.targetPath, none⟩ = .error _ :=
    keyFor_error.mpr ⟨h, rfl⟩
  rw [resolveSourceGraph, walk, visit_keyless hkey]
  rfl

theorem offence_iff {request : SourceGraphRequest} {seen : List Path} {current : PendingRef}
    {cause : SourceCause} :
    Offence request seen current cause ↔ (imports request).Offends seen current cause := by
  constructor
  · intro h
    cases h with
    | keyless hkey => exact .key (keyFor_error.mpr ⟨hkey, rfl⟩)
    | missingTarget hkey hnew hmissing hsite =>
      refine .read (keyFor_ok.mpr hkey) hnew ?_
      simp [imports, keyFor_ok.mpr hkey, readFor, hmissing, hsite, bind, Except.bind]
    | missingImport hkey hnew hmissing hsite =>
      refine .read (keyFor_ok.mpr hkey) hnew ?_
      simp [imports, keyFor_ok.mpr hkey, readFor, hmissing, hsite, unresolvableImport, bind,
        Except.bind]
    | unreadable hkey hnew hexists hread =>
      refine .read (keyFor_ok.mpr hkey) hnew ?_
      simp [imports, keyFor_ok.mpr hkey, readFor, hexists, hread, bind, Except.bind]
    | @refusedImport key specifier content hkey hnew hexists hread hfirst hrefused =>
      have hmapM : (extractImports content).mapM (acceptedRef request.paths current.ref key) =
          .error (.importUnresolvable key specifier) :=
        mapM_acceptedRef_error.mpr ⟨specifier, hfirst, hrefused, rfl⟩
      refine .read (keyFor_ok.mpr hkey) hnew ?_
      simp [imports, keyFor_ok.mpr hkey, readFor, hexists, hread, hmapM, bind, Except.bind]
  · intro h
    cases h with
    | key hkey =>
      obtain ⟨hnone, rfl⟩ := keyFor_error.mp hkey
      exact .keyless hnone
    | @read key hkey hnew hread =>
      have hread : readFor request current key = .error cause := by
        simpa [imports, show keyFor request current = .ok key from hkey, bind, Except.bind]
          using hread
      have hkey := keyFor_ok.mp hkey
      unfold readFor at hread
      simp only at hread
      split at hread
      · rename_i hmissing
        have hmissing : request.exists_ (refPath request.paths current.ref) = false := by
          simpa using hmissing
        split at hread
        · rename_i hsite
          cases hread
          exact .missingTarget hkey hnew hmissing hsite
        · rename_i site hsite
          cases hread
          rw [unresolvableImport, hsite]
          exact .missingImport hkey hnew hmissing hsite
      · rename_i hexists
        have hexists : request.exists_ (refPath request.paths current.ref) = true := by
          simpa using hexists
        split at hread
        · rename_i thrown hthrown
          cases hread
          exact .unreadable hkey hnew hexists hthrown
        · rename_i content hcontent
          rcases bind_error.mp hread with hmapM | ⟨next, -, hpure⟩
          · obtain ⟨specifier, hfirst, hrefused, rfl⟩ := mapM_acceptedRef_error.mp hmapM
            exact .refusedImport hkey hnew hexists hcontent hfirst hrefused
          · cases hpure

end TronUpgrades.Validation
