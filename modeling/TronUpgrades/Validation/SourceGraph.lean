import TronUpgrades.Validation.ImportReach

/-!
# The graph of a target

What `resolveSourceGraph` answers: the least set of sources that has the
target and whatever its members import, or the first offence met breadth
first.
-/

namespace TronUpgrades.Validation

open Keyed Posix

/-- Each recorded key was read for a reference of that key, whose imports all
have keys; and what is recorded is least among the sets that have the target
and are closed under the imports of the recorded texts. -/
structure Closure (request : SourceGraphRequest) (graph : SourceGraph) : Prop where
  target : sourceKey request.targetPath request.paths = some graph.targetKey
  recorded : (graph.sources.get? graph.targetKey).isSome = true
  closed : ∃ origin : Path → SourceRef,
    (∀ key content, graph.sources.get? key = some content →
      sourceKey (refAddress (origin key)) request.paths = some key ∧
        request.exists_ (refPath request.paths (origin key)) = true ∧
        request.readSource (refPath request.paths (origin key)) = .ok content ∧
        ∀ specifier ∈ extractImports content, ∃ key',
          sourceKey (refAddress (nextRef request.paths (origin key) specifier)) request.paths =
            some key') ∧
      IsLeast {S : Set Path | graph.targetKey ∈ S ∧ ∀ key ∈ S, ∀ content,
        graph.sources.get? key = some content → ∀ specifier ∈ extractImports content, ∀ key',
          sourceKey (refAddress (nextRef request.paths (origin key) specifier)) request.paths =
            some key' → key' ∈ S}
        {key | (graph.sources.get? key).isSome = true}

/-- In the line of references that begins with the target and goes on, level
after level, with what each leads to, the first that offends offends so. -/
def FirstOffence (request : SourceGraphRequest) (cause : SourceCause) : Prop :=
  ∃ looked current pending,
    (imports request).BreadthFirst (target request) looked (current :: pending) ∧
      (∀ before ref after, looked = before ++ ref :: after →
        ∀ cause', ¬ Offence request ((imports request).keys before) ref cause') ∧
      Offence request ((imports request).keys looked) current cause

def Resolution (request : SourceGraphRequest) : Except SourceCause SourceGraph → Prop
  | .ok graph => Closure request graph
  | .error cause => FirstOffence request cause

theorem closure_of_reached {request : SourceGraphRequest} {targetKey : Path}
    {sources : OrderedMap Path (List Char)} {looked : List PendingRef}
    (htarget : sourceKey request.targetPath request.paths = some targetKey)
    (h : (imports request).Reached (target request) looked [] sources) :
    Closure request { targetKey, sources } := by
  obtain ⟨origin, horigin, ⟨hroot, hnext⟩, hleast⟩ := h.least
  have hroot := hroot targetKey (keyFor_ok.mpr htarget)
  -- What the origin of a recorded key was read for.
  have hread : ∀ key content, sources.get? key = some content →
      ∃ next, (imports request).read (origin key) = .ok (content, next) ∧
        ReadFor request (origin key) key content next ∧
        ∀ n ∈ next, ∃ key', keyFor request n = .ok key' := by
    intro key content hcontent
    obtain ⟨hkey, next, hread, hkeys⟩ := horigin key content hcontent
    obtain ⟨key', hkey', hreadFor⟩ := imports_read hread
    cases hkey.symm.trans hkey'
    exact ⟨next, hread, hreadFor, hkeys⟩
  refine ⟨htarget, hroot, fun key => (origin key).ref, fun key content hcontent => ?_,
    ⟨hroot, ?_⟩, fun S hS => hleast ⟨?_, ?_⟩⟩
  · obtain ⟨next, -, hreadFor, hkeys⟩ := hread key content hcontent
    refine ⟨keyFor_ok.mp (horigin key content hcontent).1, hreadFor.exists_, hreadFor.read, ?_⟩
    intro specifier hspecifier
    obtain ⟨key', hkey'⟩ := hkeys _ (hreadFor.next ▸ List.mem_map_of_mem hspecifier)
    exact ⟨key', keyFor_ok.mp hkey'⟩
  · intro key hkey content hcontent specifier hspecifier key' hkey'
    obtain ⟨next, hnextRead, hreadFor, -⟩ := hread key content hcontent
    exact hnext key hkey hkey content next hnextRead _
      (hreadFor.next ▸ List.mem_map_of_mem hspecifier) key' (keyFor_ok.mpr hkey')
  · intro key hkey
    cases htarget.symm.trans (keyFor_ok.mp hkey)
    exact hS.1
  · intro key hkey hsome content next hnextRead n hn key' hkey'
    obtain ⟨content', hcontent⟩ := Option.isSome_iff_exists.mp hsome
    obtain ⟨next', hnextRead', hreadFor, -⟩ := hread key content' hcontent
    cases hnextRead.symm.trans hnextRead'
    rw [hreadFor.next] at hn
    obtain ⟨specifier, hspecifier, rfl⟩ := List.mem_map.mp hn
    exact hS.2 key hkey content hcontent specifier hspecifier key' (keyFor_ok.mp hkey')

theorem firstOffence_of_reached {request : SourceGraphRequest} {cause : SourceCause}
    {looked pending : List PendingRef} {current : PendingRef}
    {sources : OrderedMap Path (List Char)}
    (h : (imports request).Reached (target request) looked (current :: pending) sources)
    (hoffends : (imports request).Offends ((imports request).keys looked) current cause) :
    FirstOffence request cause :=
  ⟨looked, current, pending, h.breadthFirst, fun before ref after hsplit cause' hoffence =>
    h.passed before ref after hsplit cause' (offence_iff.mp hoffence), offence_iff.mpr hoffends⟩

/-- From absolute directories, over finitely many files, the walk ends: with
the target's closure, or with the first offence. -/
theorem resolveSourceGraph_resolution (request : SourceGraphRequest)
    (hcwd : isAbsolute request.paths.cwd = true) (hroot : isAbsolute request.paths.root = true)
    (hfiles : FiniteFiles request) :
    ∃ fuel result, (∀ more, resolveSourceGraph request (fuel + more) = some result) ∧
      Resolution request result := by
  cases htarget : sourceKey request.targetPath request.paths with
  | none =>
    refine ⟨1, .error _, fun more => ?_, [], target request, [], rfl, ?_, .keyless htarget⟩
    · rw [Nat.add_comm]
      exact resolveSourceGraph_keyless htarget more
    · intro before ref after hsplit
      simp at hsplit
  | some targetKey =>
    obtain ⟨fuel, result, hwalk⟩ := imports_end hcwd hroot hfiles
    refine ⟨fuel, result.map fun sources => { targetKey, sources }, fun more => ?_, ?_⟩
    · rw [resolveSourceGraph_eq htarget, Worklist.walk_more hwalk more]
      rfl
    · rcases Worklist.walk_reached .start hwalk with ⟨sources, looked, rfl, h⟩ |
        ⟨cause, looked, current, pending, sources, rfl, h, hoffends⟩
      · exact closure_of_reached htarget h
      · exact firstOffence_of_reached h hoffends

def mutualFiles : List Path :=
  ["/p/contracts/A.sol".toList, "/p/contracts/B.sol".toList, "/p/node_modules/q/C.sol".toList]

/-- Two sources that import each other, and a package's source. -/
def mutualRequest : SourceGraphRequest where
  targetPath := "/p/contracts/A.sol".toList
  targetLabel := "A".toList
  paths := { contractsDirectory := "/p/contracts".toList, root := "/p".toList, cwd := "/p".toList }
  readSource path :=
    if path = "/p/contracts/A.sol".toList then .ok "import './B.sol';".toList
    else if path = "/p/contracts/B.sol".toList then .ok "import './A.sol';import 'q/C.sol';".toList
    else .ok []
  exists_ path := decide (path ∈ mutualFiles)

theorem mutualRequest_resolution : ∃ fuel result,
    (∀ more, resolveSourceGraph mutualRequest (fuel + more) = some result) ∧
      Resolution mutualRequest result :=
  resolveSourceGraph_resolution mutualRequest (by decide) (by decide) <|
    (List.finite_toSet mutualFiles).subset fun _ hpath => of_decide_eq_true hpath.1

end TronUpgrades.Validation
