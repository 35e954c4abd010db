import TronUpgrades.Environment.Ambiguity
import Mathlib.Data.List.Perm.Basic

/-!
# What the ambiguity index answers

Over files that can all be used, the candidates of a name are all there are,
in one order; over any others the index answers nothing.
-/

namespace TronUpgrades.Environment

open Json Keyed
open Std (TransCmp LawfulEqCmp OrientedCmp)

-- ---------------------------------------------------------------------------
-- What the files hold
-- ---------------------------------------------------------------------------

/-- The contracts of one source, where it maps its names to something. -/
def sourceContracts (contracts : Fields) (sourcePath : String) : Option Fields :=
  asObject (get? contracts sourcePath)

/-- A file inside the build info directory with a well-formed contract map. -/
structure Usable (paths : ProjectPaths) (entry : BuildInfoFile) : Prop where
  contained : ∃ file, containedFile paths entry.file = some file
  contracts : ∃ contracts, contractMap entry.output = some contracts ∧
    ∀ sourcePath ∈ keys contracts, ∃ names, sourceContracts contracts sourcePath = some names

/-- The contracts a map names, source by source. -/
def contractNames (contracts : Fields) : List (String × String) :=
  (keys contracts).flatMap fun sourcePath =>
    (keys ((sourceContracts contracts sourcePath).getD [])).map (sourcePath, ·)

section
variable (localeCompare : String → String → Ordering) (paths : ProjectPaths)

/-- The (source, contract, file) triples of a file. -/
def triplesOf (entry : BuildInfoFile) : List ArtifactCandidate :=
  match containedFile paths entry.file, contractMap entry.output with
  | some file, some contracts =>
    (contractNames contracts).map fun name => ⟨name.1, name.2, file⟩
  | _, _ => []

/-- The triples whose contract is required under the key. -/
def triplesUnder (key : String) (files : List BuildInfoFile) : List ArtifactCandidate :=
  (files.flatMap (triplesOf paths)).filter (normalizeArtifactName ·.contractName = key)

abbrev sortedTriples (key : String) (files : List BuildInfoFile) : List ArtifactCandidate :=
  sortBy (candidateOrder localeCompare) id (triplesUnder paths key files)

/-- The index over what a reader returns. -/
def indexFor (files : List BuildInfoFile) : ArtifactAmbiguityIndex :=
  buildArtifactAmbiguityIndex localeCompare paths fun _ => .ok (.files files)

def ArtifactAmbiguityIndex.collisions (index : ArtifactAmbiguityIndex) :
    List ArtifactNameCollision :=
  match index.report with
  | .indexed collisions _ => collisions
  | .indeterminate _ => []

end

/-- The same file, the entries of its contract map in another order. -/
structure Rearranged (entry entry' : BuildInfoFile) : Prop where
  file : entry'.file = entry.file
  contracts : ∀ contracts, contractMap entry.output = some contracts →
    ∃ contracts', contractMap entry'.output = some contracts' ∧
      (keys contracts').Perm (keys contracts) ∧
      ∀ sourcePath names, sourceContracts contracts sourcePath = some names →
        ∃ names', sourceContracts contracts' sourcePath = some names' ∧
          (keys names').Perm (keys names)

/-- The same files in another order, and their entries. -/
def Reordered (files files' : List BuildInfoFile) : Prop :=
  ∃ middle, middle.Perm files ∧ List.Forall₂ Rearranged middle files'

/-- What the index over usable files says, and that over any others. -/
structure AmbiguityLaws (localeCompare : String → String → Ordering) (paths : ProjectPaths) :
    Prop where
  indexed : ∀ files, files ≠ [] → (∀ entry ∈ files, Usable paths entry) →
    ∃ collisions indexedFrom,
      (indexFor localeCompare paths files).report = .indexed collisions indexedFrom
  candidates : ∀ files, (∀ entry ∈ files, Usable paths entry) → ∀ name,
    (indexFor localeCompare paths files).candidates name =
      sortedTriples localeCompare paths (normalizeArtifactName name) files
  /-- The keys with more than one triple, once each and in order. -/
  collisions : ∀ files, (∀ entry ∈ files, Usable paths entry) →
    (∀ key candidates, ⟨key, candidates⟩ ∈ (indexFor localeCompare paths files).collisions ↔
      candidates = sortedTriples localeCompare paths key files ∧
        1 < (triplesUnder paths key files).length) ∧
    (indexFor localeCompare paths files).collisions.Pairwise
      fun left right => localeCompare left.name right.name = .lt
  reordered : ∀ files files', (∀ entry ∈ files, Usable paths entry) → Reordered files files' →
    (∀ name, (indexFor localeCompare paths files').candidates name =
      (indexFor localeCompare paths files).candidates name) ∧
    (indexFor localeCompare paths files').collisions =
      (indexFor localeCompare paths files).collisions
  unusable : ∀ files, (∃ entry ∈ files, ¬ Usable paths entry) →
    (∃ reason, (indexFor localeCompare paths files).report = .indeterminate reason) ∧
    ∀ name, (indexFor localeCompare paths files).candidates name = []

-- ---------------------------------------------------------------------------
-- The loop
-- ---------------------------------------------------------------------------

section
variable {localeCompare : String → String → Ordering} {paths : ProjectPaths}
  {files files' : List BuildInfoFile} {entry entry' : BuildInfoFile} {m : CandidateMap}
  {l : List ArtifactCandidate} {file : AbsolutePath} {contracts : Fields}

def candidateKey (candidate : ArtifactCandidate) : String :=
  normalizeArtifactName candidate.contractName

theorem addContracts_groups (h : Groups candidateKey m l) (file : AbsolutePath)
    (sourcePath : String) (names : List String) :
    Groups candidateKey (addContracts file sourcePath names m)
      (l ++ names.map fun name => ⟨sourcePath, name, file⟩) := by
  have hfold := h.foldl (names.map fun name => (⟨sourcePath, name, file⟩ : ArtifactCandidate))
  rw [List.foldl_map] at hfold
  exact hfold

/-- The sources of a file, given with what they map to. -/
theorem addSources_groups (file : AbsolutePath) (sources : List String) (value : String → Json)
    (h : Groups candidateKey m l) :
    (∀ sourcePath ∈ sources, ∃ names, asObject (value sourcePath) = some names) ∧
      (∃ m', addSources file (sources.map fun source => (source, value source)) m = .ok m' ∧
        Groups candidateKey m' (l ++ sources.flatMap fun source =>
          (keys ((asObject (value source)).getD [])).map fun name => ⟨source, name, file⟩)) ∨
    (∃ sourcePath ∈ sources, asObject (value sourcePath) = none) ∧
      addSources file (sources.map fun source => (source, value source)) m =
        .error (.buildInfoLacksContractMap file) := by
  induction sources generalizing m l with
  | nil => exact .inl ⟨by simp, m, rfl, by simpa using h⟩
  | cons source sources ih =>
    cases hnames : asObject (value source) with
    | none =>
      refine .inr ⟨⟨source, List.mem_cons_self, hnames⟩, ?_⟩
      rw [List.map_cons, addSources, hnames]
    | some names =>
      rw [List.map_cons, addSources, hnames]
      rcases ih (addContracts_groups h file source (keys names)) with
        ⟨hall, m', hm', hgroups⟩ | ⟨⟨other, hother, hnone⟩, herror⟩
      · refine .inl ⟨?_, m', hm', ?_⟩
        · rintro other hother
          rcases List.mem_cons.mp hother with rfl | hother
          · exact ⟨names, hnames⟩
          · exact hall other hother
        · simpa [hnames, List.append_assoc] using hgroups
      · exact .inr ⟨⟨other, List.mem_cons_of_mem _ hother, hnone⟩, herror⟩

theorem get?_of_mem_keys {key : String} (h : key ∈ keys contracts) :
    get? contracts key = some ((get? contracts key).getD .null) := by
  rw [keys, List.mem_eraseDups, List.mem_map] at h
  obtain ⟨field, hfield, rfl⟩ := h
  cases hget : get? contracts field.1 with
  | some value => rfl
  | none =>
    rw [get?, Option.map_eq_none_iff, List.find?_eq_none] at hget
    exact absurd (beq_self_eq_true field.1) (hget field (List.mem_reverse.mpr hfield))

theorem entries_obj : (Json.obj contracts).entries =
    (keys contracts).map fun key => (key, (get? contracts key).getD .null) := by
  rw [Json.entries, ← List.filterMap_eq_map]
  refine List.filterMap_congr fun key hkey => ?_
  rw [get?_of_mem_keys hkey]
  rfl

theorem asObject_of_mem_keys {key : String} (h : key ∈ keys contracts) :
    asObject ((get? contracts key).getD .null) = sourceContracts contracts key := by
  rw [sourceContracts, get?_of_mem_keys h]
  rfl

/-- One file: its triples, or a refusal. -/
theorem addFiles_step (entry : BuildInfoFile) (files : List BuildInfoFile)
    (indexedFrom : List AbsolutePath) (h : Groups candidateKey m l) :
    Usable paths entry ∧ (∃ file m', addFiles paths (entry :: files) (m, indexedFrom) =
      addFiles paths files (m', indexedFrom ++ [file]) ∧
        Groups candidateKey m' (l ++ triplesOf paths entry)) ∨
    ¬ Usable paths entry ∧
      ∃ reason, addFiles paths (entry :: files) (m, indexedFrom) = .error reason := by
  rw [addFiles, triplesOf]
  cases hfile : containedFile paths entry.file with
  | none =>
    refine .inr ⟨fun usable => ?_, _, rfl⟩
    obtain ⟨file, hcontained⟩ := usable.contained
    rw [hfile] at hcontained
    cases hcontained
  | some file =>
    cases hcontracts : contractMap entry.output with
    | none =>
      refine .inr ⟨fun usable => ?_, _, rfl⟩
      obtain ⟨contracts, hmap, -⟩ := usable.contracts
      rw [hcontracts] at hmap
      cases hmap
    | some contracts =>
      simp only [entries_obj]
      rcases addSources_groups file (keys contracts)
        (fun key => (get? contracts key).getD .null) h with
        ⟨hall, m', hm', hgroups⟩ | ⟨⟨source, hsource, hnone⟩, herror⟩
      · refine .inl ⟨⟨⟨file, hfile⟩, contracts, hcontracts, fun source hsource => ?_⟩, file, m', ?_, ?_⟩
        · rw [← asObject_of_mem_keys hsource]
          exact hall source hsource
        · rw [hm']
          rfl
        · have hnames : (contractNames contracts).map
              (fun name => (⟨name.1, name.2, file⟩ : ArtifactCandidate)) =
              (keys contracts).flatMap fun source =>
                (keys ((asObject ((get? contracts source).getD .null)).getD [])).map
                  fun name => ⟨source, name, file⟩ := by
            rw [contractNames, List.map_flatMap]
            refine List.flatMap_congr fun source hsource => ?_
            rw [asObject_of_mem_keys hsource, List.map_map]
            rfl
          rw [hnames]
          exact hgroups
      · refine .inr ⟨fun usable => ?_, .buildInfoLacksContractMap file, ?_⟩
        · obtain ⟨contracts', hmap, hall⟩ := usable.contracts
          rw [hcontracts] at hmap
          cases hmap
          obtain ⟨names, hnames⟩ := hall source hsource
          rw [asObject_of_mem_keys hsource, hnames] at hnone
          cases hnone
        · rw [herror]
          rfl

/-- What a pass over the files leaves: all their triples, or a refusal. -/
theorem addFiles_groups (paths : ProjectPaths) (files : List BuildInfoFile)
    (indexedFrom : List AbsolutePath) (h : Groups candidateKey m l) :
    (∀ entry ∈ files, Usable paths entry) ∧
      (∃ m' indexedFrom', addFiles paths files (m, indexedFrom) = .ok (m', indexedFrom') ∧
        Groups candidateKey m' (l ++ files.flatMap (triplesOf paths))) ∨
    (∃ entry ∈ files, ¬ Usable paths entry) ∧
      ∃ reason, addFiles paths files (m, indexedFrom) = .error reason := by
  induction files generalizing m l indexedFrom with
  | nil => exact .inl ⟨by simp, m, indexedFrom, rfl, by simpa using h⟩
  | cons entry files ih =>
    rcases addFiles_step entry files indexedFrom h with
      ⟨usable, file, m', hstep, hgroups⟩ | ⟨unusable, reason, hstep⟩
    · rw [hstep]
      rcases ih (indexedFrom ++ [file]) hgroups with
        ⟨hall, m'', from'', hrun, hgroups'⟩ | ⟨⟨other, hother, hunusable⟩, hrun⟩
      · refine .inl ⟨?_, m'', from'', hrun, ?_⟩
        · rintro other hother
          rcases List.mem_cons.mp hother with rfl | hother
          · exact usable
          · exact hall other hother
        · simpa [List.append_assoc] using hgroups'
      · exact .inr ⟨⟨other, List.mem_cons_of_mem _ hother, hunusable⟩, hrun⟩
    · exact .inr ⟨⟨entry, List.mem_cons_self, unusable⟩, reason, hstep⟩

-- ---------------------------------------------------------------------------
-- The index
-- ---------------------------------------------------------------------------

theorem indexFor_cons {indexedFrom : List AbsolutePath}
    (hrun : addFiles paths (entry :: files) (.empty, []) = .ok (m, indexedFrom)) :
    indexFor localeCompare paths (entry :: files) = indexOf localeCompare m indexedFrom := by
  simp only [indexFor, buildArtifactAmbiguityIndex, List.isEmpty_cons, Bool.false_eq_true,
    if_false, hrun]

/-- Over usable files, none included: the groups of their triples, sorted. -/
theorem indexFor_usable (localeCompare : String → String → Ordering)
    (usable : ∀ entry ∈ files, Usable paths entry) :
    ∃ m, Groups candidateKey m (files.flatMap (triplesOf paths)) ∧
      let byName := m.map (sortBy (candidateOrder localeCompare) id)
      (indexFor localeCompare paths files).collisions = collisionsOf localeCompare byName ∧
      ∀ name, (indexFor localeCompare paths files).candidates name =
        (byName.get? (normalizeArtifactName name)).getD [] := by
  rcases files with _ | ⟨entry, files⟩
  · refine ⟨.empty, .empty candidateKey, ?_, fun name => rfl⟩
    exact (sortBy_of_sorted List.Pairwise.nil).symm
  · rcases addFiles_groups paths (entry :: files) [] (.empty candidateKey) with
      ⟨-, m, indexedFrom, hrun, hgroups⟩ | ⟨⟨other, hother, hunusable⟩, -⟩
    · refine ⟨m, hgroups, ?_⟩
      rw [indexFor_cons hrun]
      exact ⟨rfl, fun name => rfl⟩
    · exact absurd (usable other hother) hunusable

theorem indexFor_unusable (localeCompare : String → String → Ordering)
    (h : ∃ entry ∈ files, ¬ Usable paths entry) :
    ∃ reason, indexFor localeCompare paths files = indeterminateIndex reason := by
  rcases addFiles_groups paths files [] (.empty candidateKey) with
    ⟨hall, -⟩ | ⟨-, reason, hrun⟩
  · obtain ⟨entry, hentry, hunusable⟩ := h
    exact absurd (hall entry hentry) hunusable
  · refine ⟨reason, ?_⟩
    have hne : files.isEmpty = false := by
      obtain ⟨entry, hentry, -⟩ := h
      cases files with
      | nil => cases hentry
      | cons entry files => rfl
    simp only [indexFor, buildArtifactAmbiguityIndex, hne, Bool.false_eq_true, if_false, hrun]

end

-- ---------------------------------------------------------------------------
-- The laws
-- ---------------------------------------------------------------------------

section
variable {localeCompare : String → String → Ordering} {paths : ProjectPaths}
  {files files' : List BuildInfoFile} {entry entry' : BuildInfoFile}

instance [TransCmp localeCompare] : TransCmp (candidateOrder localeCompare) :=
  inferInstanceAs (TransCmp (compareLex _ _))

instance [TransCmp localeCompare] [LawfulEqCmp localeCompare] :
    LawfulEqCmp (candidateOrder localeCompare) where
  eq_of_compare {left right} h := by
    simp only [candidateOrder, compareLex_eq_eq, comparing] at h
    obtain ⟨hsource, hname, hfile⟩ := h
    obtain ⟨source, name, file, hfile'⟩ := left
    obtain ⟨source', name', file', hfile''⟩ := right
    cases LawfulEqCmp.eq_of_compare hsource
    cases LawfulEqCmp.eq_of_compare hname
    cases LawfulEqCmp.eq_of_compare hfile
    rfl
  compare_self := Std.ReflCmp.compare_self

theorem candidates_sorted (usable : ∀ entry ∈ files, Usable paths entry) (name : String) :
    (indexFor localeCompare paths files).candidates name =
      sortedTriples localeCompare paths (normalizeArtifactName name) files := by
  obtain ⟨m, hgroups, -, hcandidates⟩ := indexFor_usable localeCompare usable
  rw [hcandidates, OrderedMap.get?_map, sortedTriples, triplesUnder]
  have hget := hgroups.get? (normalizeArtifactName name)
  have hempty : sortBy (candidateOrder localeCompare) id [] = [] := sortBy_of_sorted .nil
  have hfilter : (files.flatMap (triplesOf paths)).filter
      (normalizeArtifactName ·.contractName = normalizeArtifactName name) =
      (m.get? (normalizeArtifactName name)).getD [] := hget.symm
  rw [hfilter]
  cases m.get? (normalizeArtifactName name) with
  | none => exact hempty.symm
  | some group => rfl

theorem mem_collisions (usable : ∀ entry ∈ files, Usable paths entry) (key : String)
    (candidates : List ArtifactCandidate) :
    ⟨key, candidates⟩ ∈ (indexFor localeCompare paths files).collisions ↔
      candidates = sortedTriples localeCompare paths key files ∧
        1 < (triplesUnder paths key files).length := by
  obtain ⟨m, hgroups, hcollisions, -⟩ := indexFor_usable localeCompare usable
  rw [hcollisions, collisionsOf, mem_sortBy, List.mem_map]
  constructor
  · rintro ⟨⟨key', sorted⟩, hentry, heq⟩
    cases heq
    obtain ⟨hentry, hlength⟩ := List.mem_filter.mp hentry
    obtain ⟨⟨key', group⟩, hgroup, heq⟩ := List.mem_map.mp hentry
    cases heq
    obtain ⟨rfl, -⟩ := hgroups.mem_entries.mp hgroup
    refine ⟨rfl, ?_⟩
    rw [decide_eq_true_eq, sortBy_perm.length_eq] at hlength
    exact hlength
  · rintro ⟨rfl, hlength⟩
    refine ⟨(key, sortedTriples localeCompare paths key files), List.mem_filter.mpr ⟨?_, ?_⟩, rfl⟩
    · refine List.mem_map.mpr ⟨(key, triplesUnder paths key files), ?_, rfl⟩
      refine hgroups.mem_entries.mpr ⟨rfl, ?_⟩
      exact List.ne_nil_of_length_pos (by omega)
    · simpa [sortBy_perm.length_eq] using hlength

theorem collisions_sorted [TransCmp localeCompare] [LawfulEqCmp localeCompare]
    (usable : ∀ entry ∈ files, Usable paths entry) :
    (indexFor localeCompare paths files).collisions.Pairwise
      fun left right => localeCompare left.name right.name = .lt := by
  obtain ⟨m, hgroups, hcollisions, -⟩ := indexFor_usable localeCompare usable
  rw [hcollisions]
  generalize m.map (sortBy (candidateOrder localeCompare) id) = byName
  have hnames : ((collisionsOf localeCompare byName).map (·.name)).Nodup := by
    refine (sortBy_perm.map _).nodup_iff.mpr ?_
    rw [List.map_map]
    exact byName.nodup.sublist (List.filter_sublist.map _)
  refine (sortBy_sorted.and (List.pairwise_map.mp hnames)).imp ?_
  rintro left right ⟨hle, hne⟩
  have hne' : localeCompare left.name right.name ≠ .eq :=
    fun heq => hne (LawfulEqCmp.eq_of_compare heq)
  revert hle hne'
  unfold precedes
  cases localeCompare left.name right.name <;> simp

theorem contractNames_perm {contracts contracts' : Fields}
    (hkeys : (keys contracts').Perm (keys contracts))
    (hall : ∀ source ∈ keys contracts, ∃ names, sourceContracts contracts source = some names)
    (h : ∀ source names, sourceContracts contracts source = some names →
      ∃ names', sourceContracts contracts' source = some names' ∧ (keys names').Perm (keys names)) :
    (contractNames contracts').Perm (contractNames contracts) := by
  refine List.Perm.flatMap hkeys fun source hsource => ?_
  obtain ⟨names, hnames⟩ := hall source (hkeys.mem_iff.mp hsource)
  obtain ⟨names', hnames', hperm⟩ := h source names hnames
  rw [hnames, hnames']
  exact hperm.map _

theorem Rearranged.triples (h : Rearranged entry entry') (usable : Usable paths entry) :
    Usable paths entry' ∧ (triplesOf paths entry').Perm (triplesOf paths entry) := by
  obtain ⟨⟨file, hfile⟩, contracts, hcontracts, hall⟩ := usable
  obtain ⟨contracts', hcontracts', hkeys, hrest⟩ := h.contracts contracts hcontracts
  refine ⟨⟨⟨file, h.file ▸ hfile⟩, contracts', hcontracts', fun source hsource => ?_⟩, ?_⟩
  · obtain ⟨names, hnames⟩ := hall source (hkeys.mem_iff.mp hsource)
    obtain ⟨names', hnames', -⟩ := hrest source names hnames
    exact ⟨names', hnames'⟩
  · simp only [triplesOf, h.file, hfile, hcontracts, hcontracts']
    exact (contractNames_perm hkeys hall hrest).map _

theorem Reordered.triples (h : Reordered files files')
    (usable : ∀ entry ∈ files, Usable paths entry) :
    (∀ entry ∈ files', Usable paths entry) ∧
      (files'.flatMap (triplesOf paths)).Perm (files.flatMap (triplesOf paths)) := by
  obtain ⟨middle, hperm, hrearranged⟩ := h
  have husable : ∀ entry ∈ middle, Usable paths entry :=
    fun entry hentry => usable entry (hperm.mem_iff.mp hentry)
  suffices (∀ entry ∈ files', Usable paths entry) ∧
      (files'.flatMap (triplesOf paths)).Perm (middle.flatMap (triplesOf paths)) from
    ⟨this.1, this.2.trans (hperm.flatMap_right _)⟩
  clear hperm usable
  induction hrearranged with
  | nil => exact ⟨by simp, .refl _⟩
  | cons hentry _ ih =>
    obtain ⟨usable, htriples⟩ := hentry.triples (husable _ List.mem_cons_self)
    obtain ⟨hrest, hperm⟩ := ih fun entry h => husable entry (List.mem_cons_of_mem _ h)
    refine ⟨?_, htriples.append hperm⟩
    rintro other hother
    rcases List.mem_cons.mp hother with rfl | hother
    · exact usable
    · exact hrest other hother

theorem ambiguityLaws [TransCmp localeCompare] [LawfulEqCmp localeCompare] (paths : ProjectPaths) :
    AmbiguityLaws localeCompare paths where
  indexed files hne usable := by
    rcases files with _ | ⟨entry, files⟩
    · exact absurd rfl hne
    · rcases addFiles_groups paths (entry :: files) [] (.empty candidateKey) with
        ⟨-, m, indexedFrom, hrun, -⟩ | ⟨⟨other, hother, hunusable⟩, -⟩
      · rw [indexFor_cons hrun]
        exact ⟨_, _, rfl⟩
      · exact absurd (usable other hother) hunusable
  candidates files usable name := candidates_sorted usable name
  collisions files usable := ⟨mem_collisions usable, collisions_sorted usable⟩
  reordered files files' usable h := by
    obtain ⟨usable', htriples⟩ := h.triples usable
    have hsame (key : String) : sortedTriples localeCompare paths key files' =
        sortedTriples localeCompare paths key files := sortBy_eq_of_perm (htriples.filter _)
    have hlength (key : String) : (triplesUnder paths key files').length =
        (triplesUnder paths key files).length := (htriples.filter _).length_eq
    refine ⟨fun name => ?_, ?_⟩
    · rw [candidates_sorted usable', candidates_sorted usable, hsame]
    · refine eq_of_strictly_sorted (comparing localeCompare (·.name))
        (collisions_sorted usable') (collisions_sorted usable) fun collision => ?_
      obtain ⟨key, candidates⟩ := collision
      rw [mem_collisions usable', mem_collisions usable, hsame, hlength]
  unusable files h := by
    obtain ⟨reason, hindex⟩ := indexFor_unusable localeCompare h
    rw [hindex]
    exact ⟨⟨reason, rfl⟩, fun name => rfl⟩

end

def sampleProject : ProjectPaths where
  root := ⟨"/project", by decide⟩
  contractsDirectory := ⟨"/project/contracts", by decide⟩
  contractsBuildDirectory := ⟨"/project/build", by decide⟩
  buildInfoDirectory := ⟨"/project/build-info", by decide⟩
  contractsBuildDirectoryIsExternal := false

/-- With the order of the code points in the place of the host's. -/
theorem ambiguityLaws_sampleProject :
    AmbiguityLaws (compare : String → String → Ordering) sampleProject :=
  ambiguityLaws sampleProject

end TronUpgrades.Environment
