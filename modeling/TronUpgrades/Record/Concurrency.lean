import TronUpgrades.Record.History

/-!
# Two sessions at once

Two processes on one record location, each opening a session and then writing
records of its own; what runs inside the manifest lock excludes the other, what
does not may be interleaved. `guarded_where_unstale` keeps the guard in every
run without a stale write; `concurrent_sessions_relabel` is a run with one.
-/

namespace TronUpgrades.Record

open Effects Chain

variable {ρ : Type}

/-- A session, then its record writes; one that fails does not end the run. -/
def writeAll (session : RecordSession) :
    List (ManifestData ρ → ManifestData ρ) → RecordTask ρ Unit
  | [] => return ()
  | change :: changes => do
    let _ ← (session.writeRecord change).attempt
    writeAll session changes

def sessionWithWrites (deps : RecordDeps) (changes : List (ManifestData ρ → ManifestData ρ)) :
    RecordTask ρ Unit := do
  let session ← openRecord deps
  writeAll session changes

/-- One of two processes, that adds entries of its own node. -/
def processWriter (pid : Bool) (i : ChainInstanceIdentity) (origin : ρ → ChainInstance) :
    Writer ρ Bool :=
  .sharing pid i fun p => origin p = i.toChainInstance

section
variable {w : Writer ρ Bool} {s : Disk ρ Bool × Known Bool}

theorem writeAll_does {changes : List (ManifestData ρ → ManifestData ρ)}
    (hadds : ∀ change ∈ changes, ∀ data, ∀ p ∈ (change data).payloads,
      p ∈ data.payloads ∨ w.adds p) (session : RecordSession)
    (hsettles : Settles w.identity (s.2 w.pid)) :
    w.does (writeAll session changes) (fun _ _ => True) s := by
  induction changes generalizing s with
  | nil => trivial
  | cons change changes ih =>
    refine wp.attempt_bind (J := fun t => Settles w.identity (t.2 w.pid)) ?_ ?_
    · exact Writer.writeRecord_does (hadds change (List.mem_cons_self ..)) hsettles
    · intro _ t hsettles
      exact ih (fun change hc => hadds change (List.mem_cons_of_mem _ hc)) hsettles

theorem sessionWithWrites_does {changes : List (ManifestData ρ → ManifestData ρ)}
    (hadds : ∀ change ∈ changes, ∀ data, ∀ p ∈ (change data).payloads,
      p ∈ data.payloads ∨ w.adds p) (deps : RecordDeps) :
    w.does (sessionWithWrites deps changes) (fun _ _ => True) s := by
  refine wp.bind (Writer.openRecord_does deps) ?_ fun _ _ _ => trivial
  intro session t hsettles
  exact writeAll_does hadds session (hsettles session rfl)

end

-- ---------------------------------------------------------------------------
-- Steps that rely on nothing stale
-- ---------------------------------------------------------------------------

/-- A write that no other process has overtaken: the fingerprint on disk is what
this one last read from the file or wrote there, or its own already, or nothing
hangs on it. A fingerprint that is overwritten also names a first block, where
there is one. -/
def Unstale (pid : Bool) (i : ChainInstanceIdentity) (s : Disk ρ Bool × Known Bool) :
    RecordOp ρ → Prop
  | .writeFingerprintFile _ _ => s.2.Current pid s.1 ∧ s.1.Armed ∨
      s.1.fingerprint = ownFingerprint i ∨ recordCount s.1.data = 0
  | .writeManifest _ data => s.2.Current pid s.1 ∨
      s.1.fingerprint = ownFingerprint i ∨ ∀ p ∈ data.payloads, p ∈ s.1.payloads
  | _ => True

/-- Such a write finds the fingerprint it relies on. -/
theorem Unstale.stillOwn {w : Writer ρ Bool} {s : Disk ρ Bool × Known Bool} {op : RecordOp ρ}
    (h : Unstale w.pid w.identity s op) (hd : s.1.Signed) (hop : w.decided s op) :
    StillOwn w.identity s.1 op := by
  cases op with
  | writeFingerprintFile file record =>
    rcases h with ⟨hknown, harmed⟩ | hown | hempty
    · exact Writer.decided_current hop hd hknown fun _ _ _ => harmed
    · exact .inr (.inl hown)
    · exact .inr (.inr hempty)
  | writeManifest file data =>
    rcases h with hknown | hown | hold
    · exact Writer.decided_current hop hd hknown nofun
    · exact fun _ => hown
    · rintro ⟨p, hp, hnew⟩
      exact absurd (hold p hp) hnew
  | _ => trivial

/-- The two processes, each on its own node, and what each knows of the
fingerprint file. -/
abbrev processWorld (node : Bool → ChainInstanceIdentity) (pid : Bool) :
    World (recordEffects ρ) Failure (Disk ρ Bool × Known Bool) :=
  (diskWorld pid (node pid)).watched (Known.after pid)

/-- The same, where no write is stale. -/
def guardedWorld (node : Bool → ChainInstanceIdentity) (pid : Bool) :
    World (recordEffects ρ) Failure (Disk ρ Bool × Known Bool) :=
  (processWorld node pid).onlyIf (Unstale pid (node pid))

theorem Disk.Signed.step {w : Writer ρ ι} {d d' : Disk ρ ι} {op : RecordOp ρ}
    {r : Except Failure ((recordEffects ρ).Reply op)} (h : d.Signed)
    (hop : w.disciplined d op) (hs : DiskStep w.pid w.identity d op r d') : d'.Signed := by
  cases hs with
  | writeFingerprintFile =>
    obtain ⟨_, rfl⟩ := hop
    exact .inr ⟨w.identity, rfl⟩
  | _ => exact h

/-- What one process learns, the other does not. -/
theorem Known.after_other {pid other : Bool} (h : other ≠ pid) (known : Known Bool)
    (op : RecordOp ρ) (r : Except Failure ((recordEffects ρ).Reply op)) :
    known.after pid op r other = known other := by
  cases op <;> cases r <;> first | rfl | exact Function.update_of_ne h ..

/-- From a guarded record, and a fingerprint that a session wrote, every
interleaving without a stale write keeps the guard in every state: no complete
fingerprint stands over an entry of another instance. -/
theorem guarded_where_unstale (origin : ρ → ChainInstance)
    (node : Bool → ChainInstanceIdentity) (deps : Bool → RecordDeps)
    (changes : Bool → List (ManifestData ρ → ManifestData ρ))
    (hchanges : ∀ pid, ∀ change ∈ changes pid, ∀ data, ∀ p ∈ (change data).payloads,
      p ∈ data.payloads ∨ origin p = (node pid).toChainInstance)
    (d : Disk ρ Bool) (hd : d.Guarded origin) (hsigned : d.Signed)
    (xs : Bool → RecordTask ρ Unit) (d' : Disk ρ Bool) (known : Known Bool)
    (run : Pool.Reaches (guardedWorld node)
      (fun pid => sessionWithWrites (deps pid) (changes pid), (d, fun _ => none))
      (xs, (d', known))) :
    d'.Guarded origin := by
  have hinv := Pool.invariant (W := guardedWorld node)
    (I := fun s => s.1.Guarded origin ∧ s.1.Signed)
    (G := fun pid => (processWriter pid (node pid) origin).careful)
    (Q := fun _ _ _ => True)
    (fun pid => (processWriter pid (node pid) origin).drift)
    (fun _ => Writer.drift_refl) (fun _ => Writer.drift_trans)
    (fun _ _ _ _ _ _ => trivial) ?_ ⟨hd, hsigned⟩ ?_ run
  · exact hinv.1.1
  · rintro pid ⟨d, k⟩ op r ⟨d', k'⟩ ⟨hd, hsigned⟩ ⟨hop, hdecided⟩ ⟨hunstale, hstep, hknown⟩
    obtain rfl : k' = k.after pid op r := hknown
    have hstill := Unstale.stillOwn (w := processWriter pid (node pid) origin) hunstale hsigned
      hdecided
    refine ⟨⟨?_, ?_⟩, ?_⟩
    · exact hd.step (w := processWriter pid (node pid) origin) (fun _ h => h) hop hstill hstep
    · exact hsigned.step (w := processWriter pid (node pid) origin) hop hstep
    · intro other hother
      refine ⟨?_, Known.after_other hother k op r⟩
      exact Writer.undisturbed (w := processWriter pid (node pid) origin) hother hop hstep
  · intro pid
    refine wp_world_mono ?_ (sessionWithWrites_does (w := processWriter pid (node pid) origin)
      (hchanges pid) (deps pid))
    rintro t op r t' ⟨u, htu, _, hstep⟩
    exact ⟨u, htu, hstep⟩

/-- Two processes on node A, each with a record to add. -/
def twinChanges (pid : Bool) : List (ManifestData ChainInstance → ManifestData ChainInstance) :=
  [RecordSession.withProxy
    ⟨if pid then "TOtherProxy" else "TSampleProxy", .uups, nodeA.toChainInstance⟩]

theorem twinChanges_own (pid : Bool) (data : ManifestData ChainInstance) :
    ∀ change ∈ twinChanges pid, ∀ p ∈ (change data).payloads,
      p ∈ data.payloads ∨ p = nodeA.toChainInstance := by
  intro change hchange p hp
  obtain rfl := List.mem_singleton.mp hchange
  simp only [ManifestData.payloads, RecordSession.withProxy, List.mem_append, List.map_append,
    List.map_cons, List.map_nil, List.mem_singleton, List.mem_map, List.mem_filter] at hp ⊢
  rcases hp with (himpl | ⟨proxy, ⟨hproxy, -⟩, rfl⟩ | hnew) | hadmin
  · exact .inl (.inl (.inl himpl))
  · exact .inl (.inl (.inr ⟨proxy, hproxy, rfl⟩))
  · exact .inr hnew
  · exact .inl (.inr hadmin)

/-- The two processes before they start. -/
def twinPool : (Bool → RecordTask ChainInstance Unit) × (Disk ChainInstance Bool × Known Bool) :=
  (fun pid => sessionWithWrites sampleDeps (twinChanges pid), ⟨none, none, none⟩, fun _ => none)

/-- Both read an absent fingerprint and an empty record, both arm and both add
their entry: the second finds its own instance's fingerprint. -/
theorem guarded_where_unstale_twins : ∃ xs d known,
    Pool.Reaches (guardedWorld fun _ => nodeA) twinPool (xs, (d, known)) ∧
      d.fingerprint = ownFingerprint nodeA ∧
      d.data.proxies.map (·.address) = ["TSampleProxy", "TOtherProxy"] ∧ d.Guarded id := by
  have hclear : Pool.Clear
      (fun pid => noting (diskAnswer pid nodeA) (Known.after pid)) (fun pid => Unstale pid nodeA)
      [(false, 6), (true, 6), (false, 8), (true, 8)] twinPool := by
    refine ⟨⟨trivial, trivial, trivial, trivial, trivial, trivial, trivial⟩,
      ⟨trivial, trivial, trivial, trivial, trivial, trivial, trivial⟩, ?first, ?second, trivial⟩
    case first =>
      exact ⟨trivial, trivial, .inr (.inr rfl), trivial, trivial, trivial, .inr (.inl rfl),
        trivial, trivial⟩
    case second =>
      exact ⟨trivial, trivial, .inr (.inl rfl), trivial, trivial, trivial, .inr (.inl rfl),
        trivial, trivial⟩
  have hrun := hclear.reaches (fun pid => (diskAnswer_allowed pid nodeA).watched)
  refine ⟨_, _, _, hrun, rfl, rfl, ?_⟩
  refine guarded_where_unstale id (fun _ => nodeA) (fun _ => sampleDeps) twinChanges ?_
    ⟨none, none, none⟩ ⟨fun _ => rfl, nofun⟩ (.inl rfl) _ _ _ hrun
  exact fun pid change hchange data => twinChanges_own pid data change hchange

/-- The second of two disturbed sessions is node B's. -/
def sampleNode : Bool → ChainInstanceIdentity
  | false => nodeA
  | true => nodeB

def sampleChanges : Bool → List (ManifestData ChainInstance → ManifestData ChainInstance)
  | false => [fun _ => sampleRecord nodeA]
  | true => []

def samplePool : (Bool → RecordTask ChainInstance Unit) × Disk ChainInstance Bool :=
  (fun pid => sessionWithWrites sampleDeps (sampleChanges pid), ⟨none, none, none⟩)

/-- Both sessions read an absent fingerprint and an empty record. The first
arms and writes its record; the second, its verdict stale, takes the lock and
writes its own fingerprint over it. -/
theorem concurrent_sessions_relabel : ∃ xs d,
    Pool.Reaches (fun pid => diskWorld pid (sampleNode pid)) samplePool (xs, d) ∧
      ∃ r, readFingerprint d.fingerprint = .record r ∧ incompleteFieldOf r = none ∧
        ∃ p ∈ d.payloads, p.recorded ≠ r := by
  have hrun := Pool.reaches_schedule (fun pid => diskAnswer_allowed pid (sampleNode pid))
    [(false, 6), (true, 6), (false, 14), (true, 3)] samplePool
  refine ⟨_, _, hrun, nodeB.recorded, readFingerprint_fingerprintFor nodeB, rfl, ?_⟩
  exact ⟨nodeA.toChainInstance, List.mem_singleton_self _, by decide⟩

end TronUpgrades.Record
