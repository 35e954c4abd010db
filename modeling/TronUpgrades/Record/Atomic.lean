import TronUpgrades.Effects.Atomic
import TronUpgrades.Record.Disk
import TronUpgrades.Record.Migration

/-!
# Sessions over one record

What the processes that share a record do to it, each call made operation by
operation under the manifest lock, is what they would do if every call were
made at once on one manifest (`sessions_atomic`). So no update is lost, and a
proxy once recorded is found by every later lookup, under any spelling of its
address (`recorded_stays`).
-/

namespace TronUpgrades.Record

open Effects Address

variable {ρ ι α : Type}

namespace RecordSession

def recordCount (session : RecordSession) : RecordTask ρ Nat := do
  let data ← throughRecordRead session.manifestFile (ask (.readManifest session.manifestFile))
  return Record.recordCount data

/-- An update of the engine's own, run through the session: what it makes of
the manifest, or how it fails before it writes. -/
def throughLock (session : RecordSession)
    (update : ManifestData ρ → Except Failure (ManifestData ρ)) :
    RecordTask ρ Unit :=
  throughRecordLock session.manifestFile <| lockedRun session.manifestFile do
    let data ← ask (.readManifest session.manifestFile)
    let data ← Script.ofExcept (update data)
    ask (.writeManifest session.manifestFile data)

end RecordSession

/-- The calls a process makes on a record. -/
inductive SessionOp (ρ : Type)
  | openRecord
  | getProxyRecord (session : RecordSession) (address : String)
  | getImplRecord (session : RecordSession) (address : String)
  | recordCount (session : RecordSession)
  | addProxyRecord (session : RecordSession) (rest : ρ) (address : String) (kind : ProxyKind)
  | throughLock (session : RecordSession)
      (update : ManifestData ρ → Except Failure (ManifestData ρ))

def SessionOp.Reply : SessionOp ρ → Type
  | .openRecord => RecordSession
  | .getProxyRecord _ _ => Option (ProxyDeployment ρ)
  | .getImplRecord _ _ => Option (ImplDeployment ρ)
  | .recordCount _ => Nat
  | .addProxyRecord _ _ _ _ => Unit
  | .throughLock _ _ => Unit

abbrev sessionEffects (ρ : Type) : Signature := ⟨SessionOp ρ, SessionOp.Reply⟩

/-- A program over sessions. -/
abbrev SessionTask (ρ : Type) := Script (sessionEffects ρ) Failure

/-- How each call is carried out on the record's files. -/
def SessionOp.carriedOut (deps : RecordDeps) : (op : SessionOp ρ) → RecordTask ρ op.Reply
  | .openRecord => Record.openRecord deps
  | .getProxyRecord session address => session.getProxyRecord deps.codec address
  | .getImplRecord session address => session.getImplRecord deps.codec address
  | .recordCount session => session.recordCount
  | .addProxyRecord session rest address kind => session.addProxyRecord deps.codec rest address kind
  | .throughLock session update => session.throughLock update

def implRecordFor (impls : List (String × ImplDeployment ρ)) (key : String) :
    Option (ImplDeployment ρ) :=
  (impls.map (·.2)).find? fun impl =>
    impl.address == key || (impl.allAddresses.getD []).contains key

/-- The same calls made at once on a manifest. Any of them may fail, and one
that writes may do so and still fail, where the lock is not given back. -/
inductive SessionStep (deps : RecordDeps) :
    ManifestData ρ → (op : SessionOp ρ) → Except Failure op.Reply → ManifestData ρ → Prop
  | failed {m op e} : SessionStep deps m op (.error e) m
  | opened {m session} : SessionStep deps m .openRecord (.ok session) m
  | migrated {m r} :
      SessionStep deps m .openRecord r (canonicalizeStoredAddresses deps.codec m).data
  | proxyRecord {m session address key} : canonicalizeAddress deps.codec address = .ok key →
      SessionStep deps m (.getProxyRecord session address) (.ok (storedRecordFor m.proxies key)) m
  | implRecord {m session address key} : canonicalizeAddress deps.codec address = .ok key →
      SessionStep deps m (.getImplRecord session address) (.ok (implRecordFor m.impls key)) m
  | counted {m session} :
      SessionStep deps m (.recordCount session) (.ok (Record.recordCount m)) m
  | added {m session rest address kind key r} : canonicalizeAddress deps.codec address = .ok key →
      SessionStep deps m (.addProxyRecord session rest address kind) r
        (RecordSession.withProxy ⟨key, kind, rest⟩ m)
  | updated {m m' session update r} : update m = .ok m' →
      SessionStep deps m (.throughLock session update) r m'

def sessionWorld (deps : RecordDeps) : World (sessionEffects ρ) Failure (ManifestData ρ) where
  step := SessionStep deps

/-- A process that may add any entry. -/
abbrev sharer (pid : ι) (i : Chain.ChainInstanceIdentity) : Writer ρ ι :=
  .sharing pid i fun _ => True

-- ---------------------------------------------------------------------------
-- A call's run, followed
-- ---------------------------------------------------------------------------

section
variable (deps : RecordDeps) (pid : ι) (i : Chain.ChainInstanceIdentity)

/-- Every run of `y` by the process, followed as a run of calls made at once. -/
abbrev Followed {β : Type} (y : RecordTask ρ β)
    (Q : Except Failure β → Set (SessionTask ρ α) → Prop)
    (c : Disk ρ ι × Set (SessionTask ρ α)) : Prop :=
  Follows (diskWorld pid i) (sessionWorld deps) Disk.data (sharer pid i).rely
    (sharer pid i).disciplined y
    (fun o c => (sessionWorld deps).Closed c.1.data c.2 ∧ Q o c.2) c

/-- The same under the lock, which is still held at the end. -/
abbrev Held {β : Type} (y : RecordTask ρ β)
    (Q : Except Failure β → Set (SessionTask ρ α) → Prop)
    (c : Disk ρ ι × Set (SessionTask ρ α)) : Prop :=
  Follows (diskWorld pid i) (sessionWorld deps) Disk.data (sharer pid i).rely
    (sharer pid i).disciplined y
    (fun o c => c.1.lockHolder = some pid ∧ c.2.Nonempty ∧
      (sessionWorld deps).Closed c.1.data c.2 ∧ Q o c.2) c

variable {deps pid i} {β γ : Type} {d : Disk ρ ι} {X : Set (SessionTask ρ α)} {x : SessionTask ρ α}

/-- What a part that only reads leaves possible. -/
theorem Followed.quiet {y : RecordTask ρ β} (hy : Quiet y)
    (closed : (sessionWorld deps).Closed d.data X) (hX : X.Nonempty) :
    Followed deps pid i y (fun _ Y => X ⊆ Y) (d, X) := by
  refine wp_mono ?_ (Follows.still (P := fun op => RecordOp.quiet op = true) ?_ ?_ hy hX)
  · rintro o c ⟨hsub, hclosed⟩
    exact ⟨hclosed closed, hsub⟩
  · intro s op hop
    cases op <;> trivial
  · intro s op r s' hop hstep
    rw [hstep.eq_of_quiet hop]

theorem Followed.bind {y : RecordTask ρ β} {f : β → RecordTask ρ γ}
    {R : Except Failure β → Set (SessionTask ρ α) → Prop}
    {Q : Except Failure γ → Set (SessionTask ρ α) → Prop} (hy : Followed deps pid i y R (d, X))
    (ok : ∀ a (t : Disk ρ ι) Y, (sessionWorld deps).Closed t.data Y → R (.ok a) Y →
      Followed deps pid i (f a) Q (t, Y))
    (error : ∀ e m Y, (sessionWorld deps).Closed m Y → R (.error e) Y → Q (.error e) Y) :
    Followed deps pid i (y.bind f) Q (d, X) := by
  refine wp.bind hy ?_ ?_
  · rintro a ⟨t, Y⟩ ⟨closed, hR⟩
    exact ok a t Y closed hR
  · rintro e ⟨t, Y⟩ ⟨closed, hR⟩
    exact ⟨closed, error e t.data Y closed hR⟩

theorem Followed.catching {y : RecordTask ρ β} {handler : Failure → RecordTask ρ β}
    {Q R : Except Failure β → Set (SessionTask ρ α) → Prop} (hy : Followed deps pid i y R (d, X))
    (ok : ∀ a Y, R (.ok a) Y → Q (.ok a) Y)
    (error : ∀ e (t : Disk ρ ι) Y, (sessionWorld deps).Closed t.data Y → R (.error e) Y →
      Followed deps pid i (handler e) Q (t, Y)) :
    Followed deps pid i (y.catching handler) Q (d, X) := by
  refine wp.catching hy ?_ ?_
  · rintro a ⟨t, Y⟩ ⟨closed, hR⟩
    exact ⟨closed, ok a Y hR⟩
  · rintro e ⟨t, Y⟩ ⟨closed, hR⟩
    exact error e t Y closed hR

theorem Followed.ofExcept_bind {r : Except Failure β} {f : β → RecordTask ρ γ}
    {Q : Except Failure γ → Set (SessionTask ρ α) → Prop}
    (closed : (sessionWorld deps).Closed d.data X)
    (ok : ∀ a, r = .ok a → Followed deps pid i (f a) Q (d, X))
    (error : ∀ e, r = .error e → Q (.error e) X) :
    Followed deps pid i ((Script.ofExcept r).bind f) Q (d, X) :=
  wp.ofExcept_bind ok fun e he => ⟨closed, error e he⟩

/-- The lock, the body under it, the lock given back. -/
theorem Followed.lockedRun {y : RecordTask ρ β} {file : String}
    {Q : Except Failure β → Set (SessionTask ρ α) → Prop}
    (mono : ∀ o Y Z, Y ⊆ Z → Q o Y → Q o Z) (unlocked : ∀ o e Y, Q o Y → Q (.error e) Y)
    (fails : ∀ e m Y, (sessionWorld deps).Closed m Y → x ∈ Y → Q (.error e) Y)
    (body : ∀ (t : Disk ρ ι) Y, t.lockHolder = some pid → (sessionWorld deps).Closed t.data Y →
      x ∈ Y → Held deps pid i y Q (t, Y))
    (hx : x ∈ X) :
    Followed deps pid i (Record.lockedRun file y) Q (d, X) := by
  refine Follows.ask (fun _ _ => trivial) ⟨x, hx⟩ ?_ ?_
  · rintro _ t s' _ hstep
    cases hstep with
    | lock hfree =>
      refine wp_bind.mpr (wp_attempt.mpr (wp_mono ?_ (body _ _ rfl World.closed_moved
        (World.subset_moved hx))))
      rintro o ⟨u, Y⟩ ⟨hheld, hne, hclosed, hQ⟩
      refine Follows.ask ?_ hne ?_ ?_
      · intro v huv
        rw [(sharer pid i).rely_locked u v huv hheld]
        exact hheld
      · rintro _ v s' huv hstep
        obtain rfl := (sharer pid i).rely_locked u v huv hheld
        cases hstep
        refine wp_ofExcept.mpr ⟨World.closed_moved, ?_⟩
        exact mono o _ _ World.subset_moved hQ
      · rintro e v s' huv hstep
        rw [hstep.error_eq]
        refine ⟨World.closed_moved, unlocked o e _ (mono o _ _ ?_ hQ)⟩
        exact World.subset_moved
  · rintro e t s' _ hstep
    rw [hstep.error_eq]
    exact ⟨World.closed_moved, fails e t.data _ World.closed_moved (World.subset_moved hx)⟩

/-- The outcome is possible, and so is any failure. -/
def Answers (next : Except Failure β → SessionTask ρ α) (o : Except Failure β)
    (Y : Set (SessionTask ρ α)) : Prop :=
  (∀ e, next (.error e) ∈ Y) ∧ next o ∈ Y

variable {next : Except Failure β → SessionTask ρ α}

theorem Answers.error (h : ∀ e, next (.error e) ∈ X) (e : Failure) : Answers next (.error e) X :=
  ⟨h, h e⟩

theorem Answers.mono {o : Except Failure β} {Y : Set (SessionTask ρ α)} (hsub : X ⊆ Y)
    (h : Answers next o X) : Answers next o Y :=
  ⟨fun e => hsub (h.1 e), hsub h.2⟩

theorem throughRecordRead_followed {y : RecordTask ρ β} {file : String}
    (hy : Followed deps pid i y (Answers next) (d, X)) :
    Followed deps pid i (throughRecordRead file y) (Answers next) (d, X) := by
  refine hy.catching (fun _ _ h => h) fun e t Y closed h => ?_
  split <;> exact ⟨closed, .error h.1 _⟩

theorem throughRecordLock_followed {y : RecordTask ρ β} {file : String}
    (hy : Followed deps pid i y (Answers next) (d, X)) :
    Followed deps pid i (throughRecordLock file y) (Answers next) (d, X) := by
  refine hy.catching (fun _ _ h => h) fun e t Y closed h => ?_
  split <;> exact ⟨closed, .error h.1 _⟩

/-- A read of the manifest, and what is made of it. -/
theorem readManifest_followed {f : ManifestData ρ → β} {file : String}
    (reads : ∀ m Y, (sessionWorld deps).Closed m Y → x ∈ Y → Answers next (.ok (f m)) Y)
    (hx : x ∈ X) :
    Followed deps pid i (ask (.readManifest file)) (Answers fun r => next (r.map f)) (d, X) := by
  refine Follows.perform (fun _ _ => trivial) ⟨x, hx⟩ ?_
  intro r t s' _ hstep
  have h := reads t.data _ World.closed_moved ((sessionWorld deps).subset_moved hx)
  cases hstep with
  | rejected => exact ⟨World.closed_moved, .error h.1 _⟩
  | readManifest => exact ⟨World.closed_moved, h⟩

/-- A read-modify-write under the lock: whoever else is writing, what is
written is made of the manifest as it is. -/
theorem update_followed {f : ManifestData ρ → Except Failure (ManifestData ρ)} {file : String}
    {next : Except Failure Unit → SessionTask ρ α}
    (fails : ∀ e m Y, (sessionWorld deps).Closed m Y → x ∈ Y → next (.error e) ∈ Y)
    (writes : ∀ m m' Y, f m = .ok m' → x ∈ Y → ∀ o, next o ∈ (sessionWorld deps).moved m m' Y)
    (hx : x ∈ X) :
    Followed deps pid i (Record.lockedRun file do
        let data ← ask (.readManifest file)
        let data ← Script.ofExcept (f data)
        ask (.writeManifest file data)) (Answers next) (d, X) := by
  refine Followed.lockedRun (fun _ _ _ => Answers.mono) (fun _ e _ h => .error h.1 e)
    (fun e m Y closed hx => .error (fun e => fails e m Y closed hx) e) ?_ hx
  intro t Y hheld closed hx
  have failed : ∀ e m Y, (sessionWorld deps).Closed m Y → x ∈ Y → Answers next (.error e) Y :=
    fun e m Y closed hx => .error (fun e => fails e m Y closed hx) e
  refine Follows.ask (fun _ _ => trivial) ⟨x, hx⟩ ?_ ?_
  · intro data u s' htu hstep
    obtain rfl := (sharer pid i).rely_locked t u htu hheld
    cases hstep
    have hx := (sessionWorld deps).subset_moved (a := u.data) hx
    refine wp.ofExcept_bind ?_ ?_
    · intro m' hm'
      refine Follows.perform ?_ ⟨x, hx⟩ ?_
      · intro v huv
        obtain rfl := (sharer pid i).rely_locked u v huv hheld
        exact ⟨hheld, fun _ _ => .inr trivial⟩
      · intro r v s' huv hstep
        obtain rfl := (sharer pid i).rely_locked u v huv hheld
        cases hstep with
        | rejected =>
          refine ⟨hheld, ⟨x, World.subset_moved hx⟩, World.closed_moved, ?_⟩
          exact failed _ _ _ World.closed_moved (World.subset_moved hx)
        | writeManifest =>
          have hnext := writes v.data m' _ hm' hx
          exact ⟨hheld, ⟨_, hnext (.ok ())⟩, World.closed_moved, fun e => hnext (.error e),
            hnext (.ok ())⟩
    · intro e _
      exact ⟨hheld, ⟨x, hx⟩, World.closed_moved, failed e _ _ World.closed_moved hx⟩
  · intro e u s' htu hstep
    obtain rfl := (sharer pid i).rely_locked t u htu hheld
    rw [hstep.error_eq]
    have hx := (sessionWorld deps).subset_moved (a := u.data) hx
    exact ⟨hheld, ⟨x, hx⟩, World.closed_moved, failed e _ _ World.closed_moved hx⟩

-- ---------------------------------------------------------------------------
-- The preflight
-- ---------------------------------------------------------------------------

section
variable {next : Except Failure RecordSession → SessionTask ρ α} {files : RecordFiles}

/-- Before the migration, a preflight may still end in any way. -/
theorem opened_any {m : ManifestData ρ} (closed : (sessionWorld deps).Closed m X)
    (hx : Script.call SessionOp.openRecord next ∈ X) (r : Except Failure RecordSession) :
    next r ∈ X := by
  refine closed (World.moved_call hx ?_)
  cases r with
  | ok session => exact .opened
  | error e => exact .failed

/-- Writing the fingerprint leaves the manifest and the lock. -/
theorem writeFingerprint_followed {file : String} {record : FingerprintFile}
    (hrecord : record = fingerprintFor i) (hheld : d.lockHolder = some pid) (hx : x ∈ X) :
    Follows (diskWorld pid i) (sessionWorld deps) Disk.data (sharer pid i).rely
      (sharer pid i).disciplined (writeFingerprint file record)
      (fun _ c => c.1.lockHolder = some pid ∧ c.1.data = d.data ∧
        (sessionWorld deps).Closed c.1.data c.2 ∧ x ∈ c.2) (d, X) := by
  subst hrecord
  have hp : (fingerprintFor i).persistable = true := fingerprintFor_persistable _
  simp only [writeFingerprint, hp, Bool.not_true, Bool.false_eq_true, ↓reduceIte]
  refine Follows.perform ?_ ⟨x, hx⟩ ?_
  · intro t hdt
    obtain rfl := (sharer pid i).rely_locked d t hdt hheld
    exact ⟨hheld, rfl⟩
  · intro r t s' hdt hstep
    obtain rfl := (sharer pid i).rely_locked d t hdt hheld
    have hx := (sessionWorld deps).subset_moved (a := t.data) hx
    cases hstep <;> exact ⟨hheld, rfl, World.closed_moved, hx⟩

/-- Step 6 migrates the manifest as it is under the lock, or leaves it. -/
theorem armAndMigrate_followed {changed : Option Chain.ChainInstanceChange} {needs : Bool}
    (hfiles : files.identity = i) (hheld : d.lockHolder = some pid)
    (closed : (sessionWorld deps).Closed d.data X)
    (hx : Script.call SessionOp.openRecord next ∈ X) :
    Held deps pid i (armAndMigrate deps files changed needs) (fun _ Y => ∀ r, next r ∈ Y)
      (d, X) := by
  have stopped : ∀ (t : Disk ρ ι) Y, t.lockHolder = some pid →
      (sessionWorld deps).Closed t.data Y → Script.call SessionOp.openRecord next ∈ Y →
      t.lockHolder = some pid ∧ Y.Nonempty ∧ (sessionWorld deps).Closed t.data Y ∧
        ∀ r, next r ∈ Y :=
    fun t Y hheld closed hx => ⟨hheld, ⟨_, hx⟩, closed, opened_any closed hx⟩
  refine Follows.ask (fun _ _ => trivial) ⟨_, hx⟩ ?_ ?_
  · intro data t s' hdt hstep
    obtain rfl := (sharer pid i).rely_locked d t hdt hheld
    cases hstep
    have hx := (sessionWorld deps).subset_moved (a := t.data) hx
    refine wp.ofExcept_bind ?_ fun e _ => stopped t _ hheld World.closed_moved hx
    rintro ⟨⟩ _
    refine wp.bind (R := fun _ c => c.1.lockHolder = some pid ∧ c.1.data = t.data ∧
      (sessionWorld deps).Closed c.1.data c.2 ∧ Script.call SessionOp.openRecord next ∈ c.2)
      (wp.when ?_ ?_) ?_ ?_
    · exact fun _ => writeFingerprint_followed (by rw [hfiles]) hheld hx
    · exact fun _ => ⟨hheld, rfl, World.closed_moved, hx⟩
    · rintro ⟨⟩ ⟨u, Y⟩ ⟨hheld, hdata, closed, hx⟩
      refine wp.bind (R := fun _ c => c.1.lockHolder = some pid ∧ c.2.Nonempty ∧
        (sessionWorld deps).Closed c.1.data c.2 ∧ ∀ r, next r ∈ c.2) (wp.when ?_ ?_) ?_ ?_
      · intro _
        refine Follows.perform ?_ ⟨_, hx⟩ ?_
        · intro v huv
          obtain rfl := (sharer pid i).rely_locked u v huv hheld
          exact ⟨hheld, fun _ _ => .inr trivial⟩
        · intro r v s' huv hstep
          obtain rfl := (sharer pid i).rely_locked u v huv hheld
          cases hstep with
          | rejected => exact stopped v _ hheld World.closed_moved (World.subset_moved hx)
          | writeManifest =>
            have hnext (r : Except Failure RecordSession) :
                next r ∈ (sessionWorld deps).moved v.data
                  (canonicalizeStoredAddresses deps.codec t.data).data Y := by
              rw [← hdata]
              exact World.moved_call hx .migrated
            exact ⟨hheld, ⟨_, hnext (.error (.error ""))⟩, World.closed_moved, hnext⟩
      · exact fun _ => stopped u Y hheld closed hx
      · exact fun _ _ h => h
      · exact fun _ _ h => h
    · rintro e ⟨u, Y⟩ ⟨hheld, _, closed, hx⟩
      exact stopped u Y hheld closed hx
  · intro e t s' hdt hstep
    obtain rfl := (sharer pid i).rely_locked d t hdt hheld
    rw [hstep.error_eq]
    exact stopped t _ hheld World.closed_moved (World.subset_moved hx)

theorem lockedArm_followed {changed : Option Chain.ChainInstanceChange} {needs : Bool}
    (hfiles : files.identity = i) (hx : Script.call SessionOp.openRecord next ∈ X) :
    Followed deps pid i (throughRecordLock files.manifestFile
        (lockedRun files.manifestFile (armAndMigrate deps files changed needs)))
      (fun _ Y => ∀ r, next r ∈ Y) (d, X) := by
  refine Followed.catching (Followed.lockedRun (Q := fun _ Y => ∀ r, next r ∈ Y)
    (fun _ _ _ hsub h r => hsub (h r)) (fun _ _ _ h => h)
    (fun _ _ _ closed hx => opened_any closed hx) ?_ hx) (fun _ _ h => h) ?_
  · exact fun t Y hheld closed hx => armAndMigrate_followed hfiles hheld closed hx
  · intro e t Y closed h
    split <;> exact ⟨closed, h⟩

theorem settleInstance_followed {read : FingerprintRead} {comparison : Chain.InstanceComparison}
    (hfiles : files.identity = i) (closed : (sessionWorld deps).Closed d.data X)
    (hx : Script.call SessionOp.openRecord next ∈ X) :
    Followed deps pid i (settleInstance deps files read comparison)
      (fun _ Y => ∀ r, next r ∈ Y) (d, X) := by
  refine (Followed.quiet (throughRecordRead_still (ask_still rfl)).quiet closed ⟨_, hx⟩).bind ?_ ?_
  · intro data t Y closed hsub
    have hx := hsub hx
    cases comparison with
    | changed change =>
      simp only
      split
      · exact ⟨closed, opened_any closed hx⟩
      · refine (lockedArm_followed hfiles hx).bind ?_ fun _ _ _ _ h => h
        intro written u Z closed h
        refine (Followed.quiet (ask_quiet rfl) closed ⟨_, h (.error (.error ""))⟩).bind ?_ ?_
        · exact fun _ _ _ closed hsub => ⟨closed, fun r => hsub (h r)⟩
        · exact fun _ _ _ _ hsub r => hsub (h r)
    | indeterminate because =>
      refine (lockedArm_followed hfiles hx).bind ?_ fun _ _ _ _ h => h
      exact fun _ _ _ closed h => ⟨closed, h⟩
    | same =>
      simp only
      split
      · refine (lockedArm_followed hfiles hx).bind ?_ fun _ _ _ _ h => h
        exact fun _ _ _ closed h => ⟨closed, h⟩
      · exact ⟨closed, opened_any closed hx⟩
  · exact fun _ _ _ closed hsub => opened_any closed (hsub hx)

theorem usableFingerprint_quiet {read : FingerprintRead} :
    Quiet (usableFingerprint files read : RecordTask ρ _) := by
  cases read with
  | absent => trivial
  | record record => trivial
  | unreadable because => exact (diagnoseFingerprintRefusal_still _).quiet.bind fun _ => trivial

theorem openRecord_followed (closed : (sessionWorld deps).Closed d.data X)
    (hx : Script.call SessionOp.openRecord next ∈ X) :
    Followed deps pid i (openRecord deps) (fun _ Y => ∀ r, next r ∈ Y) (d, X) := by
  have stopped : ∀ (e : Failure) (m : ManifestData ρ) (Y : Set (SessionTask ρ α)),
      (sessionWorld deps).Closed m Y → Script.call SessionOp.openRecord next ∈ Y →
      ∀ r, next r ∈ Y := fun _ _ _ closed hx => opened_any closed hx
  refine (Followed.quiet (configureRecordLocation_still _ _).quiet closed ⟨_, hx⟩).bind ?_
    fun e m Y closed hsub => stopped e m Y closed (hsub hx)
  intro location t Y closed hsub
  replace hx := hsub hx
  refine Follows.ask (fun _ _ => trivial) ⟨_, hx⟩ ?_ ?_
  · intro identity u s' _ hstep
    cases hstep
    have hx := (sessionWorld deps).subset_moved (a := u.data) hx
    show Followed deps pid i _ (fun _ Y => ∀ r, next r ∈ Y) _
    refine (Followed.quiet (Writer.openRecordManifest_still _).quiet World.closed_moved ⟨_, hx⟩).bind ?_
      fun e m Y closed hsub => stopped e m Y closed (hsub hx)
    intro manifest v Z closed hsub
    replace hx := hsub hx
    refine .ofExcept_bind closed ?_ fun e _ => stopped e _ Z closed hx
    intro manifestFile _
    have hread : Quiet (readFingerprintAt (fingerprintPathFor deps.path manifestFile) :
        RecordTask ρ _) := .bind (ask_quiet rfl) fun _ => trivial
    refine (Followed.quiet hread closed ⟨_, hx⟩).bind ?_
      fun e m Y closed hsub => stopped e m Y closed (hsub hx)
    intro read v Z closed hsub
    replace hx := hsub hx
    refine (Followed.quiet usableFingerprint_quiet closed ⟨_, hx⟩).bind ?_
      fun e m Y closed hsub => stopped e m Y closed (hsub hx)
    intro recorded v Z closed hsub
    replace hx := hsub hx
    refine Followed.bind (Q := fun _ Y => ∀ r, next r ∈ Y)
      (settleInstance_followed rfl closed hx) ?_ fun _ _ _ _ h => h
    rintro ⟨migration, migrated, outcome⟩ v Z closed h
    refine (Followed.quiet (reconcileProxies_still _ _ _ _).quiet closed
      ⟨_, h (.error (.error ""))⟩).bind ?_ fun _ _ _ _ hsub r => hsub (h r)
    exact fun _ _ _ closed hsub => ⟨closed, fun r => hsub (h r)⟩
  · intro e u s' _ hstep
    rw [hstep.error_eq]
    exact ⟨World.closed_moved, stopped e u.data _ World.closed_moved (World.subset_moved hx)⟩

end

-- ---------------------------------------------------------------------------
-- Every call
-- ---------------------------------------------------------------------------

/-- Each call can be taken for itself made at one moment of its run. -/
theorem carriedOut_atomically (op : SessionOp ρ) :
    Atomically (diskWorld pid i) (sessionWorld deps) Disk.data (sharer pid i).rely
      (sharer pid i).disciplined op (op.carriedOut deps) := by
  intro α next d X closed hx
  have fails : ∀ e m Y, (sessionWorld deps).Closed m Y → Script.call op next ∈ Y →
      next (.error e) ∈ Y := fun e m Y closed hx => closed (World.moved_call hx .failed)
  suffices h : Followed deps pid i (op.carriedOut deps) (Answers next) (d, X) from
    wp_mono (fun o c hc => ⟨hc.2.2, hc.1⟩) h
  have reads (f : ManifestData ρ → op.Reply) (hstep : ∀ m, SessionStep deps m op (.ok (f m)) m) :
      ∀ m Y, (sessionWorld deps).Closed m Y → Script.call op next ∈ Y →
        Answers next (.ok (f m)) Y := fun m Y closed hx =>
    ⟨fun e => fails e m Y closed hx, closed (World.moved_call hx (hstep m))⟩
  cases op with
  | openRecord =>
    refine wp_mono ?_ (openRecord_followed closed hx)
    exact fun o c hc => ⟨hc.1, fun e => hc.2 (.error e), hc.2 o⟩
  | getProxyRecord session address =>
    refine .ofExcept_bind closed ?_ ?_
    · intro key hkey
      refine throughRecordRead_followed (Followed.bind (readManifest_followed (f := fun m =>
        storedRecordFor m.proxies key) ?_ hx) (fun _ _ _ closed h => ⟨closed, h⟩)
        fun _ _ _ _ h => h)
      exact reads _ fun _ => .proxyRecord hkey
    · exact fun e _ => .error (fun e => fails e _ X closed hx) e
  | getImplRecord session address =>
    refine .ofExcept_bind closed ?_ ?_
    · intro key hkey
      refine throughRecordRead_followed (Followed.bind (readManifest_followed (f := fun m =>
        implRecordFor m.impls key) ?_ hx) (fun _ _ _ closed h => ⟨closed, h⟩) fun _ _ _ _ h => h)
      exact reads _ fun _ => .implRecord hkey
    · exact fun e _ => .error (fun e => fails e _ X closed hx) e
  | recordCount session =>
    refine Followed.bind (throughRecordRead_followed (readManifest_followed ?_ hx))
      (fun _ _ _ closed h => ⟨closed, h⟩) fun _ _ _ _ h => h
    exact reads Record.recordCount fun _ => .counted
  | addProxyRecord session rest address kind =>
    refine .ofExcept_bind closed ?_ ?_
    · intro key hkey
      refine throughRecordRead_followed (update_followed
        (f := fun data => .ok (RecordSession.withProxy ⟨key, kind, rest⟩ data)) fails ?_ hx)
      rintro m m' Y hm hx o
      cases hm
      exact World.moved_call hx (.added hkey)
    · exact fun e _ => .error (fun e => fails e _ X closed hx) e
  | throughLock session update =>
    refine throughRecordLock_followed (update_followed fails ?_ hx)
    exact fun m m' Y hm hx o => World.moved_call hx (.updated hm)

end

/-- Every interleaving of processes on one record is one of their calls made
at once: each manifest is what those calls leave, in one order for all, and
who has finished has the same outcome. -/
theorem sessions_atomic [DecidableEq ι] [Finite ι] (node : ι → Chain.ChainInstanceIdentity)
    (deps : ι → RecordDeps) (clients : ι → SessionTask ρ α) (d d' : Disk ρ ι)
    (ys : ι → RecordTask ρ α)
    (run : Pool.Reaches (fun pid => diskWorld pid (node pid))
      (fun pid => (clients pid).implemented (SessionOp.carriedOut (deps pid)), d) (ys, d')) :
    ∃ xs, Pool.Reaches (fun pid => sessionWorld (deps pid)) (clients, d.data) (xs, d'.data) ∧
      ∀ pid o, ys pid = .ofExcept o → xs pid = .ofExcept o :=
  Pool.atomic (fun pid => (sharer pid (node pid)).rely_refl)
    (fun pid => (sharer pid (node pid)).rely_trans)
    (fun pid _ _ _ _ hop hstep _ hj =>
      Writer.undisturbed (w := sharer pid (node pid)) hj hop hstep)
    (fun _ op => carriedOut_atomically op) run

-- ---------------------------------------------------------------------------
-- What stays recorded
-- ---------------------------------------------------------------------------

section
variable {codec : AddressCodec} {key : String} {OK : ProxyDeployment ρ → Prop}
  {deps : RecordDeps} {m m' : ManifestData ρ}

/-- Every proxy's address is in the form the migration would give it, and none
is recorded twice. -/
structure Settled (codec : AddressCodec) (m : ManifestData ρ) : Prop where
  canonical : ∀ p ∈ m.proxies, settled codec p.address = p.address
  once : (m.proxies.map (·.address)).Nodup

/-- A lookup of the address finds such a record. -/
def Finding (key : String) (OK : ProxyDeployment ρ → Prop) (m : ManifestData ρ) : Prop :=
  ∃ p, storedRecordFor m.proxies key = some p ∧ OK p

/-- The address is recorded as `OK` says, and the engine's own updates leave
the proxies. -/
def SessionOp.Tame (codec : AddressCodec) (key : String) (OK : ProxyDeployment ρ → Prop) :
    SessionOp ρ → Prop
  | .addProxyRecord _ rest address kind =>
    canonicalizeAddress codec address = .ok key → OK ⟨key, kind, rest⟩
  | .throughLock _ update => ∀ m m', update m = .ok m' → m'.proxies = m.proxies
  | _ => True

theorem settled_canonical (correct : CorrectCodec codec) {address : String}
    (h : canonicalizeAddress codec address = .ok key) : settled codec key = key := by
  rw [settled, (one_identity correct).nonThrowing,
    (one_identity correct).idempotent _ _ h]
  rfl

theorem Settled.migrated (h : Settled codec m) :
    (canonicalizeStoredAddresses codec m).data.proxies = m.proxies := by
  have hid : ∀ p ∈ m.proxies, { p with address := settled codec p.address } = p := by
    intro p hp
    rw [h.canonical p hp]
  rw [canonicalizeStoredAddresses_eq]
  exact (List.map_congr_left hid).trans (List.map_id' _)

theorem storedRecordFor_withProxy {other : ProxyDeployment ρ} (hne : other.address ≠ key) :
    storedRecordFor (RecordSession.withProxy other m).proxies key =
      storedRecordFor m.proxies key := by
  have hother : (other.address == key) = false := by simpa using hne
  have hfilter : ∀ p : ProxyDeployment ρ,
      decide ((p.address != other.address) = true ∧ (p.address == key) = true) =
        (p.address == key) := by
    intro p
    by_cases hp : p.address = key
    · simp [hp, Ne.symm hne]
    · simp [hp]
  simp only [storedRecordFor, RecordSession.withProxy, List.find?_append, List.find?_filter,
    hfilter, List.find?_singleton, hother, Bool.false_eq_true, if_false, Option.or_none]

theorem storedRecordFor_withProxy_self {kind : ProxyKind} {rest : ρ} :
    storedRecordFor (RecordSession.withProxy ⟨key, kind, rest⟩ m).proxies key =
      some ⟨key, kind, rest⟩ := by
  have hnone : (m.proxies.filter (·.address != key)).find? (·.address == key) = none := by
    simp only [List.find?_eq_none, List.mem_filter]
    rintro p ⟨-, hp⟩
    simpa using hp
  simp [storedRecordFor, RecordSession.withProxy, List.find?_append, hnone]

theorem Settled.of_proxies (h : Settled codec m) (hsame : m'.proxies = m.proxies) :
    Settled codec m' :=
  ⟨hsame ▸ h.canonical, hsame ▸ h.once⟩

theorem Finding.of_proxies (h : Finding key OK m) (hsame : m'.proxies = m.proxies) :
    Finding key OK m' := by
  obtain ⟨p, hp, hOK⟩ := h
  refine ⟨p, ?_, hOK⟩
  rw [hsame]
  exact hp

theorem Settled.withProxy {proxy : ProxyDeployment ρ} (h : Settled codec m)
    (hproxy : settled codec proxy.address = proxy.address) :
    Settled codec (RecordSession.withProxy proxy m) where
  canonical := by
    intro p hp
    rcases List.mem_append.mp hp with hp | hp
    · exact h.canonical p (List.mem_of_mem_filter hp)
    · obtain rfl := List.mem_singleton.mp hp
      exact hproxy
  once := by
    have hold : ((m.proxies.filter (·.address != proxy.address)).map (·.address)).Nodup :=
      h.once.sublist (List.filter_sublist.map _)
    simp only [RecordSession.withProxy, List.map_append, List.map_cons, List.map_nil]
    refine List.nodup_append.mpr ⟨hold, List.nodup_singleton _, ?_⟩
    intro a ha b hb
    obtain ⟨p, hp, rfl⟩ := List.mem_map.mp ha
    obtain rfl := List.mem_singleton.mp hb
    simpa using (List.mem_filter.mp hp).2

/-- What the calls of the others rely on. -/
def StaysFound (codec : AddressCodec) (key : String) (OK : ProxyDeployment ρ → Prop)
    (m m' : ManifestData ρ) : Prop :=
  Settled codec m → Settled codec m' ∧ (Finding key OK m → Finding key OK m')

theorem SessionStep.staysFound (correct : CorrectCodec deps.codec) {op : SessionOp ρ}
    {r : Except Failure op.Reply} (h : SessionStep deps m op r m')
    (tame : op.Tame deps.codec key OK) : StaysFound deps.codec key OK m m' := by
  intro hm
  cases h with
  | migrated => exact ⟨hm.of_proxies hm.migrated, fun h => h.of_proxies hm.migrated⟩
  | @added _ rest address kind key' _ hkey =>
    refine ⟨hm.withProxy (settled_canonical correct hkey), ?_⟩
    rintro ⟨p, hp, hOK⟩
    by_cases hsame : key' = key
    · subst hsame
      exact ⟨_, storedRecordFor_withProxy_self, tame hkey⟩
    · refine ⟨p, ?_, hOK⟩
      rw [storedRecordFor_withProxy hsame]
      exact hp
  | updated hupdate =>
    have hsame := tame _ _ hupdate
    exact ⟨hm.of_proxies hsame, fun h => h.of_proxies hsame⟩
  | _ => exact ⟨hm, id⟩

end

/-- A proxy recorded, whatever the process does next, and the record looked up. -/
def recordThenFind (session : RecordSession) (rest : ρ) (address : String) (kind : ProxyKind)
    (meanwhile : SessionTask ρ Unit) (session' : RecordSession) (address' : String) :
    SessionTask ρ (Option (ProxyDeployment ρ)) := do
  Script.perform (S := sessionEffects ρ) (.addProxyRecord session rest address kind)
  let _ ← meanwhile.attempt
  Script.perform (S := sessionEffects ρ) (.getProxyRecord session' address')

section
variable {key : String} {OK : ProxyDeployment ρ → Prop} {deps : RecordDeps}

abbrev TameWorld (deps : RecordDeps) (key : String) (OK : ProxyDeployment ρ → Prop) {β : Type}
    (x : SessionTask ρ β) (Q : Except Failure β → ManifestData ρ → Prop) (m : ManifestData ρ) :
    Prop :=
  wp ((sessionWorld deps).interfered (StaysFound deps.codec key OK))
    (stably (StaysFound deps.codec key OK) fun _ op => op.Tame deps.codec key OK) x Q m

theorem StaysFound.trans {codec : AddressCodec} {a b c : ManifestData ρ}
    (hab : StaysFound codec key OK a b) (hbc : StaysFound codec key OK b c) :
    StaysFound codec key OK a c := by
  intro ha
  obtain ⟨hb, hfound⟩ := hab ha
  obtain ⟨hc, hfound'⟩ := hbc hb
  exact ⟨hc, hfound' ∘ hfound⟩

theorem tame_moves (correct : CorrectCodec deps.codec) :
    Moves ((sessionWorld deps).interfered (StaysFound deps.codec key OK))
      (stably (StaysFound deps.codec key OK) fun _ op => SessionOp.Tame deps.codec key OK op)
      (SessionOp.Tame deps.codec key OK) (StaysFound deps.codec key OK) where
  refl _ hm := ⟨hm, id⟩
  trans _ _ _ := StaysFound.trans
  guard _ _ hop _ _ := hop
  step := by
    rintro m op r m' hop ⟨t, hmt, hstep⟩
    exact hmt.trans (SessionStep.staysFound correct hstep hop)

theorem recordThenFind_finds (correct : CorrectCodec deps.codec) {session session' : RecordSession}
    {rest : ρ} {address address' : String} {kind : ProxyKind} {meanwhile : SessionTask ρ Unit}
    (haddress : canonicalizeAddress deps.codec address = .ok key)
    (haddress' : canonicalizeAddress deps.codec address' = .ok key) (hOK : OK ⟨key, kind, rest⟩)
    (hmeanwhile : meanwhile.Asks (SessionOp.Tame deps.codec key OK)) {m : ManifestData ρ}
    (hm : Settled deps.codec m) :
    TameWorld deps key OK (recordThenFind session rest address kind meanwhile session' address')
      (fun o m => ∀ v, o = .ok v → Settled deps.codec m ∧ Finding key OK m ∧
        ∃ p, v = some p ∧ p.address = key ∧ OK p) m := by
  refine wp.perform_bind (fun _ _ _ => hOK) ?_ fun e t _ v hv => by cases hv
  rintro ⟨⟩ t ⟨u, hmu, hstep⟩
  have ht := (SessionStep.staysFound correct hstep (fun _ => hOK) (hmu hm).1).1
  have hfound : Finding key OK t := by
    cases hstep with
    | added hkey =>
      cases hkey.symm.trans haddress
      exact ⟨_, storedRecordFor_withProxy_self, hOK⟩
  refine wp.attempt_bind (J := fun t => Settled deps.codec t ∧ Finding key OK t) ?_ ?_
  · refine wp_mono ?_ ((tame_moves correct).along hmeanwhile t)
    exact fun _ t' hstays => ⟨(hstays ht).1, (hstays ht).2 hfound⟩
  · rintro _ t ⟨ht, hfound⟩
    refine wp_perform.mpr ⟨fun _ _ => trivial, ?_⟩
    rintro r t' ⟨u, htu, hstep⟩ v hv
    obtain ⟨hu, hkept⟩ := htu ht
    subst hv
    cases hstep with
    | proxyRecord hkey =>
      cases hkey.symm.trans haddress'
      obtain ⟨p, hp, hOK⟩ := hkept hfound
      have haddress : p.address = key := by
        simpa using List.find?_some hp
      exact ⟨hu, ⟨p, hp, hOK⟩, p, hp, haddress, hOK⟩

end

/-- A proxy is recorded by one of the processes that share a record, under any
spelling of its address. Whatever that process and the others do, the record
keeps it, and its next lookup under any spelling finds it: as it was recorded,
or as some other recording of the run has the same address. -/
theorem recorded_stays [DecidableEq ι] [Finite ι] (codec : AddressCodec)
    (correct : CorrectCodec codec) (node : ι → Chain.ChainInstanceIdentity) (deps : ι → RecordDeps)
    (hcodec : ∀ pid, (deps pid).codec = codec) (key : String) (OK : ProxyDeployment ρ → Prop)
    (pid : ι) (session session' : RecordSession) (rest : ρ) (address address' : String)
    (kind : ProxyKind) (meanwhile : SessionTask ρ Unit)
    (haddress : canonicalizeAddress codec address = .ok key)
    (haddress' : canonicalizeAddress codec address' = .ok key) (hOK : OK ⟨key, kind, rest⟩)
    (hmeanwhile : meanwhile.Asks (SessionOp.Tame codec key OK))
    (clients : ι → SessionTask ρ (Option (ProxyDeployment ρ)))
    (hpid : clients pid = recordThenFind session rest address kind meanwhile session' address')
    (hothers : ∀ other, other ≠ pid → (clients other).Asks (SessionOp.Tame codec key OK))
    (d d' : Disk ρ ι) (hd : Settled codec d.data)
    (ys : ι → RecordTask ρ (Option (ProxyDeployment ρ)))
    (run : Pool.Reaches (fun pid => diskWorld pid (node pid))
      (fun pid => (clients pid).implemented (SessionOp.carriedOut (deps pid)), d) (ys, d'))
    (v : Option (ProxyDeployment ρ)) (hv : ys pid = .pure v) :
    Finding key OK d'.data ∧ ∃ p, v = some p ∧ p.address = key ∧ OK p := by
  obtain ⟨xs, hrun, houtcome⟩ := sessions_atomic node deps clients d d' ys run
  have hx : xs pid = .pure v := houtcome pid (.ok v) hv
  have hinv := Pool.invariant (W := fun pid => sessionWorld (deps pid)) (I := Settled codec)
    (G := fun _ _ op => op.Tame codec key OK)
    (Q := fun other o m => other = pid → ∀ v, o = .ok v → Settled codec m ∧ Finding key OK m ∧
        ∃ p, v = some p ∧ p.address = key ∧ OK p)
    (fun _ => StaysFound codec key OK) (fun _ _ hm => ⟨hm, id⟩) (fun _ _ _ _ => StaysFound.trans)
    ?_ ?_ hd ?_ hrun
  · have h := hinv.2 pid
    dsimp only at h
    rw [hx] at h
    exact (h rfl v rfl).2
  · rintro other o a b hab h hother w hw
    obtain ⟨ha, hfound, hp⟩ := h hother w hw
    exact ⟨(hab ha).1, (hab ha).2 hfound, hp⟩
  · intro other m op r m' hm hop hstep
    obtain rfl := hcodec other
    have hstays := SessionStep.staysFound correct hstep hop
    exact ⟨(hstays hm).1, fun _ _ => hstays⟩
  · intro other
    obtain rfl := hcodec other
    by_cases hother : other = pid
    · subst hother
      simp only [hpid]
      refine wp_mono (fun _ _ h _ => h) ?_
      exact recordThenFind_finds correct haddress haddress' hOK hmeanwhile hd
    · have h := (tame_moves correct).along (hothers other hother) d.data
      exact wp_mono (fun _ _ _ hpid => absurd hpid hother) h

-- Two processes, one recording a proxy by its TRON form and looking it up by
-- its EVM form, the other recording another proxy in between.

def sharedDeps : RecordDeps := { sampleDeps with codec := base58CheckCodec zeroChecksum }

def sharedSession : RecordSession where
  manifestFile := "/project/.openzeppelin/unknown-1.json"
  fingerprintFile := "/project/.openzeppelin/unknown-1.tron.json"
  identity := nodeA
  report := ⟨"0x1", .same, 0, 0, []⟩

def sharedKey : String := "0x1111111111111111111111111111111111111111"

def sharedClients : Bool → SessionTask Unit (Option (ProxyDeployment Unit))
  | false => recordThenFind sharedSession () "411111111111111111111111111111111111111111" .uups
      (.pure ()) sharedSession sharedKey
  | true => recordThenFind sharedSession () "0x2222222222222222222222222222222222222222" .transparent
      (.pure ()) sharedSession sharedKey

def sharedPool : (Bool → RecordTask Unit (Option (ProxyDeployment Unit))) × Disk Unit Bool :=
  Pool.schedule (fun pid => diskAnswer pid nodeA) [(false, 4), (true, 4), (false, 1)]
    (fun pid => (sharedClients pid).implemented (SessionOp.carriedOut sharedDeps),
      ⟨none, none, none⟩)

theorem sharedPool_reached : Pool.Reaches (fun pid => diskWorld pid nodeA)
    (fun pid => (sharedClients pid).implemented (SessionOp.carriedOut sharedDeps),
      ⟨none, none, none⟩) sharedPool :=
  Pool.reaches_schedule (fun pid => diskAnswer_allowed pid nodeA) _ _

theorem sessions_atomic_shared : ∃ xs,
    Pool.Reaches (fun _ => sessionWorld sharedDeps) (sharedClients, .empty)
      (xs, sharedPool.2.data) ∧
      ∀ pid o, sharedPool.1 pid = .ofExcept o → xs pid = .ofExcept o :=
  sessions_atomic (fun _ => nodeA) (fun _ => sharedDeps) sharedClients ⟨none, none, none⟩
    sharedPool.2 sharedPool.1 sharedPool_reached

def sharedFound : ProxyDeployment Unit := ⟨sharedKey, .uups, ()⟩

theorem recorded_stays_shared : Finding sharedKey (fun p => p.kind = .uups) sharedPool.2.data ∧
    ∃ p, some sharedFound = some p ∧ p.address = sharedKey ∧ p.kind = .uups := by
  have outcome : sharedPool.1 false = .pure (some sharedFound) := by rfl
  refine recorded_stays (base58CheckCodec zeroChecksum) base58CheckCodec_correct (fun _ => nodeA)
    (fun _ => sharedDeps) (fun _ => rfl) sharedKey (fun p => p.kind = .uups) false sharedSession
    sharedSession () "411111111111111111111111111111111111111111" sharedKey .uups (.pure ())
    rfl rfl rfl trivial sharedClients rfl ?_ ⟨none, none, none⟩ sharedPool.2 ?_
    sharedPool.1 sharedPool_reached _ outcome
  · rintro (_ | _) hother
    · exact absurd rfl hother
    · refine .bind (.perform ?_) fun _ => .bind trivial fun _ => .perform trivial
      intro h
      have hkey : canonicalizeAddress (base58CheckCodec zeroChecksum)
          "0x2222222222222222222222222222222222222222" =
            .ok "0x2222222222222222222222222222222222222222" := rfl
      exact absurd (Except.ok.inj (hkey.symm.trans h)) (by decide)
  · refine ⟨?_, List.nodup_nil⟩
    rintro p hp
    cases hp

end TronUpgrades.Record
