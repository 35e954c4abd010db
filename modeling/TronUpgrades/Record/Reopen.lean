import TronUpgrades.Record.Migration
import TronUpgrades.Record.Verdict

/-!
# Opening a record, and opening it again

With nobody else writing: a session that is refused has written nothing, and
one that was opened leaves files that the next one has nothing to do about.
-/

namespace TronUpgrades.Record

open Effects Chain Address

variable {ρ ι : Type}

/-- The refusals that promise nothing was written. -/
def recordRefusal : Failure → Bool
  | .chainInstanceChanged .. | .recordFingerprintUnreadable .. | .recordUnreadable ..
  | .recordLocked .. => true
  | _ => false

/-- Contention is met where the lock is taken: for itself, or by a read of the
manifest. The refusals are the session's own to make. -/
def RecordOp.rejects (op : RecordOp ρ) (e : Failure) : Prop :=
  recordRefusal e = false ∧
    (e.isLockContention = true → (∃ file, op = .lock file) ∨ ∃ file, op = .readManifest file)

/-- The disk of one process, where nobody else writes. -/
def soleWorld (pid : ι) (i : ChainInstanceIdentity) :
    World (recordEffects ρ) Failure (Disk ρ ι) where
  step d op r d' := DiskStep pid i d op r d' ∧ ∀ e, r = .error e → op.rejects e

/-- The two files are what they were; the lock may have changed hands. -/
structure SameFiles (d d' : Disk ρ ι) : Prop where
  manifest : d'.manifest = d.manifest
  fingerprint : d'.fingerprint = d.fingerprint

/-- The fingerprint on disk says `i`, and no stored address is left to migrate. -/
structure Disk.Settled (codec : AddressCodec) (i : ChainInstanceIdentity) (d : Disk ρ ι) : Prop where
  same : ∃ r, readFingerprint d.fingerprint = .record r ∧
    compareChainInstance (some r) i.toChainInstance = .same
  migrated : (canonicalizeStoredAddresses codec d.data).rewritten = 0

section
variable {codec : AddressCodec} {pid : ι} {i : ChainInstanceIdentity} {d d' : Disk ρ ι}
  {deps : RecordDeps} {files : RecordFiles}

theorem SameFiles.data (h : SameFiles d d') : d'.data = d.data := by
  unfold Disk.data
  rw [h.manifest]

theorem SameFiles.settled (h : SameFiles d d') (hd : d.Settled codec i) : d'.Settled codec i := by
  obtain ⟨same, migrated⟩ := hd
  rw [← h.fingerprint] at same
  rw [← h.data] at migrated
  exact ⟨same, migrated⟩

theorem readFingerprint_own (i : ChainInstanceIdentity) :
    ∃ r, readFingerprint (ownFingerprint i) = .record r ∧
      compareChainInstance (some r) i.toChainInstance = .same :=
  ⟨i.recorded, readFingerprint_fingerprintFor i, (decides_recorded i i).same.mpr rfl⟩

-- ---------------------------------------------------------------------------
-- Parts that only read
-- ---------------------------------------------------------------------------

/-- Nothing is asked for but what leaves the disk and its lock alone. -/
abbrev readsOnly (_ : Disk ρ ι) (op : RecordOp ρ) : Prop := op.quiet = true

theorem quiet_moves : Moves (soleWorld pid i) (readsOnly (ρ := ρ))
    (fun op => RecordOp.quiet op = true) fun d d' : Disk ρ ι => d' = d where
  refl _ := rfl
  trans _ _ _ hab hbc := hbc.trans hab
  guard _ _ h := h
  step _ _ _ _ hq hs := hs.1.eq_of_quiet hq

/-- A part that only reads, and throws none of the refusals. -/
structure Unrefusing (pid : ι) (i : ChainInstanceIdentity) (x : RecordTask ρ α) : Prop where
  unrefusing : ∀ d, wp (soleWorld pid i) readsOnly x
    (fun o t => t = d ∧ ∀ e, o = .error e → recordRefusal e = false) d

theorem ask_unrefusing {op : RecordOp ρ} (hq : op.quiet = true) :
    Unrefusing pid i (ask op) where
  unrefusing d := by
    refine wp_perform.mpr ⟨hq, ?_⟩
    rintro r t ⟨hstep, hrejects⟩
    exact ⟨hstep.eq_of_quiet hq, fun e he => (hrejects e he).1⟩

theorem Unrefusing.bind {β : Type} {x : RecordTask ρ α} {f : α → RecordTask ρ β}
    (hx : Unrefusing pid i x) (hf : ∀ a, Unrefusing pid i (f a)) :
    Unrefusing pid i (x.bind f) where
  unrefusing d := by
    apply wp.bind (hx.unrefusing d)
    · rintro a t ⟨rfl, -⟩
      exact (hf a).unrefusing t
    · rintro e t ⟨rfl, he⟩
      exact ⟨rfl, fun e' h => by cases h; exact he e rfl⟩

theorem pure_unrefusing (a : α) : Unrefusing pid i (.pure a : RecordTask ρ α) where
  unrefusing _ := ⟨rfl, nofun⟩

theorem canonicalizeAddress_unrefusing (codec : AddressCodec) (input : String) :
    Unrefusing pid i (.ofExcept (canonicalizeAddress codec input) : RecordTask ρ String) where
  unrefusing d := by
    unfold canonicalizeAddress
    cases mintFrom codec input with
    | ok a => exact ⟨rfl, nofun⟩
    | error because => exact ⟨rfl, fun e h => by cases h; rfl⟩

theorem verdictsFor_unrefusing (codec : AddressCodec) (stored : List (ProxyDeployment ρ))
    (named : List NamedAddress) : Unrefusing pid i (verdictsFor codec stored named) := by
  induction named with
  | nil => exact pure_unrefusing _
  | cons entry named ih =>
    refine .bind (canonicalizeAddress_unrefusing codec _) fun address => ?_
    refine .bind (ask_unrefusing rfl) fun code => ?_
    exact .bind ih fun rest => pure_unrefusing _

theorem reconcileProxies_unrefusing (codec : AddressCodec) (addressLe : String → String → Bool)
    (named : List NamedAddress) (stored : List (ProxyDeployment ρ)) :
    Unrefusing pid i (reconcileProxies codec addressLe named stored) :=
  .bind (verdictsFor_unrefusing codec stored named) fun _ => pure_unrefusing _

-- ---------------------------------------------------------------------------
-- The lock section
-- ---------------------------------------------------------------------------

/-- What step 6 leaves: nothing where it is refused or kept out, else the
fingerprint it was to write and addresses that are canonical. -/
structure Arms (codec : AddressCodec) (i : ChainInstanceIdentity) (needs : Bool) (d : Disk ρ ι)
    (o : Except Failure α) (t : Disk ρ ι) : Prop where
  refused : ∀ e, o = .error e → recordRefusal e = true ∨ e.isLockContention = true → SameFiles d t
  armed : ∀ a, o = .ok a →
    t.fingerprint = (if needs then ownFingerprint i else d.fingerprint) ∧
      (canonicalizeStoredAddresses codec t.data).rewritten = 0

theorem Arms.untouched {needs : Bool} {e : Failure} (h : SameFiles d d') :
    Arms (α := α) codec i needs d (.error e) d' :=
  ⟨fun _ _ _ => h, nofun⟩

/-- A failure of a write is neither a refusal nor contention. -/
theorem Arms.failed {needs : Bool} {op : RecordOp ρ} {e : Failure} (h : op.rejects e)
    (hlock : ∀ file, op ≠ .lock file) (hread : ∀ file, op ≠ .readManifest file) :
    Arms (α := α) codec i needs d (.error e) d' := by
  refine ⟨fun e' he hrefusal => ?_, nofun⟩
  cases he
  rcases hrefusal with hrefusal | hcontention
  · rw [h.1] at hrefusal
    cases hrefusal
  · rcases h.2 hcontention with ⟨file, rfl⟩ | ⟨file, rfl⟩
    · exact absurd rfl (hlock file)
    · exact absurd rfl (hread file)

theorem armAndMigrate_arms (correct : CorrectCodec deps.codec) (changed : Option ChainInstanceChange)
    (needs : Bool) (hfiles : files.identity = i) :
    wp (soleWorld pid i) (fun _ _ => True) (armAndMigrate deps files changed needs)
      (Arms deps.codec i needs d) d := by
  subst hfiles
  refine wp.perform_bind trivial ?_ ?_
  · rintro data s ⟨hstep, -⟩
    cases hstep with
    | readManifest _ =>
      have migrated := congrArg StoredAddressMigration.rewritten (migration_idempotent correct d.data)
      generalize hlocked : canonicalizeStoredAddresses deps.codec d.data = locked at migrated
      refine wp.ofExcept_bind ?_ fun e _ => .untouched ⟨rfl, rfl⟩
      rintro ⟨⟩ -
      refine wp.bind (R := fun o t => t.manifest = d.manifest ∧
        (∀ e, o = .error e → (RecordOp.writeFingerprintFile (ρ := ρ) files.fingerprintFile
          (fingerprintFor files.identity)).rejects e) ∧
        (o = .ok () → t.fingerprint =
          if needs then ownFingerprint files.identity else d.fingerprint)) (wp.when ?_ ?_) ?_ ?_
      · intro hneeds
        have hp := fingerprintFor_persistable files.identity
        simp only [writeFingerprint, hp, hneeds, Bool.not_true, Bool.false_eq_true, ↓reduceIte]
        refine wp_perform.mpr ⟨trivial, ?_⟩
        rintro r s ⟨hstep, hrejects⟩
        cases hstep with
        | rejected => exact ⟨rfl, fun e he => hrejects e he, by rintro ⟨⟩⟩
        | writeFingerprintFile => exact ⟨rfl, by rintro _ ⟨⟩, fun _ => rfl⟩
      · intro hneeds
        exact ⟨rfl, by rintro _ ⟨⟩, fun _ => by rw [if_neg hneeds]⟩
      · rintro ⟨⟩ t ⟨hmanifest, -, hfingerprint⟩
        have hdata : t.data = d.data := by
          unfold Disk.data
          rw [hmanifest]
        refine wp.bind (R := fun o u => (∀ e, o = .error e → (RecordOp.writeManifest (ρ := ρ)
          files.manifestFile locked.data).rejects e) ∧ (o = .ok () → u.fingerprint = t.fingerprint ∧
          (canonicalizeStoredAddresses deps.codec u.data).rewritten = 0)) (wp.when ?_ ?_) ?_ ?_
        · intro _
          refine wp_perform.mpr ⟨trivial, ?_⟩
          rintro r s ⟨hstep, hrejects⟩
          cases hstep with
          | rejected => exact ⟨fun e he => hrejects e he, by rintro ⟨⟩⟩
          | writeManifest => exact ⟨by rintro _ ⟨⟩, fun _ => ⟨rfl, migrated⟩⟩
        · intro hnone
          refine ⟨by rintro _ ⟨⟩, fun _ => ⟨rfl, ?_⟩⟩
          rw [hdata, hlocked]
          exact Nat.eq_zero_of_not_pos hnone
        · rintro ⟨⟩ u ⟨-, hdone⟩
          obtain ⟨hsame, hzero⟩ := hdone rfl
          exact ⟨by rintro _ ⟨⟩, fun _ _ => ⟨hsame.trans (hfingerprint rfl), hzero⟩⟩
        · rintro e u ⟨hfailed, -⟩
          exact .failed (hfailed e rfl) (by rintro _ ⟨⟩) (by rintro _ ⟨⟩)
      · rintro e t ⟨-, hfailed, -⟩
        exact .failed (hfailed e rfl) (by rintro _ ⟨⟩) (by rintro _ ⟨⟩)
  · rintro e s ⟨hstep, -⟩
    rw [hstep.error_eq]
    exact .untouched ⟨rfl, rfl⟩

/-- The same from outside the lock. -/
theorem lockedArm_arms (correct : CorrectCodec deps.codec) (changed : Option ChainInstanceChange)
    (needs : Bool) (hfiles : files.identity = i) (d : Disk ρ ι) :
    wp (soleWorld pid i) (fun _ _ => True) (throughRecordLock files.manifestFile
      (lockedRun files.manifestFile (armAndMigrate deps files changed needs)))
      (fun o t => (∀ e, o = .error e → recordRefusal e = true → SameFiles d t) ∧ ∀ a, o = .ok a →
        t.fingerprint = (if needs then ownFingerprint i else d.fingerprint) ∧
          (canonicalizeStoredAddresses deps.codec t.data).rewritten = 0) d := by
  have locked : wp (soleWorld pid i) (fun _ _ => True)
      (lockedRun files.manifestFile (armAndMigrate deps files changed needs))
      (Arms deps.codec i needs d) d := by
    refine wp.perform_bind trivial ?_ ?_
    · rintro a s ⟨hstep, -⟩
      cases hstep with
      | lock _ =>
        refine wp.bind (R := fun o t => ∃ o', o = .ok o' ∧ Arms deps.codec i needs d o' t)
          (wp_attempt.mpr (wp_mono ?_ (armAndMigrate_arms correct changed needs hfiles))) ?_ nofun
        · intro o t h
          refine ⟨o, rfl, ?_, h.armed⟩
          intro e he hrefusal
          obtain ⟨hmanifest, hfingerprint⟩ := h.refused e he hrefusal
          exact ⟨hmanifest, hfingerprint⟩
        · rintro _ t ⟨o, ⟨⟩, h⟩
          refine wp.perform_bind trivial ?_ ?_
          · rintro _ u ⟨hstep, -⟩
            cases hstep
            rw [wp_ofExcept]
            refine ⟨?_, h.armed⟩
            intro e he hrefusal
            obtain ⟨hmanifest, hfingerprint⟩ := h.refused e he hrefusal
            exact ⟨hmanifest, hfingerprint⟩
          · rintro e u ⟨-, hrejects⟩
            exact .failed (hrejects e rfl) nofun nofun
    · rintro e s ⟨hstep, -⟩
      rw [hstep.error_eq]
      exact .untouched ⟨rfl, rfl⟩
  refine wp.catching locked ?_ ?_
  · exact fun a t h => ⟨nofun, h.armed⟩
  · intro e t h
    split
    next hcontention =>
      exact ⟨fun _ _ _ => h.refused e rfl (.inr hcontention), nofun⟩
    next => exact ⟨fun e' he hrefusal => h.refused e' he (.inl hrefusal), nofun⟩

-- ---------------------------------------------------------------------------
-- The session
-- ---------------------------------------------------------------------------

theorem Unrefusing.ofExcept {r : Except Failure α} (hr : ∀ e, r = .error e → recordRefusal e = false) :
    Unrefusing pid i (.ofExcept r : RecordTask ρ α) where
  unrefusing _ := wp_ofExcept.mpr ⟨rfl, hr⟩

theorem configureRecordLocation_unrefusing (path : PathModule) (root : String) :
    Unrefusing pid i (configureRecordLocation path root : RecordTask ρ _) := by
  have anchored : Unrefusing pid i (do
      if !path.isAbsolute (path.join root manifestDefaultDir) then
        throw (.recordLocationUnusable .anchorNotAbsolute (path.join root manifestDefaultDir)
          (path.join root manifestDefaultDir) none)
      ask (.setManifestDir (path.join root manifestDefaultDir))
      return (⟨path.join root manifestDefaultDir⟩ : RecordLocation) : RecordTask ρ _) := by
    split
    · exact ⟨fun _ => ⟨rfl, fun e h => by cases h; rfl⟩⟩
    · exact .bind (ask_unrefusing rfl) fun _ => pure_unrefusing _
  refine .bind (ask_unrefusing rfl) fun configured => ?_
  cases configured with
  | none => exact anchored
  | some value =>
    simp only
    split
    · split
      · exact ⟨fun _ => ⟨rfl, fun e h => by cases h; rfl⟩⟩
      · exact pure_unrefusing _
    · exact anchored

theorem openRecordManifest_unrefusing (chainIdHex : String) :
    Unrefusing pid i (openRecordManifest chainIdHex : RecordTask ρ _) := by
  refine .bind (.ofExcept fun e he => ?_) fun _ => ask_unrefusing rfl
  unfold requireChainId at he
  split at he <;> cases he
  rfl

theorem assertRecordLocation_unrefusing (path : PathModule) (location : RecordLocation)
    (manifestFile : String) :
    Unrefusing pid i (.ofExcept (assertRecordLocation path location manifestFile) :
      RecordTask ρ _) := by
  refine .ofExcept fun e he => ?_
  unfold assertRecordLocation at he
  simp only [bind, Except.bind, pure, Except.pure] at he
  split at he
  · cases he
    rfl
  · split at he
    · cases he
      rfl
    · cases he

theorem readFingerprintAt_reads (file : String) (d : Disk ρ ι) :
    wp (soleWorld pid i) readsOnly (readFingerprintAt file) (fun o t => t = d ∧
      (∀ read, o = .ok read → read = readFingerprint d.fingerprint) ∧
      ∀ e, o = .error e → recordRefusal e = false) d := by
  refine wp.perform_bind rfl ?_ ?_
  · rintro content t ⟨hstep, -⟩
    cases hstep
    exact ⟨rfl, fun read h => by cases h; rfl, nofun⟩
  · rintro e t ⟨hstep, hrejects⟩
    exact ⟨hstep.error_eq, nofun, fun e' h => by cases h; exact (hrejects e rfl).1⟩

/-- Only a file that cannot be used is refused. -/
theorem usableFingerprint_reads (read : FingerprintRead) (d : Disk ρ ι) :
    wp (soleWorld pid i) readsOnly (usableFingerprint files read) (fun o t => t = d ∧
      (∀ recorded, o = .ok recorded → read = recorded.elim .absent .record) ∧
      ∀ e, o = .error e → ∃ because, read = .unreadable because) d := by
  cases read with
  | absent => exact ⟨rfl, fun _ h => by cases h; rfl, nofun⟩
  | record record => exact ⟨rfl, fun _ h => by cases h; rfl, nofun⟩
  | unreadable because =>
    apply wp.bind (quiet_moves.along (diagnoseFingerprintRefusal_still _).quiet d)
    · rintro _ t rfl
      exact ⟨rfl, nofun, fun _ _ => ⟨because, rfl⟩⟩
    · rintro e t rfl
      exact ⟨rfl, nofun, fun _ _ => ⟨because, rfl⟩⟩

/-- Steps 1 to 4 read; from step 5 on the verdict on the fingerprint decides. -/
theorem openRecord_wp {G : Disk ρ ι → RecordOp ρ → Prop}
    {Q : Except Failure RecordSession → Disk ρ ι → Prop} (hG : ∀ d op, readsOnly d op → G d op)
    (refused : ∀ e, (recordRefusal e = true →
      ∃ because, readFingerprint d.fingerprint = .unreadable because) → Q (.error e) d)
    (settle : ∀ (files : RecordFiles) recorded, files.identity = i →
      readFingerprint d.fingerprint = recorded.elim .absent .record →
      wp (soleWorld pid i) G ((settleInstance deps files (readFingerprint d.fingerprint)
        (compareChainInstance recorded i.toChainInstance)).bind fun settled =>
          (reconcileProxies deps.codec deps.addressLe deps.addresses settled.1.data.proxies).bind
            fun verdicts => .pure ⟨files, i.chainId, settled.2.2, settled.2.1,
              settled.1.unmigratable, verdicts⟩) Q d) :
    wp (soleWorld pid i) G (openRecord deps) Q d := by
  have reading {α β : Type} {x : RecordTask ρ α} {f : α → RecordTask ρ β}
      {Q : Except Failure β → Disk ρ ι → Prop} (hx : Unrefusing pid i x)
      (refused : ∀ e, recordRefusal e = false → Q (.error e) d)
      (next : ∀ a, wp (soleWorld pid i) G (f a) Q d) : wp (soleWorld pid i) G (x.bind f) Q d := by
    apply wp.bind (wp_guard_mono hG (hx.unrefusing d))
    · rintro a t ⟨rfl, -⟩
      exact next a
    · rintro e t ⟨rfl, he⟩
      exact refused e (he e rfl)
  have refused' : ∀ e, recordRefusal e = false → Q (.error e) d := fun e he =>
    refused e fun h => absurd (he.symm.trans h) nofun
  unfold openRecord
  refine reading (configureRecordLocation_unrefusing _ _) refused' fun location => ?_
  refine wp.perform_bind (hG _ _ rfl) ?_ ?_
  · rintro identity t ⟨hstep, -⟩
    cases hstep with
    | identity =>
      refine reading (openRecordManifest_unrefusing _) refused' fun manifest => ?_
      refine reading (assertRecordLocation_unrefusing _ _ _) refused' fun manifestFile => ?_
      apply wp.bind (wp_guard_mono hG (readFingerprintAt_reads _ d))
      · rintro read t ⟨rfl, hread, -⟩
        obtain rfl := hread read rfl
        apply wp.bind (wp_guard_mono hG (usableFingerprint_reads _ t))
        · rintro recorded t ⟨rfl, hrecorded, -⟩
          exact settle _ recorded rfl (hrecorded recorded rfl)
        · rintro e t ⟨rfl, -, hunusable⟩
          exact refused e fun _ => hunusable e rfl
      · rintro e t ⟨rfl, -, he⟩
        exact refused' e (he e rfl)
  · rintro e t ⟨hstep, hrejects⟩
    rw [hstep.error_eq]
    exact refused' e (hrejects e rfl).1

/-- The unlocked read of the record, and the refusals it makes of a failure. -/
theorem readRecord_wp {G : Disk ρ ι → RecordOp ρ → Prop} {β : Type} {file : String}
    {f : ManifestData ρ → RecordTask ρ β} {Q : Except Failure β → Disk ρ ι → Prop}
    (hG : G d (.readManifest file))
    (unread : ∀ e detail because, e = .recordLocked file detail ∨
      e = .recordUnreadable file because detail → Q (.error e) d)
    (next : wp (soleWorld pid i) G (f d.data) Q d) :
    wp (soleWorld pid i) G ((throughRecordRead file (ask (.readManifest file))).bind f) Q d := by
  apply wp.bind (R := fun o t => t = d ∧ (∀ data, o = .ok data → data = d.data) ∧ ∀ e, o = .error e →
    ∃ detail because, e = .recordLocked file detail ∨ e = .recordUnreadable file because detail)
  · refine wp_catching.mpr (wp_perform.mpr ⟨hG, ?_⟩)
    rintro (e | data) t ⟨hstep, -⟩
    · obtain rfl := hstep.error_eq
      by_cases hc : e.isLockContention = true
      · simp only [if_pos hc]
        exact ⟨rfl, nofun, fun e' h => by cases h; exact ⟨_, .contentsRefused, .inl rfl⟩⟩
      · simp only [if_neg hc]
        exact ⟨rfl, nofun, fun e' h => by cases h; exact ⟨_, _, .inr rfl⟩⟩
    · cases hstep
      exact ⟨rfl, fun _ h => by cases h; rfl, nofun⟩
  · rintro data t ⟨rfl, hdata, -⟩
    rw [hdata data rfl]
    exact next
  · rintro e t ⟨rfl, -, he⟩
    obtain ⟨detail, because, he⟩ := he e rfl
    exact unread e detail because he

theorem settleInstance_settles (correct : CorrectCodec deps.codec) (hfiles : files.identity = i)
    {recorded : Option RecordedChainInstance}
    (hread : readFingerprint d.fingerprint = recorded.elim .absent .record) :
    wp (soleWorld pid i) (fun _ _ => True) (settleInstance deps files (readFingerprint d.fingerprint)
      (compareChainInstance recorded i.toChainInstance))
      (fun o t => (∀ e, o = .error e → recordRefusal e = true → SameFiles d t) ∧
        ∀ settled, o = .ok settled → t.Settled deps.codec i) d := by
  refine readRecord_wp trivial (fun _ _ _ _ => ⟨fun _ _ _ => ⟨rfl, rfl⟩, nofun⟩) ?_
  have own {t : Disk ρ ι} (h : t.fingerprint = ownFingerprint i ∧
      (canonicalizeStoredAddresses deps.codec t.data).rewritten = 0) : t.Settled deps.codec i := by
    refine ⟨?_, h.2⟩
    rw [h.1]
    exact readFingerprint_own i
  cases hcompare : compareChainInstance recorded i.toChainInstance with
  | changed change =>
    simp only
    split
    · exact ⟨fun _ _ _ => ⟨rfl, rfl⟩, nofun⟩
    · refine wp.bind (lockedArm_arms correct (some change) true hfiles d) ?_ ?_
      · rintro written t ⟨-, harmed⟩
        have disclosed : Unrefusing pid i
            (ask (.disclose "chain fingerprint re-armed") : RecordTask ρ Unit) := ask_unrefusing rfl
        refine wp.bind (wp_guard_mono (fun _ _ _ => trivial) (disclosed.unrefusing t)) ?_ ?_
        · rintro _ t ⟨rfl, -⟩
          exact ⟨nofun, fun _ _ => own (harmed written rfl)⟩
        · rintro e t ⟨-, he⟩
          refine ⟨fun e' h hrefusal => ?_, nofun⟩
          cases h
          rw [he e rfl] at hrefusal
          cases hrefusal
      · rintro e t ⟨hrefused, -⟩
        exact ⟨fun e' h => by cases h; exact hrefused e rfl, nofun⟩
  | indeterminate because =>
    refine wp.bind (lockedArm_arms correct none true hfiles d) ?_ ?_
    · rintro written t ⟨-, harmed⟩
      exact ⟨nofun, fun _ _ => own (harmed written rfl)⟩
    · rintro e t ⟨hrefused, -⟩
      exact ⟨fun e' h => by cases h; exact hrefused e rfl, nofun⟩
  | same =>
    have hsame : ∃ r, readFingerprint d.fingerprint = .record r ∧
        compareChainInstance (some r) i.toChainInstance = .same := by
      cases recorded with
      | none => cases hcompare
      | some r => exact ⟨r, hread, hcompare⟩
    simp only
    split
    · refine wp.bind (lockedArm_arms correct none false hfiles d) ?_ ?_
      · rintro written t ⟨-, harmed⟩
        obtain ⟨hfingerprint, hzero⟩ := harmed written rfl
        rw [if_neg nofun] at hfingerprint
        exact ⟨nofun, fun _ _ => ⟨by rw [hfingerprint]; exact hsame, hzero⟩⟩
      · rintro e t ⟨hrefused, -⟩
        exact ⟨fun e' h => by cases h; exact hrefused e rfl, nofun⟩
    next hnone => exact ⟨nofun, fun _ _ => ⟨hsame, Nat.eq_zero_of_not_pos hnone⟩⟩

theorem not_opened {e : Failure} {P : RecordSession → Prop} :
    ∀ session, (.error e : Except Failure RecordSession) = .ok session → P session := by
  rintro session ⟨⟩

theorem openRecord_settles (correct : CorrectCodec deps.codec) (d : Disk ρ ι) :
    wp (soleWorld pid i) (fun _ _ => True) (openRecord deps)
      (fun o t => (∀ e, o = .error e → recordRefusal e = true → SameFiles d t) ∧
        ∀ session, o = .ok session → t.Settled deps.codec i) d := by
  refine openRecord_wp (fun _ _ _ => trivial) (fun _ _ => ⟨fun _ _ _ => ⟨rfl, rfl⟩, not_opened⟩) ?_
  intro files recorded hfiles hread
  apply wp.bind (settleInstance_settles correct hfiles hread)
  · rintro settled t ⟨-, hsettled⟩
    have verdicts : Unrefusing pid i (reconcileProxies deps.codec deps.addressLe deps.addresses
        settled.1.data.proxies) := reconcileProxies_unrefusing ..
    apply wp.bind (wp_guard_mono (fun _ _ _ => trivial) (verdicts.unrefusing t))
    · rintro verdicts u ⟨rfl, -⟩
      exact ⟨nofun, fun _ _ => hsettled settled rfl⟩
    · rintro e u ⟨-, he⟩
      refine ⟨fun e' h hrefusal => ?_, not_opened⟩
      cases h
      rw [he e rfl] at hrefusal
      cases hrefusal
  · rintro e t ⟨hrefused, -⟩
    exact ⟨fun e' h => by cases h; exact hrefused e rfl, not_opened⟩

/-- What is left to a session over settled files: nothing but to say so. -/
structure Unchanged (d : Disk ρ ι) (o : Except Failure RecordSession) (t : Disk ρ ι) : Prop where
  disk : t = d
  session : ∀ session, o = .ok session →
    session.report.instanceOutcome = .same ∧ session.report.addressesMigrated = 0
  /-- Of the refusals, only those of a manifest that cannot be read just now. -/
  refused : ∀ e, o = .error e → recordRefusal e = true →
    ∃ file detail because, e = .recordLocked file detail ∨ e = .recordUnreadable file because detail

theorem openRecord_unchanged (hd : d.Settled deps.codec i) :
    wp (soleWorld pid i) readsOnly (openRecord deps) (Unchanged d) d := by
  obtain ⟨⟨r, hr, hsame⟩, hzero⟩ := hd
  refine openRecord_wp (fun _ _ h => h) (fun e he => ?_) ?_
  · refine ⟨rfl, not_opened, fun e' h hrefusal => ?_⟩
    cases h
    obtain ⟨because, hunreadable⟩ := he hrefusal
    rw [hr] at hunreadable
    cases hunreadable
  · intro files recorded _ hread
    obtain rfl : recorded = some r := by
      rw [hr] at hread
      cases recorded <;> cases hread
      rfl
    rw [hsame]
    apply wp.bind (R := fun o t => t = d ∧ (∀ settled, o = .ok settled → settled.2 = (0, .same)) ∧
      ∀ e, o = .error e → ∃ file detail because,
        e = .recordLocked file detail ∨ e = .recordUnreadable file because detail)
    · refine readRecord_wp rfl (fun e detail because he => ?_) ?_
      · exact ⟨rfl, nofun, fun e' h => by cases h; exact ⟨_, detail, because, he⟩⟩
      · simp only [hzero, Nat.lt_irrefl, ↓reduceIte]
        exact ⟨rfl, fun settled h => by cases h; rfl, nofun⟩
    · rintro ⟨migration, migrated, outcome⟩ t ⟨rfl, hsettled, -⟩
      cases hsettled _ rfl
      have verdicts : Unrefusing pid i (reconcileProxies deps.codec deps.addressLe deps.addresses
          migration.data.proxies) := reconcileProxies_unrefusing ..
      apply wp.bind (verdicts.unrefusing t)
      · rintro verdicts u ⟨rfl, -⟩
        exact ⟨rfl, fun session h => by cases h; exact ⟨rfl, rfl⟩, nofun⟩
      · rintro e u ⟨rfl, he⟩
        refine ⟨rfl, not_opened, fun e' h hrefusal => ?_⟩
        cases h
        rw [he e rfl] at hrefusal
        cases hrefusal
    · rintro e t ⟨rfl, -, he⟩
      exact ⟨rfl, not_opened, fun e' h _ => by cases h; exact he e rfl⟩

end

/-- A refused session has written nothing. After one that opened, whatever the
lock does in between, the next session only reads. -/
theorem openRecord_reopens {pid : ι} {i : ChainInstanceIdentity} {d d' : Disk ρ ι}
    {deps : RecordDeps} {o : Except Failure RecordSession} (correct : CorrectCodec deps.codec)
    (hr : Script.Reaches (soleWorld pid i) (openRecord deps, d) (.ofExcept o, d')) :
    (∀ e, o = .error e → recordRefusal e = true → SameFiles d d') ∧
      ∀ session, o = .ok session → ∀ (again : RecordDeps) (u : Disk ρ ι),
        again.codec = deps.codec → SameFiles d' u →
        (∀ op next t, Script.Reaches (soleWorld pid i) (openRecord again, u) (.call op next, t) →
          op.quiet = true) ∧
        ∀ o' t, Script.Reaches (soleWorld pid i) (openRecord again, u) (.ofExcept o', t) →
          Unchanged u o' t := by
  obtain ⟨hrefused, hopened⟩ := wp_ofExcept.mp ((openRecord_settles correct d).reaches (c := (_, d)) hr)
  refine ⟨hrefused, fun session hsession again u hcodec hsame => ?_⟩
  have hsettled := hsame.settled (hopened session hsession)
  rw [← hcodec] at hsettled
  have unchanged : wp (soleWorld pid i) readsOnly (openRecord again) (Unchanged u) u :=
    openRecord_unchanged hsettled
  refine ⟨fun op next t hr => unchanged.calls hr, fun o' t hr => ?_⟩
  exact wp_ofExcept.mp (unchanged.reaches (c := (_, u)) hr)

theorem diskAnswer_sole [DecidableEq ι] (pid : ι) (i : ChainInstanceIdentity) :
    (soleWorld pid i : World (recordEffects ρ) Failure (Disk ρ ι)).Allows (diskAnswer pid i) := by
  intro d op
  refine ⟨diskAnswer_allowed pid i d op, ?_⟩
  cases op with
  | lock file =>
    simp only [diskAnswer]
    split
    · rintro e ⟨⟩
    · rintro e ⟨⟩
      exact ⟨rfl, fun _ => .inl ⟨file, rfl⟩⟩
  | readManifest file =>
    simp only [diskAnswer]
    split
    · rintro e ⟨⟩
    · rintro e ⟨⟩
      exact ⟨rfl, fun _ => .inr ⟨file, rfl⟩⟩
  | _ => rintro e ⟨⟩

def checkedDeps : RecordDeps := { sampleDeps with codec := base58CheckCodec zeroChecksum }

/-- The files after a first session on an empty directory. -/
def firstOpened : Except Failure RecordSession × Disk ChainInstance Bool :=
  (openRecord checkedDeps).run (diskAnswer false nodeA) ⟨none, none, none⟩

/-- The same call again on those files. -/
def thenReopened : Except Failure RecordSession × Disk ChainInstance Bool :=
  (openRecord checkedDeps).run (diskAnswer false nodeA) firstOpened.2

theorem openRecord_reopens_firstOpened :
    Unchanged firstOpened.2 thenReopened.1 thenReopened.2 := by
  have correct : CorrectCodec checkedDeps.codec := base58CheckCodec_correct
  have hr : Script.Reaches (soleWorld false nodeA)
      (openRecord checkedDeps, (⟨none, none, none⟩ : Disk ChainInstance Bool))
      (.ofExcept firstOpened.1, firstOpened.2) := reaches_run (diskAnswer_sole false nodeA) _ _
  have hagain : Script.Reaches (soleWorld false nodeA)
      (openRecord checkedDeps, firstOpened.2) (.ofExcept thenReopened.1, thenReopened.2) :=
    reaches_run (diskAnswer_sole false nodeA) _ _
  have first := openRecord_reopens correct hr
  obtain ⟨session, hsession⟩ : ∃ session, firstOpened.1 = .ok session := ⟨_, rfl⟩
  exact (first.2 session hsession checkedDeps firstOpened.2 rfl ⟨rfl, rfl⟩).2 _ _ hagain

end TronUpgrades.Record
