import TronUpgrades.Effects.Watched
import TronUpgrades.Record.Session

/-!
# Sessions on a disk

One record location as a shared state (manifest, fingerprint, lock) and the
steps a process can make on it. `openRecord_does` says what a session
does to it whoever else is writing: it writes under the lock, only its own
fingerprint, and no entry that was not there; and what it decides by is what it
last read from the fingerprint file, or wrote there.
-/

namespace TronUpgrades.Record

open Effects Chain

variable {ρ ι : Type}

structure Disk (ρ ι : Type) where
  manifest : Option (ManifestData ρ)
  fingerprint : Option FileContent
  lockHolder : Option ι

namespace Disk

def data (d : Disk ρ ι) : ManifestData ρ := d.manifest.getD .empty

def payloads (d : Disk ρ ι) : List ρ := d.data.payloads

end Disk

/-- The fingerprint file of an instance. -/
def ownFingerprint (i : ChainInstanceIdentity) : Option FileContent :=
  some (.json (fingerprintFor i).toJson)

/-- What one operation of process `pid`, whose node reports `i`, may be
answered, and what it leaves on disk. Any of them may reject. -/
inductive DiskStep (pid : ι) (i : ChainInstanceIdentity) :
    Disk ρ ι → (op : RecordOp ρ) → Except Failure ((recordEffects ρ).Reply op) → Disk ρ ι → Prop
  | rejected {d op e} : DiskStep pid i d op (.error e) d
  | manifestDir {d dir} : DiskStep pid i d .manifestDir (.ok dir) d
  | setManifestDir {d dir} : DiskStep pid i d (.setManifestDir dir) (.ok ()) d
  | identity {d} : DiskStep pid i d .identity (.ok i) d
  | hasCode {d address code} : DiskStep pid i d (.hasCode address) (.ok code) d
  | constructManifest {d n file} : DiskStep pid i d (.constructManifest n) (.ok file) d
  | disclose {d title} : DiskStep pid i d (.disclose title) (.ok ()) d
  | lock {d file} : d.lockHolder = none →
      DiskStep pid i d (.lock file) (.ok ()) { d with lockHolder := some pid }
  | unlock {d file} : DiskStep pid i d (.unlock file) (.ok ()) { d with lockHolder := none }
  | readManifest {d file} : (∀ holder ∈ d.lockHolder, holder = pid) →
      DiskStep pid i d (.readManifest file) (.ok d.data) d
  | writeManifest {d file data} :
      DiskStep pid i d (.writeManifest file data) (.ok ()) { d with manifest := some data }
  | readFingerprintFile {d file} :
      DiskStep pid i d (.readFingerprintFile file) (.ok d.fingerprint) d
  | writeFingerprintFile {d file record} :
      DiskStep pid i d (.writeFingerprintFile file record) (.ok ())
        { d with fingerprint := some (.json record.toJson) }

def diskWorld (pid : ι) (i : ChainInstanceIdentity) :
    World (recordEffects ρ) Failure (Disk ρ ι) where
  step := DiskStep pid i

/-- The same, where nothing fails: a record directory at `/project/.openzeppelin`
and every address holding code. -/
def diskAnswer [DecidableEq ι] (pid : ι) (i : ChainInstanceIdentity) (d : Disk ρ ι) :
    (op : RecordOp ρ) → Except Failure ((recordEffects ρ).Reply op) × Disk ρ ι
  | .manifestDir => (.ok none, d)
  | .setManifestDir _ => (.ok (), d)
  | .identity => (.ok i, d)
  | .hasCode _ => (.ok true, d)
  | .constructManifest n => (.ok s!"/project/.openzeppelin/unknown-{n}.json", d)
  | .disclose _ => (.ok (), d)
  | .lock _ =>
    if d.lockHolder = none then (.ok (), { d with lockHolder := some pid })
    else (.error (.foreign { message := "Lock file is already being held", code := "ELOCKED" }), d)
  | .unlock _ => (.ok (), { d with lockHolder := none })
  | .readManifest _ =>
    if ∀ holder ∈ d.lockHolder, holder = pid then (.ok d.data, d)
    else (.error (.foreign { message := "Lock file is already being held", code := "ELOCKED" }), d)
  | .writeManifest _ data => (.ok (), { d with manifest := some data })
  | .readFingerprintFile _ => (.ok d.fingerprint, d)
  | .writeFingerprintFile _ record =>
    (.ok (), { d with fingerprint := some (.json record.toJson) })

theorem diskAnswer_allowed [DecidableEq ι] (pid : ι) (i : ChainInstanceIdentity) :
    (diskWorld pid i : World (recordEffects ρ) Failure (Disk ρ ι)).Allows (diskAnswer pid i) := by
  intro d op
  show DiskStep pid i d op _ _
  cases op with
  | lock file =>
    simp only [diskAnswer]
    split
    · exact .lock ‹_›
    · exact .rejected
  | readManifest file =>
    simp only [diskAnswer]
    split
    · exact .readManifest ‹_›
    · exact .rejected
  | _ => constructor

-- A record directory, and two nodes with one chain id, to run sessions on.

def samplePath : PathModule where
  isAbsolute _ := true
  join a b := a ++ "/" ++ b
  dirname _ := "/project/.openzeppelin"
  basename _ _ := "unknown-1"
  relative a b := if a = b then "" else ".."

def sampleDeps : RecordDeps where
  path := samplePath
  codec := ⟨fun _ => false, id, id, id⟩
  addressLe a b := a ≤ b
  root := "/project"
  addresses := []

def sampleHash (c : Char) : String := .ofList ('0' :: 'x' :: List.replicate 64 c)

def nodeA : ChainInstanceIdentity where
  chainId := "0x1"
  genesisHash := sampleHash 'a'
  firstBlockHash := some (sampleHash 'a')
  observedThrough := "http://127.0.0.1:9090"
  chainId_canonical := by decide
  genesisHash_canonical := by decide
  firstBlockHash_canonical := by decide

def nodeB : ChainInstanceIdentity where
  chainId := "0x1"
  genesisHash := sampleHash 'b'
  firstBlockHash := some (sampleHash 'b')
  observedThrough := "http://127.0.0.1:9090"
  chainId_canonical := by decide
  genesisHash_canonical := by decide
  firstBlockHash_canonical := by decide

/-- A record of one proxy, written against `i`. -/
def sampleRecord (i : ChainInstanceIdentity) : ManifestData ChainInstance :=
  ⟨[], [⟨"TSampleProxy", .uups, i.toChainInstance⟩], none⟩

/-- Operations that leave the disk and its lock as they are. -/
def RecordOp.quiet : RecordOp ρ → Bool
  | .lock _ | .unlock _ | .writeManifest _ _ | .writeFingerprintFile _ _ => false
  | _ => true

/-- The same, and reading anything but the fingerprint. -/
def RecordOp.still : RecordOp ρ → Bool
  | .readFingerprintFile _ => false
  | op => op.quiet

theorem RecordOp.quiet_of_still {op : RecordOp ρ} (h : op.still = true) : op.quiet = true := by
  cases op <;> first | exact h | cases h

theorem DiskStep.eq_of_quiet {pid : ι} {d d' : Disk ρ ι} {op : RecordOp ρ}
    {r : Except Failure ((recordEffects ρ).Reply op)} (h : DiskStep pid i d op r d')
    (hq : op.quiet = true) : d' = d := by
  cases h <;> first | rfl | cases hq

theorem DiskStep.error_eq {pid : ι} {d d' : Disk ρ ι} {op : RecordOp ρ} {e : Failure}
    (h : DiskStep pid i d op (.error e) d') : d' = d := by
  cases h
  rfl

-- ---------------------------------------------------------------------------
-- The parts of a session that only read
-- ---------------------------------------------------------------------------

abbrev Quiet (x : RecordTask ρ α) : Prop := x.Asks fun op => RecordOp.quiet op = true

theorem ask_quiet {op : RecordOp ρ} (h : op.quiet = true) : Quiet (ask op) := .perform h

abbrev Still (x : RecordTask ρ α) : Prop := x.Asks fun op => RecordOp.still op = true

theorem Still.quiet {x : RecordTask ρ α} (h : Still x) : Quiet x :=
  h.mono fun _ => RecordOp.quiet_of_still

theorem ask_still {op : RecordOp ρ} (h : op.still = true) : Still (ask op) := .perform h

theorem configureRecordLocation_still (path : PathModule) (root : String) :
    Still (configureRecordLocation path root : RecordTask ρ _) := by
  refine .bind (ask_still rfl) fun configured => ?_
  have hrest : Still (do
      if !path.isAbsolute (path.join root manifestDefaultDir) then
        throw (.recordLocationUnusable .anchorNotAbsolute (path.join root manifestDefaultDir)
          (path.join root manifestDefaultDir) none)
      ask (.setManifestDir (path.join root manifestDefaultDir))
      return (⟨path.join root manifestDefaultDir⟩ : RecordLocation) : RecordTask ρ _) := by
    split
    · trivial
    · exact .bind (ask_still rfl) fun _ => trivial
  cases configured with
  | none => exact hrest
  | some value =>
    simp only
    split
    · split <;> trivial
    · exact hrest

theorem verdictsFor_still (codec : AddressCodec) (stored : List (ProxyDeployment ρ))
    (named : List NamedAddress) : Still (verdictsFor codec stored named) := by
  induction named with
  | nil => trivial
  | cons entry named ih =>
    refine .bind .ofExcept fun address => .bind (ask_still rfl) fun code => ?_
    exact .bind ih fun rest => trivial

theorem reconcileProxies_still (codec : AddressCodec) (addressLe : String → String → Bool)
    (named : List NamedAddress) (stored : List (ProxyDeployment ρ)) :
    Still (reconcileProxies codec addressLe named stored) :=
  .bind (verdictsFor_still codec stored named) fun _ => trivial

theorem anyProxyLive_still (proxies : List (ProxyDeployment ρ)) : Still (anyProxyLive proxies) := by
  induction proxies with
  | nil => trivial
  | cons proxy proxies ih =>
    refine .bind (ask_still rfl) fun code => ?_
    cases code
    · exact ih
    · trivial

theorem diagnoseFingerprintRefusal_still (file : String) :
    Still (diagnoseFingerprintRefusal file : RecordTask ρ _) := by
  refine .catching (.bind (ask_still rfl) fun data => ?_) fun _ => trivial
  split
  · trivial
  · exact anyProxyLive_still _

theorem throughRecordRead_still {x : RecordTask ρ α} (h : Still x) :
    Still (throughRecordRead file x) := by
  refine .catching h fun e => ?_
  split <;> trivial

-- ---------------------------------------------------------------------------
-- What a session decides by
-- ---------------------------------------------------------------------------

/-- Where writing the fingerprint of `i` cannot relabel an entry. -/
def FreshToWrite (i : ChainInstanceIdentity) (d : Disk ρ ι) : Prop :=
  d.fingerprint = none ∨ d.fingerprint = ownFingerprint i ∨ recordCount d.data = 0

/-- No fingerprint but one that a session wrote. -/
def Disk.Signed (d : Disk ρ ι) : Prop :=
  d.fingerprint = none ∨ ∃ i : ChainInstanceIdentity, d.fingerprint = ownFingerprint i

/-- The same, for an identity with a first block. -/
def Disk.Armed (d : Disk ρ ι) : Prop :=
  d.fingerprint = none ∨
    ∃ i : ChainInstanceIdentity, i.firstBlockHash ≠ none ∧ d.fingerprint = ownFingerprint i

theorem ownFingerprint_congr {i j : ChainInstanceIdentity}
    (h : i.toChainInstance = j.toChainInstance) : ownFingerprint i = ownFingerprint j := by
  simp only [ownFingerprint, fingerprintFor, h]

/-- What each process last read from the fingerprint file, or wrote there. -/
abbrev Known (ι : Type) := ι → Option (Option FileContent)

/-- What `pid` knows of it after one more operation. -/
def Known.after [DecidableEq ι] (pid : ι) (known : Known ι) :
    (op : RecordOp ρ) → Except Failure ((recordEffects ρ).Reply op) → Known ι
  | .readFingerprintFile _, .ok content => Function.update known pid (some content)
  | .writeFingerprintFile _ record, .ok _ =>
    Function.update known pid (some (some (.json record.toJson)))
  | _, _ => known

/-- What the process knows of the fingerprint file is what stands there. -/
def Known.Current (known : Known ι) (pid : ι) (d : Disk ρ ι) : Prop :=
  ∀ content, known pid = some content → content = d.fingerprint

/-- What is known of the file reads as `recorded`. -/
def ReadAs (known : Option (Option FileContent)) (recorded : Option RecordedChainInstance) : Prop :=
  ∃ content, known = some content ∧ readFingerprint content = recorded.elim .absent .record

/-- The comparator left it undecided, so the fingerprint is due. -/
def Undecided (i : ChainInstanceIdentity) (known : Option (Option FileContent)) : Prop :=
  ∃ recorded because, ReadAs known recorded ∧
    compareChainInstance recorded i.toChainInstance = .indeterminate because

/-- The process's own fingerprint, or one that the comparator took for it. -/
def Settles (i : ChainInstanceIdentity) (known : Option (Option FileContent)) : Prop :=
  known = some (ownFingerprint i) ∨
    ∃ recorded, ReadAs known recorded ∧ compareChainInstance recorded i.toChainInstance = .same

theorem Disk.Armed.signed {d : Disk ρ ι} (hd : d.Armed) : d.Signed :=
  hd.imp_right fun ⟨i, _, hown⟩ => ⟨i, hown⟩

/-- Of a fingerprint that stands, only an absent one leaves the comparator undecided. -/
theorem Undecided.absent {known : Known ι} {d : Disk ρ ι} (hd : d.Armed)
    (hknown : known.Current pid d) (h : Undecided i (known pid)) : d.fingerprint = none := by
  obtain ⟨recorded, because, ⟨content, hcontent, hread⟩, hcompare⟩ := h
  obtain rfl := hknown content hcontent
  rcases hd with hnone | ⟨j, hj, hown⟩
  · exact hnone
  · exfalso
    rw [hown, ownFingerprint, readFingerprint_fingerprintFor] at hread
    cases recorded with
    | none => cases hread
    | some record =>
      cases hread
      exact hj (compareChainInstance_indeterminate hcompare)

/-- A fingerprint that stands and settles it is the process's own. -/
theorem Settles.own {known : Known ι} {d : Disk ρ ι} (hd : d.Signed)
    (hknown : known.Current pid d) (h : Settles i (known pid)) :
    d.fingerprint = ownFingerprint i := by
  rcases h with hown | ⟨recorded, ⟨content, hcontent, hread⟩, hsame⟩
  · exact (hknown _ hown).symm
  · obtain rfl := hknown content hcontent
    rcases hd with hnone | ⟨j, hown⟩
    · rw [hnone] at hread
      cases recorded with
      | none => cases hsame
      | some record => cases hread
    · rw [hown, ownFingerprint, readFingerprint_fingerprintFor] at hread
      cases recorded with
      | none => cases hread
      | some record =>
        cases hread
        exact hown.trans (ownFingerprint_congr (compareChainInstance_same hsame))

-- ---------------------------------------------------------------------------
-- What a session writes
-- ---------------------------------------------------------------------------

/-- A process writing to the disk, and how far the others may move it between
two of its operations: not at all while it holds the lock. -/
structure Writer (ρ ι : Type) where
  pid : ι
  identity : ChainInstanceIdentity
  /-- The entries it may add. -/
  adds : ρ → Prop
  rely : Disk ρ ι → Disk ρ ι → Prop
  rely_refl : ∀ d, rely d d
  rely_trans : ∀ a b c, rely a b → rely b c → rely a c
  rely_locked : ∀ a b, rely a b → a.lockHolder = some pid → b = a

namespace Writer

/-- One of the processes that share a disk. -/
def sharing (pid : ι) (identity : ChainInstanceIdentity) (adds : ρ → Prop) : Writer ρ ι where
  pid := pid
  identity := identity
  adds := adds
  rely d d' := d.lockHolder = some pid → d' = d
  rely_refl _ _ := rfl
  rely_trans a b c hab hbc ha := by
    obtain rfl := hab ha
    exact hbc ha
  rely_locked _ _ h ha := h ha

variable (w : Writer ρ ι)

/-- Writes are under the lock; the fingerprint is the process's own; entries
are old ones or its to add. -/
def disciplined (d : Disk ρ ι) : RecordOp ρ → Prop
  | .writeFingerprintFile _ record =>
    d.lockHolder = some w.pid ∧ record = fingerprintFor w.identity
  | .writeManifest _ data =>
    d.lockHolder = some w.pid ∧ ∀ p ∈ data.payloads, p ∈ d.payloads ∨ w.adds p
  | .unlock _ => d.lockHolder = some w.pid
  | _ => True

/-- The fingerprint is written where what is known left it undecided, or over
an empty record; an entry is added where what is known settled it. -/
def decided (s : Disk ρ ι × Known ι) : RecordOp ρ → Prop
  | .writeFingerprintFile _ _ => Undecided w.identity (s.2 w.pid) ∨ recordCount s.1.data = 0
  | .writeManifest _ data =>
    Settles w.identity (s.2 w.pid) ∨ ∀ p ∈ data.payloads, p ∈ s.1.payloads
  | _ => True

def careful (s : Disk ρ ι × Known ι) (op : RecordOp ρ) : Prop :=
  w.disciplined s.1 op ∧ w.decided s op

/-- The others move the disk as `rely` says, and not what the process knows. -/
def drift (s t : Disk ρ ι × Known ι) : Prop :=
  w.rely s.1 t.1 ∧ t.2 w.pid = s.2 w.pid

/-- A disciplined step of one process moves the disk for no other that holds
the lock. -/
theorem undisturbed {w : Writer ρ ι} {d d' : Disk ρ ι} {op : RecordOp ρ}
    {r : Except Failure ((recordEffects ρ).Reply op)} {pid : ι} (hpid : pid ≠ w.pid)
    (hop : w.disciplined d op) (hs : DiskStep w.pid w.identity d op r d') :
    d.lockHolder = some pid → d' = d := by
  intro hheld
  have hother : d.lockHolder ≠ some w.pid := by
    rw [hheld]
    exact fun h => hpid (Option.some.inj h)
  cases hs with
  | lock hfree =>
    rw [hfree] at hheld
    cases hheld
  | unlock => exact absurd hop hother
  | writeManifest => exact absurd hop.1 hother
  | writeFingerprintFile => exact absurd hop.1 hother
  | _ => rfl

variable [DecidableEq ι]

abbrev world : World (recordEffects ρ) Failure (Disk ρ ι × Known ι) :=
  (diskWorld w.pid w.identity).watched (Known.after w.pid)

/-- Every run of `x` from `s`, disturbed as `rely` allows, is careful and
ends in `Q`. -/
abbrev does (x : RecordTask ρ α) (Q : Except Failure α → Disk ρ ι × Known ι → Prop)
    (s : Disk ρ ι × Known ι) : Prop :=
  wp (w.world.interfered w.drift) (stably w.drift w.careful) x Q s

variable {w} {s : Disk ρ ι × Known ι} {x : RecordTask ρ α} {deps : RecordDeps} {files : RecordFiles}

omit [DecidableEq ι] in
theorem drift_refl (s : Disk ρ ι × Known ι) : w.drift s s :=
  ⟨w.rely_refl s.1, rfl⟩

omit [DecidableEq ι] in
theorem drift_trans (a b c : Disk ρ ι × Known ι) (hab : w.drift a b) (hbc : w.drift b c) :
    w.drift a c :=
  ⟨w.rely_trans _ _ _ hab.1 hbc.1, hbc.2.trans hab.2⟩

omit [DecidableEq ι] in
/-- The lock holder finds its own disk. -/
theorem drift_locked {s t : Disk ρ ι × Known ι} (h : w.drift s t)
    (hheld : s.1.lockHolder = some w.pid) : t.1 = s.1 ∧ t.2 w.pid = s.2 w.pid :=
  ⟨w.rely_locked _ _ h.1 hheld, h.2⟩

theorem still_moves : Moves (w.world.interfered w.drift) (stably w.drift w.careful)
    (fun op => RecordOp.still op = true) w.drift where
  refl := drift_refl
  trans := drift_trans
  guard := by
    intro s op hop t _
    cases op <;> first | exact ⟨trivial, trivial⟩ | cases hop
  step := by
    rintro s op r ⟨d', k'⟩ hop ⟨t, hst, hstep, hknown⟩
    obtain rfl : d' = t.1 := hstep.eq_of_quiet (RecordOp.quiet_of_still hop)
    obtain rfl : k' = t.2 := hknown.trans (by cases op <;> first | rfl | cases hop)
    exact hst

theorem still (h : Still x) : w.does x (fun _ t => w.drift s t) s := still_moves.along h s

/-- What the process knows after a part that only reads. -/
theorem knows_still (h : Still x) : w.does x (fun _ t => t.2 w.pid = s.2 w.pid) s :=
  wp_mono (fun _ _ h => h.2) (still h)

/-- An operation of the lock holder, on the disk as it left it. -/
theorem ask_held {op : RecordOp ρ} {Q : Except Failure ((recordEffects ρ).Reply op) →
      Disk ρ ι × Known ι → Prop} (hheld : s.1.lockHolder = some w.pid)
    (guard : ∀ k : Known ι, k w.pid = s.2 w.pid → w.careful (s.1, k) op)
    (hQ : ∀ (k : Known ι) r d', k w.pid = s.2 w.pid → DiskStep w.pid w.identity s.1 op r d' →
      Q r (d', Known.after w.pid k op r)) :
    w.does (ask op) Q s := by
  refine wp_perform.mpr ⟨?_, ?_⟩
  · rintro ⟨d, k⟩ hst
    obtain ⟨rfl, hk⟩ := drift_locked hst hheld
    exact guard k hk
  · rintro r ⟨d', k'⟩ ⟨⟨d, k⟩, hst, hstep, hknown⟩
    obtain ⟨rfl, hk⟩ := drift_locked hst hheld
    obtain rfl : k' = _ := hknown
    exact hQ k r d' hk hstep

/-- The lock is held across what the body does with it, and given back. -/
theorem lockedRun_does {Q : Except Failure α → Option (Option FileContent) → Prop}
    (body : ∀ t, w.drift s t →
      w.does x (fun o u => u.1.lockHolder = some w.pid ∧ Q o (u.2 w.pid))
        ({ t.1 with lockHolder := some w.pid }, t.2))
    (refused : ∀ e, Q (.error e) (s.2 w.pid)) (lost : ∀ o e k, Q o k → Q (.error e) k) :
    w.does (lockedRun file x) (fun o t => Q o (t.2 w.pid)) s := by
  refine wp.perform_bind (fun _ _ => ⟨trivial, trivial⟩) ?_ ?_
  · rintro a ⟨d', k'⟩ ⟨t, hst, hstep, hknown⟩
    obtain rfl : k' = t.2 := hknown
    cases hstep with
    | lock hfree =>
      refine wp.bind (R := fun o u => ∃ o', o = .ok o' ∧ u.1.lockHolder = some w.pid ∧
        Q o' (u.2 w.pid)) (wp_attempt.mpr (wp_mono ?_ (body t hst))) ?_ ?_
      · exact fun o u h => ⟨o, rfl, h⟩
      · rintro o u ⟨o', ho, hheld, hQ⟩
        cases ho
        refine wp.bind (R := fun _ v => Q o (v.2 w.pid)) (ask_held hheld ?_ ?_) ?_ ?_
        · exact fun k _ => ⟨hheld, trivial⟩
        · intro k r d' hk hstep
          have hQ : Q o (k w.pid) := hk.symm ▸ hQ
          cases hstep <;> exact hQ
        · intro a v hv
          rw [wp_ofExcept]
          exact hv
        · exact fun e v hv => lost o e _ hv
      · rintro e u ⟨o', ho, _⟩
        cases ho
  · rintro e ⟨d', k'⟩ ⟨t, hst, -, hknown⟩
    obtain rfl : k' = t.2 := hknown
    exact hst.2.symm ▸ refused e

theorem writeFingerprint_does (hheld : s.1.lockHolder = some w.pid)
    (hdecided : Undecided w.identity (s.2 w.pid) ∨ recordCount s.1.data = 0) :
    w.does (writeFingerprint file (fingerprintFor w.identity)) (fun o t =>
      t.1.lockHolder = some w.pid ∧ t.1.manifest = s.1.manifest ∧
        (o = .ok () → t.2 w.pid = some (ownFingerprint w.identity))) s := by
  have hp : (fingerprintFor w.identity).persistable = true := fingerprintFor_persistable _
  simp only [writeFingerprint, hp, Bool.not_true, Bool.false_eq_true, ↓reduceIte]
  refine ask_held hheld ?_ ?_
  · intro k hk
    refine ⟨⟨hheld, rfl⟩, ?_⟩
    show Undecided w.identity (k w.pid) ∨ _
    rw [hk]
    exact hdecided
  · intro k r d' hk hstep
    cases hstep
    · exact ⟨hheld, rfl, nofun⟩
    · exact ⟨hheld, rfl, fun _ => Function.update_self ..⟩

theorem writeMigrated_does (hheld : s.1.lockHolder = some w.pid)
    (hold : ∀ p ∈ data.payloads, p ∈ s.1.payloads) :
    w.does (ask (.writeManifest file data)) (fun _ t =>
      t.1.lockHolder = some w.pid ∧ t.2 w.pid = s.2 w.pid) s := by
  refine ask_held hheld ?_ ?_
  · exact fun k _ => ⟨⟨hheld, fun p hp => .inl (hold p hp)⟩, .inr hold⟩
  · intro k r d' hk hstep
    cases hstep <;> exact ⟨hheld, hk⟩

/-- A read of the manifest by the lock holder. -/
theorem readManifest_does {f : ManifestData ρ → RecordTask ρ α}
    {Q : Except Failure α → Disk ρ ι × Known ι → Prop} (hheld : s.1.lockHolder = some w.pid)
    (next : ∀ k : Known ι, k w.pid = s.2 w.pid → w.does (f s.1.data) Q (s.1, k))
    (lost : ∀ e (k : Known ι), k w.pid = s.2 w.pid → Q (.error e) (s.1, k)) :
    w.does ((ask (.readManifest file)).bind f) Q s := by
  refine wp.bind (R := fun r t => t.1 = s.1 ∧ t.2 w.pid = s.2 w.pid ∧ ∀ a, r = .ok a → a = s.1.data)
    (ask_held hheld (fun _ _ => ⟨trivial, trivial⟩) ?_) ?_ ?_
  · intro k r d' hk hstep
    cases hstep with
    | rejected => exact ⟨rfl, hk, nofun⟩
    | readManifest _ =>
      refine ⟨rfl, hk, ?_⟩
      rintro _ ⟨⟩
      rfl
  · rintro a ⟨d, k⟩ ⟨rfl, hk, ha⟩
    obtain rfl := ha a rfl
    exact next k hk
  · rintro e ⟨d, k⟩ ⟨rfl, hk, -⟩
    exact lost e k hk

theorem armAndMigrate_does {changed : Option ChainInstanceChange} {needs : Bool}
    (hheld : s.1.lockHolder = some w.pid) (hfiles : files.identity = w.identity)
    (hundecided : changed = none → needs = true → Undecided w.identity (s.2 w.pid)) :
    w.does (armAndMigrate deps files changed needs) (fun o t => t.1.lockHolder = some w.pid ∧
      ∀ a, o = .ok a → if needs then t.2 w.pid = some (ownFingerprint w.identity)
        else t.2 w.pid = s.2 w.pid) s := by
  obtain ⟨manifestFile, fingerprintFile, identity⟩ := files
  obtain rfl := hfiles
  refine readManifest_does hheld ?_ fun e k _ => ⟨hheld, nofun⟩
  intro k hk
  have hold : ∀ p ∈ (canonicalizeStoredAddresses deps.codec s.1.data).data.payloads,
      p ∈ s.1.payloads := by
    rw [canonicalizeStoredAddresses_payloads]
    exact fun p hp => hp
  have hcount : recordCount (canonicalizeStoredAddresses deps.codec s.1.data).data =
      recordCount s.1.data := by
    rw [← payloads_length, canonicalizeStoredAddresses_payloads, payloads_length]
  generalize canonicalizeStoredAddresses deps.codec s.1.data = locked at hold hcount
  refine wp.ofExcept_bind ?_ fun e _ => ⟨hheld, nofun⟩
  rintro ⟨⟩ hempty
  have hdecided : needs = true → Undecided w.identity (k w.pid) ∨ recordCount s.1.data = 0 := by
    intro hneeds
    cases changed with
    | none => exact .inl (hk ▸ hundecided rfl hneeds)
    | some change =>
      -- the emptiness that routed here was checked again under the lock
      simp only [RecordFiles.assertStillEmpty] at hempty
      split at hempty
      · cases hempty
      · exact .inr (by omega)
  refine wp.bind (R := fun o t => t.1.lockHolder = some w.pid ∧ t.1.manifest = s.1.manifest ∧
    (o = .ok () → if needs then t.2 w.pid = some (ownFingerprint w.identity)
      else t.2 w.pid = s.2 w.pid)) (wp.when ?_ ?_) ?_ ?_
  · intro hneeds
    simp only [hneeds, ↓reduceIte]
    exact writeFingerprint_does (s := (s.1, k)) hheld (hdecided hneeds)
  · intro hneeds
    exact ⟨hheld, rfl, fun _ => by rw [if_neg hneeds]; exact hk⟩
  · rintro ⟨⟩ t ⟨hheld, hmanifest, harmed⟩
    have hold : ∀ p ∈ locked.data.payloads, p ∈ t.1.payloads := by
      simpa only [Disk.payloads, Disk.data, hmanifest] using hold
    refine wp.bind (R := fun _ u => u.1.lockHolder = some w.pid ∧ u.2 w.pid = t.2 w.pid)
      (wp.when ?_ ?_) ?_ ?_
    · exact fun _ => writeMigrated_does hheld hold
    · exact fun _ => ⟨hheld, rfl⟩
    · rintro ⟨⟩ u ⟨hheld, hsame⟩
      refine ⟨hheld, fun a _ => ?_⟩
      rw [hsame]
      exact harmed rfl
    · exact fun e u h => ⟨h.1, nofun⟩
  · exact fun e t h => ⟨h.1, nofun⟩

theorem throughRecordLock_does {Q : Except Failure α → Disk ρ ι × Known ι → Prop}
    (h : w.does x Q s) (hQ : ∀ e t, Q (.error e) t → ∀ e', Q (.error e') t) :
    w.does (throughRecordLock file x) Q s := by
  refine wp.catching h (fun _ _ h => h) fun e t h => ?_
  split <;> exact hQ e t h _

/-- The lock section of step 6 from outside: what the process knows where it returns. -/
theorem lockedArm_does (changed : Option ChainInstanceChange) (needs : Bool)
    (hfiles : files.identity = w.identity)
    (hundecided : changed = none → needs = true → Undecided w.identity (s.2 w.pid)) :
    w.does (throughRecordLock files.manifestFile
        (lockedRun files.manifestFile (armAndMigrate deps files changed needs)))
      (fun o t => ∀ a, o = .ok a →
        if needs then t.2 w.pid = some (ownFingerprint w.identity)
        else t.2 w.pid = s.2 w.pid) s := by
  refine throughRecordLock_does (lockedRun_does (Q := fun o k => ∀ a, o = .ok a →
    if needs then k = some (ownFingerprint w.identity) else k = s.2 w.pid) ?_ ?_ ?_) ?_
  · intro t hst
    rw [← hst.2] at hundecided ⊢
    exact armAndMigrate_does rfl hfiles hundecided
  · exact fun e => nofun
  · exact fun o e k _ => nofun
  · exact fun e t _ e' => nofun

theorem settleInstance_does {read : FingerprintRead} (hfiles : files.identity = w.identity)
    (hread : ReadAs (s.2 w.pid) recorded) :
    w.does (settleInstance deps files read
        (compareChainInstance recorded w.identity.toChainInstance))
      (fun o t => ∀ a, o = .ok a → Settles w.identity (t.2 w.pid)) s := by
  refine wp.bind (knows_still (throughRecordRead_still (ask_still rfl))) ?_ fun e t _ => nofun
  intro data t hknown
  rw [← hknown] at hread
  cases hcompare : compareChainInstance recorded w.identity.toChainInstance with
  | changed change =>
    simp only
    split
    · exact nofun
    · refine wp.bind (lockedArm_does (some change) true hfiles nofun) ?_ fun e u h => nofun
      intro written u hwritten
      refine wp.bind (knows_still (ask_still rfl)) ?_ fun e v _ => nofun
      intro _ v hv _ _
      exact .inl (hv.trans (hwritten written rfl))
  | indeterminate because =>
    refine wp.bind (lockedArm_does none true hfiles fun _ _ => ⟨recorded, because, hread, hcompare⟩)
      ?_ fun e u h => nofun
    exact fun written u hwritten _ _ => .inl (hwritten written rfl)
  | same =>
    simp only
    split
    · refine wp.bind (lockedArm_does none false hfiles nofun) ?_ fun e u h => nofun
      intro written u hwritten _ _
      exact .inr ⟨recorded, (hwritten written rfl).symm ▸ hread, hcompare⟩
    · exact fun _ _ => .inr ⟨recorded, hread, hcompare⟩

theorem openRecordManifest_still (chainIdHex : String) :
    Still (openRecordManifest chainIdHex : RecordTask ρ _) :=
  .bind .ofExcept fun _ => ask_still rfl

theorem readFingerprintAt_does : w.does (readFingerprintAt file) (fun o t => ∀ read, o = .ok read →
    ∃ content, t.2 w.pid = some content ∧ readFingerprint content = read) s := by
  refine wp.perform_bind (fun _ _ => ⟨trivial, trivial⟩) ?_ fun e t _ => nofun
  rintro content ⟨d', k'⟩ ⟨t, -, -, hknown⟩ read hread
  obtain rfl : k' = _ := hknown
  cases hread
  exact ⟨content, Function.update_self .., rfl⟩

theorem usableFingerprint_does {read : FingerprintRead} :
    w.does (usableFingerprint files read) (fun o t => t.2 w.pid = s.2 w.pid ∧
      ∀ recorded, o = .ok recorded → read = recorded.elim .absent .record) s := by
  cases read with
  | absent => exact ⟨rfl, fun r h => by cases h; rfl⟩
  | record record => exact ⟨rfl, fun r h => by cases h; rfl⟩
  | unreadable because =>
    refine wp.bind (knows_still (diagnoseFingerprintRefusal_still _)) ?_ ?_
    · exact fun _ t ht => ⟨ht, nofun⟩
    · exact fun e t ht => ⟨ht, nofun⟩

/-- A session's whole preflight is careful whoever else writes, and where it
returns, what the process knows of the fingerprint settles it. -/
theorem openRecord_does (deps : RecordDeps) :
    w.does (openRecord deps)
      (fun o t => ∀ session, o = .ok session → Settles w.identity (t.2 w.pid)) s := by
  refine wp.bind (knows_still (configureRecordLocation_still _ _)) ?_ fun e t _ => nofun
  intro location t₁ _
  refine wp.perform_bind (fun _ _ => ⟨trivial, trivial⟩) ?_ fun e t _ => nofun
  rintro identity ⟨d₂, k₂⟩ ⟨u, -, hstep, -⟩
  cases hstep with
  | identity =>
    refine wp.bind (knows_still (openRecordManifest_still _)) ?_ fun e t _ => nofun
    intro manifest t₃ _
    refine wp.ofExcept_bind ?_ fun e _ => nofun
    intro manifestFile _
    refine wp.bind readFingerprintAt_does ?_ fun e t _ => nofun
    intro read t₄ hread
    refine wp.bind usableFingerprint_does ?_ fun e t _ => nofun
    rintro recorded t₅ ⟨hknown, husable⟩
    obtain ⟨content, hcontent, hread⟩ := hread read rfl
    have hreadAs : ReadAs (t₅.2 w.pid) recorded :=
      ⟨content, hknown.trans hcontent, hread.trans (husable recorded rfl)⟩
    refine wp.bind (settleInstance_does rfl hreadAs) ?_ fun e t _ => nofun
    rintro ⟨migration, addressesMigrated, outcome⟩ t₆ hsettles
    refine wp.bind (knows_still (reconcileProxies_still _ _ _ _)) ?_ fun e t _ => nofun
    intro verdicts t₇ hknown _ _
    rw [hknown]
    exact hsettles _ rfl

theorem writeRecord_does {session : RecordSession} {change : ManifestData ρ → ManifestData ρ}
    (hadds : ∀ data, ∀ p ∈ (change data).payloads, p ∈ data.payloads ∨ w.adds p)
    (hsettles : Settles w.identity (s.2 w.pid)) :
    w.does (session.writeRecord change) (fun _ t => Settles w.identity (t.2 w.pid)) s := by
  refine wp.catching (lockedRun_does (Q := fun _ k => Settles w.identity k) ?_ ?_ ?_)
    (fun _ _ h => h) ?_
  · intro t hst
    have keeps : ∀ k : Known ι, k w.pid = t.2 w.pid → Settles w.identity (k w.pid) := by
      intro k hk
      rw [hk, hst.2]
      exact hsettles
    refine readManifest_does rfl ?_ fun e k hk => ⟨rfl, keeps k hk⟩
    intro k hk
    refine ask_held rfl ?_ ?_
    · exact fun k' hk' => ⟨⟨rfl, hadds _⟩, .inl (keeps k' (hk'.trans hk))⟩
    · intro k' r d' hk' hstep
      have hkeeps := keeps k' (hk'.trans hk)
      cases hstep <;> exact ⟨rfl, hkeeps⟩
  · exact fun _ => hsettles
  · exact fun _ _ _ h => h
  · intro e t h
    split <;> exact h

end Writer

-- ---------------------------------------------------------------------------
-- What the fingerprint guards
-- ---------------------------------------------------------------------------

/-- Every entry under a complete fingerprint was written against the instance
it names, and there is no entry before the first fingerprint. -/
structure Disk.Guarded (origin : ρ → ChainInstance) (d : Disk ρ ι) : Prop where
  absent : d.fingerprint = none → recordCount d.data = 0
  named : ∀ r, readFingerprint d.fingerprint = .record r → incompleteFieldOf r = none →
    ∀ p ∈ d.payloads, (origin p).recorded = r

/-- Where a write cannot relabel an entry: the fingerprint where that is
fresh, a new entry while the fingerprint on disk is the writer's own. -/
def StillOwn (i : ChainInstanceIdentity) (d : Disk ρ ι) : RecordOp ρ → Prop
  | .writeFingerprintFile _ _ => FreshToWrite i d
  | .writeManifest _ data =>
    (∃ p ∈ data.payloads, p ∉ d.payloads) → d.fingerprint = ownFingerprint i
  | _ => True

/-- Where what the process knows of the fingerprint is what stands, its own
decision holds. -/
theorem Writer.decided_current {w : Writer ρ ι} {s : Disk ρ ι × Known ι} {op : RecordOp ρ}
    (hop : w.decided s op) (hd : s.1.Signed) (hknown : s.2.Current w.pid s.1)
    (harmed : ∀ file record, op = .writeFingerprintFile file record → s.1.Armed) :
    StillOwn w.identity s.1 op := by
  cases op with
  | writeFingerprintFile file record =>
    rcases hop with hundecided | hempty
    · exact .inl (hundecided.absent (harmed file record rfl) hknown)
    · exact .inr (.inr hempty)
  | writeManifest file data =>
    rintro ⟨p, hp, hnew⟩
    rcases hop with hsettles | hold
    · exact hsettles.own hd hknown
    · exact absurd (hold p hp) hnew
  | _ => trivial

theorem Disk.Guarded.own {origin : ρ → ChainInstance} {d : Disk ρ ι} (h : d.Guarded origin)
    (hown : d.fingerprint = ownFingerprint i) : ∀ p ∈ d.payloads, (origin p).recorded = i.recorded :=
  h.named i.recorded (by rw [hown]; exact readFingerprint_fingerprintFor i) rfl

theorem recordCount_data {d : Disk ρ ι} : recordCount d.data = 0 ↔ d.payloads = [] :=
  recordCount_eq_zero

/-- A disciplined step leaves the fingerprint, or the writer's own in its place
where that is fresh. -/
theorem Writer.fingerprint_step {w : Writer ρ ι} {d d' : Disk ρ ι} {op : RecordOp ρ}
    {r : Except Failure ((recordEffects ρ).Reply op)} (hop : w.disciplined d op)
    (hstill : StillOwn w.identity d op) (hs : DiskStep w.pid w.identity d op r d') :
    d'.fingerprint = d.fingerprint ∨
      d'.fingerprint = ownFingerprint w.identity ∧ FreshToWrite w.identity d := by
  cases hs with
  | writeFingerprintFile =>
    obtain ⟨_, rfl⟩ := hop
    exact .inr ⟨rfl, hstill⟩
  | _ => exact .inl rfl

/-- What one disciplined step preserves. -/
theorem Disk.Guarded.step {origin : ρ → ChainInstance} {w : Writer ρ ι} {d d' : Disk ρ ι}
    {op : RecordOp ρ} {r : Except Failure ((recordEffects ρ).Reply op)} (h : d.Guarded origin)
    (hadds : ∀ p, w.adds p → origin p = w.identity.toChainInstance)
    (hop : w.disciplined d op) (hstill : StillOwn w.identity d op)
    (hs : DiskStep w.pid w.identity d op r d') : d'.Guarded origin := by
  cases hs with
  | writeFingerprintFile =>
    obtain ⟨_, rfl⟩ := hop
    refine ⟨nofun, ?_⟩
    intro r hr _ p hp
    rw [readFingerprint_fingerprintFor] at hr
    cases hr
    have hpd : p ∈ d.payloads := hp
    rcases hstill with hnone | hown | hempty
    · rw [recordCount_data.mp (h.absent hnone)] at hpd
      cases hpd
    · exact h.own hown p hpd
    · rw [recordCount_data.mp hempty] at hpd
      cases hpd
  | @writeManifest _ data =>
    have hold : d.fingerprint ≠ ownFingerprint w.identity → ∀ p ∈ data.payloads, p ∈ d.payloads := by
      intro hne p hp
      by_contra hnew
      exact hne (hstill ⟨p, hp, hnew⟩)
    refine ⟨?_, ?_⟩
    · intro hnone
      have hnone : d.fingerprint = none := hnone
      have hold := hold (by rw [hnone]; exact nofun)
      rw [recordCount_data.mp (h.absent hnone)] at hold
      exact recordCount_eq_zero.mpr (List.eq_nil_iff_forall_not_mem.mpr fun p hp => nomatch hold p hp)
    · intro r hr hcomplete p hp
      by_cases hpd : p ∈ d.payloads
      · exact h.named r hr hcomplete p hpd
      · have hown : d.fingerprint = ownFingerprint w.identity := hstill ⟨p, hp, hpd⟩
        have hr : readFingerprint d.fingerprint = .record r := hr
        rw [hown, ownFingerprint, readFingerprint_fingerprintFor] at hr
        cases hr
        rw [hadds p ((hop.2 p hp).resolve_left hpd)]
  | _ => exact ⟨h.absent, h.named⟩

end TronUpgrades.Record
