import TronUpgrades.Record.Disk
import Mathlib.Data.List.Basic

/-!
# The fingerprint guard over sequential histories

One process at a time on one record location: sessions are opened, write and
end, the chain is wiped, the user deletes the manifest, a crash stops a session
between any two of its operations. The invariant `Machine.Ok` joins what the
disk holds, what the live sessions rely on and what the session being opened
will still do.
-/

namespace TronUpgrades.Record

open Effects Chain
open Relation (ReflTransGen)

variable {ρ : Type}

structure Machine (ρ : Type) where
  disk : Disk ρ Unit
  /-- Sessions that opened and may still write: all on the chain that answers. -/
  live : List ChainInstanceIdentity
  /-- A session being opened, with what is left of `openRecord`. -/
  running : Option (ChainInstanceIdentity × RecordTask ρ RecordSession)

namespace Machine

def initial : Machine ρ := ⟨⟨none, none, none⟩, [], none⟩

/-- `origin` is the instance an entry was written against. -/
inductive Step (origin : ρ → ChainInstance) : Machine ρ → Machine ρ → Prop
  /-- One chain answers at a time: a session on another instance than `i` has
  none left to write on, so it ends. Sessions that are live on two instances at
  once are two processes on one disk, which is the subject of `Concurrency`. -/
  | openRecord {disk live} (deps : RecordDeps) (i : ChainInstanceIdentity) :
      i.firstBlockHash ≠ none →
      Step origin ⟨disk, live, none⟩
        ⟨disk, live.filter (·.toChainInstance = i.toChainInstance), some (i, openRecord deps)⟩
  | operation {disk disk' live i x x'} : Script.Step (diskWorld () i) (x, disk) (x', disk') →
      Step origin ⟨disk, live, some (i, x)⟩ ⟨disk', live, some (i, x')⟩
  | opened {disk live i session} :
      Step origin ⟨disk, live, some (i, .pure session)⟩ ⟨disk, i :: live, none⟩
  | refused {disk live i e} :
      Step origin ⟨disk, live, some (i, .throw e)⟩ ⟨disk, live, none⟩
  | crash {disk live i x} :
      Step origin ⟨disk, live, some (i, x)⟩ ⟨{ disk with lockHolder := none }, live, none⟩
  | recordWrite {disk live i data} : i ∈ live →
      (∀ p ∈ data.payloads, p ∈ disk.payloads ∨ origin p = i.toChainInstance) →
      Step origin ⟨disk, live, none⟩ ⟨{ disk with manifest := some data }, live, none⟩
  | wipe {disk live} : Step origin ⟨disk, live, none⟩ ⟨disk, [], none⟩
  | deleteManifest {disk live} :
      Step origin ⟨disk, live, none⟩ ⟨{ disk with manifest := none }, live, none⟩

abbrev Reachable (origin : ρ → ChainInstance) : Machine ρ → Prop :=
  ReflTransGen (Step origin) initial

end Machine

/-- A process nobody disturbs, that adds no entry: a session being opened. -/
def soleWriter (i : ChainInstanceIdentity) : Writer ρ Unit where
  pid := ()
  identity := i
  adds _ := False
  rely d d' := d' = d
  rely_refl _ := rfl
  rely_trans _ _ _ hab hbc := hbc.trans hab
  rely_locked _ _ h _ := h

/-- What a session being opened may do to the disk. -/
def soleGuard (i : ChainInstanceIdentity) (d : Disk ρ Unit) (op : RecordOp ρ) : Prop :=
  (soleWriter i).disciplined d op ∧ StillOwn i d op

/-- Nobody else writes the fingerprint, so what is known of it stands. -/
theorem Known.Current.step {known : Known Unit} {d d' : Disk ρ Unit} {op : RecordOp ρ}
    {r : Except Failure ((recordEffects ρ).Reply op)} (h : known.Current () d)
    (hs : DiskStep () i d op r d') : (known.after () op r).Current () d' := by
  cases hs with
  | rejected => cases op <;> exact h
  | readFingerprintFile =>
    intro content hcontent
    exact (Option.some.inj hcontent).symm
  | writeFingerprintFile =>
    intro content hcontent
    exact (Option.some.inj hcontent).symm
  | _ => exact h

theorem Disk.Armed.step {d d' : Disk ρ Unit} {op : RecordOp ρ}
    {r : Except Failure ((recordEffects ρ).Reply op)} (h : d.Armed) (hi : i.firstBlockHash ≠ none)
    (hop : (soleWriter i).disciplined d op) (hs : DiskStep () i d op r d') : d'.Armed := by
  cases hs with
  | writeFingerprintFile =>
    obtain ⟨_, rfl⟩ := hop
    exact .inr ⟨i, hi, rfl⟩
  | _ => exact h

theorem openRecord_sole (deps : RecordDeps) {d : Disk ρ Unit} (hd : d.Armed)
    (hi : i.firstBlockHash ≠ none) : wp (diskWorld () i) (soleGuard i) (openRecord deps)
      (fun o t => ∀ session, o = .ok session → t.fingerprint = ownFingerprint i) d := by
  have hdoes : wp (soleWriter i).world (stably (soleWriter i).drift (soleWriter i).careful)
      (openRecord deps) (fun o t => ∀ session, o = .ok session → Settles i (t.2 ()))
      (d, fun _ => none) := by
    refine wp_world_mono ?_ (Writer.openRecord_does deps)
    exact fun s op r s' hs => ⟨s, Writer.drift_refl s, hs⟩
  refine hdoes.unwatched (I := fun d k => d.Armed ∧ k.Current () d) ?_ ?_ ?_ ⟨hd, nofun⟩
  · rintro d k op r d' ⟨hd, hknown⟩ hop hs
    exact ⟨hd.step hi (hop _ (Writer.drift_refl _)).1 hs, hknown.step hs⟩
  · rintro d k op ⟨hd, hknown⟩ hop
    obtain ⟨hdisciplined, hdecided⟩ := hop _ (Writer.drift_refl _)
    exact ⟨hdisciplined, Writer.decided_current hdecided hd.signed hknown fun _ _ _ => hd⟩
  · rintro o d k ⟨hd, hknown⟩ hsettles session ho
    exact (hsettles session ho).own hd.signed hknown

namespace Machine

variable {origin : ρ → ChainInstance} {m m' : Machine ρ} {d d' : Disk ρ Unit}
  {ls : List ChainInstanceIdentity} {i : ChainInstanceIdentity}

/-- The session being opened, and the live ones, are on one instance; opening
it ends with its own fingerprint on disk. -/
structure Opening (ls : List ChainInstanceIdentity) (d : Disk ρ Unit)
    (i : ChainInstanceIdentity) (x : RecordTask ρ RecordSession) : Prop where
  firstBlock : i.firstBlockHash ≠ none
  live : ∀ j ∈ ls, j.toChainInstance = i.toChainInstance
  does : wp (diskWorld () i) (soleGuard i) x
    (fun o t => ∀ session, o = .ok session → t.fingerprint = ownFingerprint i) d

structure Ok (origin : ρ → ChainInstance) (m : Machine ρ) : Prop where
  guarded : m.disk.Guarded origin
  armed : m.disk.Armed
  live : ∀ i ∈ m.live, m.disk.fingerprint = ownFingerprint i
  running : ∀ i x, m.running = some (i, x) → Opening m.live m.disk i x

theorem idle {P : ChainInstanceIdentity → RecordTask ρ RecordSession → Prop} :
    ∀ i x, (none : Option (ChainInstanceIdentity × RecordTask ρ RecordSession)) = some (i, x) →
      P i x := by
  intro i x h
  cases h

theorem initial_ok (origin : ρ → ChainInstance) : Ok origin initial where
  guarded := ⟨fun _ => rfl, fun r hr => by cases hr⟩
  armed := .inl rfl
  live _ h := by cases h
  running := idle

theorem Opening.start (deps : RecordDeps) (hd : d.Armed) (hi : i.firstBlockHash ≠ none) :
    Opening (ls.filter (·.toChainInstance = i.toChainInstance)) d i (openRecord deps) where
  firstBlock := hi
  live j hj := by simpa using (List.mem_filter.mp hj).2
  does := openRecord_sole deps hd hi

/-- One operation of the session being opened. -/
theorem Ok.operation {x x' : RecordTask ρ RecordSession} (h : Ok origin ⟨d, ls, some (i, x)⟩)
    (hs : Script.Step (diskWorld () i) (x, d) (x', d')) : Ok origin ⟨d', ls, some (i, x')⟩ := by
  have hrun := h.running i x rfl
  have hnext := wp.step (c := (x, d)) hrun.does hs
  cases hs with
  | call hstep =>
    obtain ⟨hop, hstill⟩ := hrun.does.1
    have hguarded : d'.Guarded origin :=
      h.guarded.step (w := soleWriter i) (fun _ h => h.elim) hop hstill hstep
    rcases Writer.fingerprint_step (w := soleWriter i) hop hstill hstep with hsame | ⟨hown, _⟩
    · refine ⟨hguarded, ?_, ?_, ?_⟩
      · simpa only [Disk.Armed, hsame] using h.armed
      · simpa only [hsame] using h.live
      · rintro _ _ ⟨⟩
        exact ⟨hrun.firstBlock, hrun.live, hnext⟩
    · refine ⟨hguarded, .inr ⟨i, hrun.firstBlock, hown⟩, ?_, ?_⟩
      · intro j hj
        exact hown.trans (ownFingerprint_congr (hrun.live j hj).symm)
      · rintro _ _ ⟨⟩
        exact ⟨hrun.firstBlock, hrun.live, hnext⟩

/-- A live session's write: its instance is the one the fingerprint names. -/
theorem Ok.recordWrite {data : ManifestData ρ} (h : Ok origin ⟨d, ls, none⟩) (hi : i ∈ ls)
    (hdata : ∀ p ∈ data.payloads, p ∈ d.payloads ∨ origin p = i.toChainInstance) :
    Ok origin ⟨{ d with manifest := some data }, ls, none⟩ := by
  have hown : d.fingerprint = ownFingerprint i := h.live i hi
  refine ⟨⟨?_, ?_⟩, h.armed, h.live, idle⟩
  · intro hnone
    have hnone : d.fingerprint = none := hnone
    rw [hown] at hnone
    cases hnone
  · intro r hr _ p hp
    have hr : readFingerprint d.fingerprint = .record r := hr
    rw [hown, ownFingerprint, readFingerprint_fingerprintFor] at hr
    cases hr
    rcases hdata p hp with hold | hnew
    · exact h.guarded.own hown p hold
    · rw [hnew]

theorem Ok.deleteManifest (h : Ok origin ⟨d, ls, none⟩) :
    Ok origin ⟨{ d with manifest := none }, ls, none⟩ :=
  ⟨⟨fun _ => rfl, fun _ _ _ p hp => by cases hp⟩, h.armed, h.live, idle⟩

/-- What one event preserves. -/
theorem Ok.step (h : Ok origin m)
    (hs : Step origin m m') : Ok origin m' := by
  cases hs with
  | openRecord deps i hi =>
    refine ⟨h.guarded, h.armed, fun j hj => h.live j (List.mem_filter.mp hj).1, ?_⟩
    rintro _ _ ⟨⟩
    exact .start deps h.armed hi
  | operation hs => exact h.operation hs
  | @opened disk live i session =>
    refine ⟨h.guarded, h.armed, ?_, idle⟩
    intro j hj
    rcases List.mem_cons.mp hj with rfl | hj
    · exact (h.running j _ rfl).does session rfl
    · exact h.live j hj
  | refused => exact ⟨h.guarded, h.armed, h.live, idle⟩
  | crash => exact ⟨⟨h.guarded.absent, h.guarded.named⟩, h.armed, h.live, idle⟩
  | recordWrite hi hdata => exact h.recordWrite hi hdata
  | wipe => exact ⟨h.guarded, h.armed, fun _ h => (List.not_mem_nil h).elim, idle⟩
  | deleteManifest => exact h.deleteManifest

/-- What every history preserves. -/
theorem reachable_ok (h : Reachable origin m) : Ok origin m := by
  induction h with
  | refl => exact initial_ok origin
  | tail _ hs ih => exact ih.step hs

/-- An event that puts another instance's fingerprint in place finds the
record empty. -/
theorem Ok.replaced_empty (h : Ok origin m) (hs : Step origin m m') (hr : readFingerprint m.disk.fingerprint = .record r)
    (hr' : readFingerprint m'.disk.fingerprint = .record r') (hne : r ≠ r') :
    recordCount m.disk.data = 0 := by
  have hkept : m'.disk.fingerprint ≠ m.disk.fingerprint := by
    intro heq
    rw [heq, hr] at hr'
    cases hr'
    exact hne rfl
  cases hs with
  | operation hs =>
    have hrun := h.running _ _ rfl
    cases hs with
    | call hstep =>
      obtain ⟨hop, hstill⟩ := hrun.does.1
      rcases Writer.fingerprint_step (w := soleWriter _) hop hstill hstep with
        hsame | ⟨hown, hfresh⟩
      · exact absurd hsame hkept
      · rcases hfresh with hnone | hsame | hempty
        · have hnone : _ = none := hnone
          rw [hnone] at hr
          cases hr
        · exact absurd (hown.trans hsame.symm) hkept
        · exact hempty
  | _ => exact absurd rfl hkept

end Machine

/-- Over every history from an empty disk: a complete fingerprint names the
instance of every entry, and gives way to another only over an empty record. -/
theorem fingerprint_guards_history (origin : ρ → ChainInstance) (m : Machine ρ)
    (h : Machine.Reachable origin m) :
    (∀ r, readFingerprint m.disk.fingerprint = .record r → incompleteFieldOf r = none →
      ∀ p ∈ m.disk.payloads, (origin p).recorded = r) ∧
    ∀ m', Machine.Step origin m m' → ∀ r r', readFingerprint m.disk.fingerprint = .record r →
      readFingerprint m'.disk.fingerprint = .record r' → r ≠ r' → recordCount m.disk.data = 0 := by
  have hok := Machine.reachable_ok h
  refine ⟨hok.guarded.named, ?_⟩
  intro m' hs r r' hr hr' hne
  exact hok.replaced_empty hs hr hr' hne

namespace Machine

theorem operations {x x' : RecordTask ρ RecordSession} {d d' : Disk ρ Unit}
    {ls : List ChainInstanceIdentity}
    (h : Script.Reaches (diskWorld () i) (x, d) (x', d')) :
    ReflTransGen (Step origin) ⟨d, ls, some (i, x)⟩ ⟨d', ls, some (i, x')⟩ := by
  generalize hc : (x', d') = c at h
  induction h generalizing x' d' with
  | refl =>
    cases hc
    exact .refl
  | @tail b c _ hs ih =>
    cases hc
    exact (ih rfl).tail (.operation hs)

/-- An opened session on node A, and its first record. -/
theorem sample_reachable : Reachable id
    ⟨⟨some (sampleRecord nodeA), ownFingerprint nodeA, none⟩, [nodeA], none⟩ := by
  have hrun : ReflTransGen (Step id) ⟨_, [], some (nodeA, openRecord sampleDeps)⟩ ⟨_, [], _⟩ :=
    operations (reaches_run (diskAnswer_allowed () nodeA) _ ⟨none, none, none⟩)
  have hopen : Reachable id ⟨⟨none, ownFingerprint nodeA, none⟩, [nodeA], none⟩ :=
    (ReflTransGen.head (.openRecord sampleDeps nodeA (Option.some_ne_none _)) hrun).tail .opened
  exact hopen.tail (.recordWrite (List.mem_singleton_self _) fun p hp =>
    .inr (by simpa [sampleRecord, ManifestData.payloads] using hp))

end Machine

/-- The guard at that state: its one entry is node A's. -/
theorem fingerprint_guards_first_record :
    (sampleRecord nodeA).payloads.Forall fun p => p.recorded = nodeA.recorded :=
  List.forall_iff_forall_mem.mpr <|
    (fingerprint_guards_history id _ Machine.sample_reachable).1 nodeA.recorded
      (readFingerprint_fingerprintFor nodeA) rfl

end TronUpgrades.Record
