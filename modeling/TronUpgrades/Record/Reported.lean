import TronUpgrades.Effects.History
import TronUpgrades.Record.Disk
import TronUpgrades.Record.Reconciled

/-!
# What a session reports

Every run of `openRecord` that opens, whatever files it finds and whoever else
writes them: its verdicts are those over the record it read last, migrated.
-/

namespace TronUpgrades.Record

open Effects Chain Address

variable {ρ : Type}

section
variable (codec : AddressCodec) (addressLe : String → String → Bool) (code : String → Bool)

/-- Answers about code are `code`'s. -/
def Tells : Event (recordEffects ρ) Failure → Prop
  | ⟨.hasCode address, .ok present⟩ => present = code address
  | _ => True

/-- Any answers at all, so any files and any other writers, but for code. -/
abbrev codeWorld : World (recordEffects ρ) Failure (History (recordEffects ρ) Failure) :=
  .recorded fun _ => Tells code

/-- The record as it was last read from disk. -/
def lastRead (h : History (recordEffects ρ) Failure) : Option (ManifestData ρ) :=
  h.findSome? fun
    | ⟨.readManifest _, .ok data⟩ => some data
    | _ => none

/-- Some session that named these addresses, and last read a record with these
proxies, reported the verdicts. -/
def Reports (named : List NamedAddress) (stored : List (ProxyDeployment ρ))
    (verdicts : List ProxyRecordVerdict) : Prop :=
  ∃ (deps : RecordDeps) (session : RecordSession) (h : History (recordEffects ρ) Failure),
    (deps.codec = codec ∧ deps.addressLe = addressLe ∧ deps.addresses = named) ∧
    Script.Reaches (codeWorld code) (openRecord deps, []) (.pure session, h) ∧
    (lastRead h).map (·.proxies) = some stored ∧ session.report.proxies = verdicts

/-- What a session reports is the reconciliation, whatever the order of the
record and of the call. -/
structure Reconciled (named : List NamedAddress) (stored : List (ProxyDeployment ρ)) : Prop where
  reported : ∃ verdicts, Reports codec addressLe code named stored verdicts
  reconciles : ∀ verdicts, Reports codec addressLe code named stored verdicts →
    Reconciles codec addressLe code named stored verdicts
  unchanged : ∀ named' stored' verdicts verdicts', named'.Perm named → stored'.Perm stored →
    Reports codec addressLe code named stored verdicts →
    Reports codec addressLe code named' stored' verdicts' → verdicts' = verdicts

end

/-- An operation that does not answer the record. -/
def RecordOp.unread : RecordOp ρ → Bool
  | .readManifest _ => false
  | _ => true

section
variable {codec : AddressCodec} {addressLe : String → String → Bool} {code : String → Bool}
  {h : History (recordEffects ρ) Failure} {deps : RecordDeps} {files : RecordFiles} {α β : Type}

/-- Wherever the script returns, what it returns is in `C`. -/
abbrev Yields (code : String → Bool) (h : History (recordEffects ρ) Failure) (x : RecordTask ρ α)
    (C : α → History (recordEffects ρ) Failure → Prop) : Prop :=
  wp (codeWorld code) (fun _ _ => True) x (fun o t => ∀ a, o = .ok a → C a t) h

theorem Yields.pure {a : α} {C : α → History (recordEffects ρ) Failure → Prop} (ha : C a h) :
    Yields code h (.pure a) C := by
  rintro _ ⟨⟩
  exact ha

theorem Yields.throw {e : Failure} {C : α → History (recordEffects ρ) Failure → Prop} :
    Yields code h (.throw e) C := by
  rintro _ ⟨⟩

theorem Yields.any (x : RecordTask ρ α) : Yields code h x fun _ _ => True :=
  wp_all fun _ _ _ _ => trivial

theorem Yields.bind {x : RecordTask ρ α} {f : α → RecordTask ρ β}
    {C : α → History (recordEffects ρ) Failure → Prop}
    {D : β → History (recordEffects ρ) Failure → Prop} (hx : Yields code h x C)
    (hf : ∀ a t, C a t → Yields code t (f a) D) : Yields code h (x.bind f) D := by
  refine wp.bind hx (fun a t ha => hf a t (ha a rfl)) ?_
  rintro e t - _ ⟨⟩

theorem Yields.ask {op : RecordOp ρ} {f : (recordEffects ρ).Reply op → RecordTask ρ β}
    {D : β → History (recordEffects ρ) Failure → Prop}
    (next : ∀ a, Tells code ⟨op, .ok a⟩ → Yields code (⟨op, .ok a⟩ :: h) (f a) D) :
    Yields code h ((ask op).bind f) D := by
  refine wp.ask trivial next ?_
  rintro e - _ ⟨⟩

/-- A handler that only throws adds nothing to what is returned. -/
theorem Yields.rethrown {x : RecordTask ρ α} {handler : Failure → RecordTask ρ α}
    {C : α → History (recordEffects ρ) Failure → Prop} (hx : Yields code h x C)
    (hh : ∀ e, ∃ e', handler e = .throw e') : Yields code h (x.catching handler) C := by
  refine wp.catching hx (fun a t ha => ha) ?_
  intro e t _
  obtain ⟨e', he⟩ := hh e
  rw [he]
  exact Yields.throw

theorem unread_moves : Moves (codeWorld code) (fun _ _ => True)
    (fun op : RecordOp ρ => op.unread = true) fun h h' => lastRead h' = lastRead h where
  refl _ := rfl
  trans _ _ _ hab hbc := hbc.trans hab
  guard _ _ _ := trivial
  step := by
    rintro h op r h' hop ⟨-, rfl⟩
    cases op <;> first | rfl | cases hop

/-- What does not read the record leaves what was read. -/
theorem Yields.unread {x : RecordTask ρ α} (hx : x.Asks fun op => RecordOp.unread op = true) :
    Yields code h x fun _ t => lastRead t = lastRead h :=
  wp_mono (fun _ _ hsame _ _ => hsame) (unread_moves.along hx h)

-- ---------------------------------------------------------------------------
-- The session, from its last read on
-- ---------------------------------------------------------------------------

/-- The migration is the one of the record as it was last read. -/
def Migrated (codec : AddressCodec) (migration : StoredAddressMigration ρ)
    (h : History (recordEffects ρ) Failure) : Prop :=
  ∃ data, lastRead h = some data ∧ migration = canonicalizeStoredAddresses codec data

theorem writeFingerprint_unread (file : String) (record : FingerprintFile) :
    (writeFingerprint file record : RecordTask ρ Unit).Asks
      fun op => RecordOp.unread op = true := by
  unfold writeFingerprint
  split
  · trivial
  · exact .perform rfl

theorem armAndMigrate_migrated (changed : Option ChainInstanceChange) (needs : Bool) :
    Yields code h (armAndMigrate deps files changed needs) (Migrated deps.codec) := by
  refine Yields.ask fun data _ => ?_
  refine Yields.bind (C := fun _ t => lastRead t = some data) (.unread .ofExcept) fun _ t ht => ?_
  refine Yields.bind (C := fun _ t => lastRead t = some data) ?_ fun _ t ht => ?_
  · rw [← ht]
    exact .unread (.when (writeFingerprint_unread _ _))
  refine Yields.bind (C := fun _ t => lastRead t = some data) ?_ fun _ t ht => ?_
  · rw [← ht]
    exact .unread (.when (.perform rfl))
  exact .pure ⟨data, ht, rfl⟩

theorem lockedArm_migrated (changed : Option ChainInstanceChange) (needs : Bool) :
    Yields code h (throughRecordLock files.manifestFile
      (lockedRun files.manifestFile (armAndMigrate deps files changed needs)))
      (Migrated deps.codec) := by
  refine Yields.rethrown ?_ fun e => ?_
  · refine Yields.ask fun _ _ => ?_
    refine Yields.bind (C := fun o t => ∀ a, o = .ok a → Migrated deps.codec a t) ?_
      fun o t ho => ?_
    · refine wp_attempt.mpr (wp_mono ?_ (armAndMigrate_migrated changed needs))
      rintro o t ho _ ⟨⟩
      exact ho
    refine Yields.ask fun _ _ => ?_
    cases o with
    | error e => exact Yields.throw
    | ok migration => exact .pure (ho migration rfl)
  · split <;> exact ⟨_, rfl⟩

theorem settleInstance_migrated (read : FingerprintRead) (comparison : InstanceComparison) :
    Yields code h (settleInstance deps files read comparison) fun settled =>
      Migrated deps.codec settled.1 := by
  refine Yields.bind (C := fun data t => lastRead t = some data) ?_ fun data t ht => ?_
  · refine Yields.rethrown ?_ fun e => ?_
    · refine wp_perform.mpr ⟨trivial, ?_⟩
      rintro r t ⟨-, rfl⟩ data rfl
      rfl
    · split <;> exact ⟨_, rfl⟩
  cases comparison with
  | changed change =>
    simp only
    split
    · exact Yields.throw
    · refine Yields.bind (lockedArm_migrated (some change) true) fun written t hwritten => ?_
      refine Yields.ask fun _ _ => ?_
      exact .pure hwritten
  | indeterminate because =>
    refine Yields.bind (lockedArm_migrated none true) fun written t hwritten => ?_
    exact .pure hwritten
  | same =>
    simp only
    split
    · refine Yields.bind (lockedArm_migrated none false) fun written t hwritten => ?_
      exact .pure hwritten
    · exact .pure ⟨data, ht, rfl⟩

theorem verdictsFor_yields (stored : List (ProxyDeployment ρ)) (named : List NamedAddress) :
    Yields code h (verdictsFor codec stored named) fun verdicts t =>
      verdicts = named.filterMap (verdictOf codec code stored) ∧ lastRead t = lastRead h := by
  induction named generalizing h with
  | nil => exact .pure ⟨rfl, rfl⟩
  | cons entry named ih =>
    refine wp.ofExcept_bind (fun address haddress => ?_) ?_
    · refine Yields.ask fun present hpresent => ?_
      have hpresent : present = code address := hpresent
      subst hpresent
      refine Yields.bind ih fun rest t hrest => ?_
      obtain ⟨rfl, hread⟩ := hrest
      refine .pure ⟨?_, hread⟩
      have hverdict : verdictOf codec code stored entry =
          verdictFor stored address entry.assertedKind (code address) := by
        rw [verdictOf, haddress]
        rfl
      rw [List.filterMap_cons, hverdict]
      cases verdictFor stored address entry.assertedKind (code address) <;> rfl
    · rintro e - _ ⟨⟩

/-- A session reports on the record it read last. -/
theorem openRecord_yields : Yields code h (openRecord (ρ := ρ) deps) fun session t =>
    ∃ data, lastRead t = some data ∧
      session.report.proxies = reportOf deps.codec deps.addressLe code deps.addresses data.proxies := by
  refine Yields.bind (.any _) fun location t _ => ?_
  refine Yields.bind (.any _) fun identity t _ => ?_
  refine Yields.bind (.any _) fun manifest t _ => ?_
  refine Yields.bind (.any _) fun manifestFile t _ => ?_
  refine Yields.bind (.any _) fun read t _ => ?_
  refine Yields.bind (.any _) fun recorded t _ => ?_
  refine Yields.bind (settleInstance_migrated read _) fun settled t hsettled => ?_
  obtain ⟨migration, migrated, outcome⟩ := settled
  obtain ⟨data, hread, rfl⟩ := hsettled
  refine Yields.bind (C := fun verdicts t => lastRead t = some data ∧
    verdicts = reportOf deps.codec deps.addressLe code deps.addresses data.proxies) ?_ ?_
  · refine Yields.bind (verdictsFor_yields _ deps.addresses) fun verdicts u hverdicts => ?_
    obtain ⟨rfl, hsame⟩ := hverdicts
    refine .pure ⟨hsame.trans hread, ?_⟩
    rw [canonicalizeStoredAddresses_eq]
    rfl
  · rintro verdicts u ⟨hread, rfl⟩
    exact .pure ⟨data, hread, rfl⟩

/-- The reports are a function of what was named, what was read and the code. -/
theorem Reports.eq_reportOf {named : List NamedAddress} {stored : List (ProxyDeployment ρ)}
    {verdicts : List ProxyRecordVerdict}
    (hr : Reports codec addressLe code named stored verdicts) :
    verdicts = reportOf codec addressLe code named stored := by
  obtain ⟨deps, session, h, ⟨rfl, rfl, rfl⟩, hruns, hread, rfl⟩ := hr
  obtain ⟨data, hdata, hreport⟩ := openRecord_yields.returns hruns session rfl
  rw [hdata] at hread
  rw [hreport, ← Option.some.inj hread]

end

-- ---------------------------------------------------------------------------
-- A session that opens
-- ---------------------------------------------------------------------------

/-- No fingerprint yet, the record as given, and nothing that fails. -/
def firstOpening (code : String → Bool) (data : ManifestData ρ) :
    (op : RecordOp ρ) → Except Failure ((recordEffects ρ).Reply op)
  | .manifestDir => .ok none
  | .identity => .ok nodeA
  | .hasCode address => .ok (code address)
  | .constructManifest _ => .ok "/project/.openzeppelin/unknown-1.json"
  | .readManifest _ => .ok data
  | .readFingerprintFile _ => .ok none
  | .setManifestDir _ | .lock _ | .unlock _ | .writeManifest _ _ | .writeFingerprintFile _ _
  | .disclose _ => .ok ()

section
variable {codec : AddressCodec} {addressLe : String → String → Bool} {code : String → Bool}
  {data : ManifestData ρ} {h : History (recordEffects ρ) Failure} {deps : RecordDeps}
  {files : RecordFiles} {α β : Type}

/-- Answered so, the script returns a value of `C`. -/
abbrev Completes (code : String → Bool) (data : ManifestData ρ)
    (h : History (recordEffects ρ) Failure) (x : RecordTask ρ α) (C : α → Prop) : Prop :=
  wp (.recorded fun _ event => event.reply = firstOpening code data event.op) (fun _ _ => True) x
    (fun o _ => ∃ a, o = .ok a ∧ C a) h

theorem Completes.pure {a : α} {C : α → Prop} (ha : C a) : Completes code data h (.pure a) C :=
  ⟨a, rfl, ha⟩

theorem Completes.bind {x : RecordTask ρ α} {f : α → RecordTask ρ β} {C : α → Prop} {D : β → Prop}
    (hx : Completes code data h x C) (hf : ∀ a t, C a → Completes code data t (f a) D) :
    Completes code data h (x.bind f) D := by
  refine wp.bind hx ?_ ?_
  · rintro a t ⟨_, ⟨⟩, ha⟩
    exact hf a t ha
  · rintro e t ⟨a, ⟨⟩, -⟩

theorem Completes.ask {op : RecordOp ρ} {a : (recordEffects ρ).Reply op}
    {f : (recordEffects ρ).Reply op → RecordTask ρ β} {D : β → Prop}
    (ha : firstOpening code data op = .ok a) (next : ∀ t, Completes code data t (f a) D) :
    Completes code data h ((ask op).bind f) D := by
  refine wp.ask trivial (fun a' ha' => ?_) fun e he => ?_
  · have heq : Except.ok a' = .ok a := ha'.trans ha
    cases heq
    exact next _
  · have heq : Except.error e = .ok a := he.trans ha
    cases heq

theorem Completes.perform {op : RecordOp ρ} {a : (recordEffects ρ).Reply op}
    (ha : firstOpening code data op = .ok a) :
    Completes code data h (TronUpgrades.Record.ask op) fun _ => True := by
  refine wp_perform.mpr ⟨trivial, ?_⟩
  rintro r t ⟨hr, -⟩
  exact ⟨a, hr.trans ha, trivial⟩

theorem Completes.catching {x : RecordTask ρ α} {handler : Failure → RecordTask ρ α} {C : α → Prop}
    (hx : Completes code data h x C) : Completes code data h (x.catching handler) C := by
  refine wp.catching hx (fun a t ha => ha) ?_
  rintro e t ⟨a, ⟨⟩, -⟩

theorem armAndMigrate_completes :
    Completes code data h (armAndMigrate deps files none true) fun _ => True := by
  refine Completes.ask rfl fun t => ?_
  refine Completes.bind (C := fun _ => True) (wp_ofExcept.mpr ⟨_, rfl, trivial⟩) fun _ t _ => ?_
  refine Completes.bind (C := fun _ => True) (wp.when (fun _ => ?_) fun hfalse => absurd rfl hfalse)
    fun _ t _ => ?_
  · have hp := fingerprintFor_persistable files.identity
    simp only [writeFingerprint, hp, Bool.not_true, Bool.false_eq_true, ↓reduceIte]
    exact Completes.perform rfl
  refine Completes.bind (C := fun _ => True) (wp.when (fun _ => Completes.perform rfl)
    fun _ => ⟨_, rfl, trivial⟩) fun _ t _ => ?_
  exact Completes.pure trivial

theorem settleInstance_completes (read : FingerprintRead) (because : IndeterminateCause) :
    Completes code data h (settleInstance deps files read (.indeterminate because))
      fun _ => True := by
  refine Completes.bind (.catching (Completes.perform rfl)) fun data t _ => ?_
  refine Completes.bind (C := fun _ => True) (Completes.catching ?_) fun written t _ =>
    Completes.pure trivial
  refine Completes.ask rfl fun t => ?_
  refine Completes.bind (C := fun o => ∃ m, o = .ok m) (wp_attempt.mpr ?_) ?_
  · refine wp_mono ?_ armAndMigrate_completes
    rintro o t ⟨m, rfl, -⟩
    exact ⟨_, rfl, m, rfl⟩
  · rintro o t ⟨m, rfl⟩
    exact Completes.ask rfl fun t => Completes.pure trivial

theorem verdictsFor_completes {named : List NamedAddress} (accepted : AllAccepted codec named)
    (stored : List (ProxyDeployment ρ)) :
    Completes code data h (verdictsFor codec stored named) fun _ => True := by
  induction named generalizing h with
  | nil => exact Completes.pure trivial
  | cons entry named ih =>
    obtain ⟨body, hbody⟩ := accepted entry List.mem_cons_self
    have rest : AllAccepted codec named := fun entry h => accepted entry (List.mem_cons_of_mem _ h)
    rw [verdictsFor, hbody]
    refine Completes.ask rfl fun t => ?_
    exact Completes.bind (ih rest) fun verdicts t _ => Completes.pure trivial

theorem openRecord_completes {named : List NamedAddress} (accepted : AllAccepted codec named) :
    Completes code data h (openRecord (ρ := ρ)
      { sampleDeps with codec, addressLe, addresses := named }) fun _ => True := by
  refine Completes.bind (C := fun location => location = ⟨"/project/.openzeppelin"⟩) ?_ ?_
  · refine Completes.ask rfl fun t => ?_
    exact Completes.ask rfl fun t => Completes.pure rfl
  rintro location t rfl
  refine Completes.ask rfl fun t => ?_
  refine Completes.bind (C := fun file => file = "/project/.openzeppelin/unknown-1.json") ?_ ?_
  · refine Completes.bind (C := fun _ => True) (wp_ofExcept.mpr ⟨_, rfl, trivial⟩)
      fun n t _ => ?_
    refine wp_perform.mpr ⟨trivial, ?_⟩
    rintro r t ⟨hr, -⟩
    exact ⟨_, hr, rfl⟩
  rintro manifest t rfl
  refine Completes.bind (C := fun _ => True) (wp_ofExcept.mpr ⟨_, rfl, trivial⟩)
    fun manifestFile t _ => ?_
  refine Completes.bind (C := fun read => read = .absent)
    (Completes.ask rfl fun t => Completes.pure rfl) ?_
  rintro read t rfl
  refine Completes.bind (C := fun recorded => recorded = none) (Completes.pure rfl) ?_
  rintro recorded t rfl
  refine Completes.bind (settleInstance_completes _ .noRecordedIdentity) fun settled t _ => ?_
  refine Completes.bind (C := fun _ => True) ?_ fun verdicts t _ => Completes.pure trivial
  exact Completes.bind (verdictsFor_completes accepted _) fun verdicts t _ => Completes.pure trivial

theorem lastRead_mem {data : ManifestData ρ} (hd : lastRead h = some data) :
    ∃ file, (⟨.readManifest file, .ok data⟩ : Event (recordEffects ρ) Failure) ∈ h := by
  obtain ⟨event, hevent, heq⟩ := List.exists_of_findSome?_eq_some hd
  obtain ⟨op, r⟩ := event
  cases op with
  | readManifest file =>
    cases r with
    | ok found =>
      cases heq
      exact ⟨file, hevent⟩
    | error e => cases heq
  | _ => cases heq

/-- Every list of accepted spellings is reported on, over every record. -/
theorem reports_reportOf {named : List NamedAddress} (accepted : AllAccepted codec named)
    (stored : List (ProxyDeployment ρ)) :
    Reports codec addressLe code named stored (reportOf codec addressLe code named stored) := by
  let deps : RecordDeps := { sampleDeps with codec, addressLe, addresses := named }
  let data : ManifestData ρ := ⟨[], stored, none⟩
  have hruns : Script.Reaches (.recorded fun _ event =>
      event.reply = firstOpening code data event.op) _ _ :=
    reaches_answering (fun _ op => firstOpening code data op) (fun _ _ => rfl) (openRecord deps) []
  obtain ⟨session, hsession, -⟩ := (openRecord_completes accepted).ends hruns
  rw [hsession] at hruns
  have tells : Script.Reaches (codeWorld code) _ _ :=
    reaches_answering (fun _ op => firstOpening code data op)
      (fun _ op => by cases op <;> trivial) (openRecord deps) []
  rw [hsession] at tells
  obtain ⟨read, hread, hreport⟩ := openRecord_yields.returns tells session rfl
  obtain ⟨file, hevent⟩ := lastRead_mem hread
  have hanswered := hruns.lawful (by simp) _ hevent
  have hanswered : Except.ok read = .ok data := hanswered
  cases hanswered
  refine ⟨deps, session, _, ⟨rfl, rfl, rfl⟩, tells, ?_, hreport⟩
  rw [hread]
  rfl

end

/-- The verdicts are the reconciliation whatever the order of the record and
of the call, exactly where the entries for each address agree. -/
theorem reconciled_iff {codec : AddressCodec} {addressLe : String → String → Bool}
    (correct : CorrectCodec codec) (order : AddressOrder codec addressLe) (code : String → Bool)
    {named : List NamedAddress} (accepted : AllAccepted codec named)
    (stored : List (ProxyDeployment ρ)) :
    Reconciled codec addressLe code named stored ↔ Unambiguous codec code named stored := by
  constructor
  · intro reconciled
    refine unambiguous_of_reportOf correct order accepted fun named' stored' hnamed hstored => ?_
    have accepted' : AllAccepted codec named' :=
      fun entry hentry => accepted entry (hnamed.mem_iff.mp hentry)
    exact reconciled.unchanged named' stored' _ _ hnamed hstored (reports_reportOf accepted stored)
      (reports_reportOf accepted' stored')
  · intro clear
    refine ⟨⟨_, reports_reportOf accepted stored⟩, fun verdicts hr => ?_, ?_⟩
    · rw [hr.eq_reportOf]
      exact reportOf_reconciles correct order accepted stored
    · intro named' stored' verdicts verdicts' hnamed hstored hr hr'
      rw [hr.eq_reportOf, hr'.eq_reportOf]
      exact reportOf_congr correct order accepted clear hnamed hstored

/-- The order of the code points, in the place of `localeCompare`. -/
def codePointLe : String → String → Bool := Keyed.precedes compare id

theorem codePointLe_order (codec : AddressCodec) : AddressOrder codec codePointLe where
  trans := Keyed.precedes_trans
  total := Keyed.precedes_total
  antisymm a b _ _ hab hba := by
    have heq : compare a b = .eq := Std.OrientedCmp.isLE_antisymm hab hba
    exact Std.LawfulEqCmp.eq_of_compare heq

def ones : AddressBody := ⟨List.replicate 40 '1', rfl, by decide⟩

def twos : AddressBody := ⟨List.replicate 40 '2', rfl, by decide⟩

/-- A recorded address, and one of which only the caller knows the kind. -/
def namedBoth : List NamedAddress :=
  [⟨ones.spelling (base58CheckCodec zeroChecksum) (.evmHex .lower), none⟩,
    ⟨twos.spelling (base58CheckCodec zeroChecksum) (.tronHex .lower), some .transparent⟩]

/-- One proxy stored under two spellings of its address. -/
def spelledTwice : List (ProxyDeployment Unit) :=
  [⟨ones.spelling (base58CheckCodec zeroChecksum) (.tronHex .lower), .uups, ()⟩,
    ⟨ones.spelling (base58CheckCodec zeroChecksum) (.evmHex .lower), .uups, ()⟩]

/-- Its entries agree, so no order of them or of the call changes the verdicts. -/
theorem spelledTwice_reconciled :
    Reconciled (base58CheckCodec zeroChecksum) codePointLe (fun _ => true) namedBoth spelledTwice ∧
    ∃ verdicts,
      Reports (base58CheckCodec zeroChecksum) codePointLe (fun _ => true) namedBoth spelledTwice
        verdicts ∧
      Reports (base58CheckCodec zeroChecksum) codePointLe (fun _ => true) namedBoth.reverse
        spelledTwice.reverse verdicts := by
  have correct : CorrectCodec (base58CheckCodec zeroChecksum) := base58CheckCodec_correct
  have hones := canonicalizeAddress_spelling correct ones (.evmHex .lower)
  have htwos := canonicalizeAddress_spelling correct twos (.tronHex .lower)
  have hne : ones.eip55 (base58CheckCodec zeroChecksum) ≠
      twos.eip55 (base58CheckCodec zeroChecksum) := by decide
  have accepted : AllAccepted (base58CheckCodec zeroChecksum) namedBoth := by
    rintro entry (⟨⟩ | ⟨_, (⟨⟩ | ⟨_, ⟨⟩⟩)⟩)
    · exact ⟨ones, hones⟩
    · exact ⟨twos, htwos⟩
  have clear : Unambiguous (base58CheckCodec zeroChecksum) (fun _ => true) namedBoth
      spelledTwice := by
    refine ⟨fun _ _ _ _ p hp q hq _ _ => ?_, fun _ _ _ left hleft right hright hl hr => ?_⟩
    · have uups : ∀ p ∈ spelledTwice, p.kind = .uups := by decide
      rw [uups p hp, uups q hq]
    · rcases hleft with ⟨⟩ | ⟨_, (⟨⟩ | ⟨_, ⟨⟩⟩)⟩ <;> rcases hright with ⟨⟩ | ⟨_, (⟨⟩ | ⟨_, ⟨⟩⟩)⟩
      · rfl
      · exact absurd (Except.ok.inj ((hones.symm.trans hl).trans (hr.symm.trans htwos))) hne
      · exact absurd (Except.ok.inj ((hones.symm.trans hr).trans (hl.symm.trans htwos))) hne
      · rfl
  have reconciled := (reconciled_iff correct (codePointLe_order _) (fun _ => true) accepted
    spelledTwice).mpr clear
  obtain ⟨verdicts, hverdicts⟩ := reconciled.reported
  have accepted' : AllAccepted (base58CheckCodec zeroChecksum) namedBoth.reverse :=
    fun entry hentry => accepted entry (List.mem_reverse.mp hentry)
  have hreversed : Reports (base58CheckCodec zeroChecksum) codePointLe (fun _ => true)
      namedBoth.reverse spelledTwice.reverse _ := reports_reportOf accepted' spelledTwice.reverse
  refine ⟨reconciled, verdicts, hverdicts, ?_⟩
  rwa [reconciled.unchanged _ _ _ _ (List.reverse_perm _) (List.reverse_perm _) hverdicts
    hreversed] at hreversed

/-- One address stored twice, under two kinds: the kind reported is the first. -/
theorem recordedTwice_unreconciled :
    let codec := base58CheckCodec zeroChecksum
    let a := "0x1111111111111111111111111111111111111111"
    Reports codec codePointLe (fun _ => true) [⟨a, none⟩] twiceRecorded.proxies
      [⟨a, .authoritative, .fromRecord, some .transparent⟩] ∧
    Reports codec codePointLe (fun _ => true) [⟨a, none⟩] twiceRecorded.proxies.reverse
      [⟨a, .authoritative, .fromRecord, some .uups⟩] ∧
    ¬ Reconciled codec codePointLe (fun _ => true) [⟨a, none⟩] twiceRecorded.proxies := by
  intro codec a
  have accepted : AllAccepted codec [⟨a, none⟩] := by
    intro entry hentry
    rw [List.mem_singleton.mp hentry]
    exact ⟨ones, canonicalizeAddress_spelling base58CheckCodec_correct ones (.evmHex .lower)⟩
  have first : reportOf codec codePointLe (fun _ => true) [⟨a, none⟩] twiceRecorded.proxies =
      [⟨a, .authoritative, .fromRecord, some .transparent⟩] := by
    have hlisted : [(⟨a, none⟩ : NamedAddress)].filterMap (verdictOf codec (fun _ => true)
        (settledProxies codec twiceRecorded.proxies)) =
          [⟨a, .authoritative, .fromRecord, some .transparent⟩] := by decide
    rw [reportOf, hlisted, List.mergeSort_singleton]
  have second : reportOf codec codePointLe (fun _ => true) [⟨a, none⟩]
      twiceRecorded.proxies.reverse = [⟨a, .authoritative, .fromRecord, some .uups⟩] := by
    have hlisted : [(⟨a, none⟩ : NamedAddress)].filterMap (verdictOf codec (fun _ => true)
        (settledProxies codec twiceRecorded.proxies.reverse)) =
          [⟨a, .authoritative, .fromRecord, some .uups⟩] := by decide
    rw [reportOf, hlisted, List.mergeSort_singleton]
  have hfirst := first ▸ reports_reportOf accepted twiceRecorded.proxies
  have hsecond := second ▸ reports_reportOf accepted twiceRecorded.proxies.reverse
  refine ⟨hfirst, hsecond, fun reconciled => ?_⟩
  have hsame := reconciled.unchanged _ _ _ _ (.refl _) (List.reverse_perm _) hfirst hsecond
  revert hsame
  decide

end TronUpgrades.Record
