import TronUpgrades.Record.Location

/-!
# The record session

`openRecord`: anchor the record, compare the chain with the fingerprint,
refuse or re-arm, migrate stored addresses, report. The order of its steps is
the design; the atomic ones are the operations of `RecordOp`.
-/

namespace TronUpgrades.Record

open Effects Chain Address

variable {ρ : Type}

/-- `error.code === 'ELOCKED'` becomes the named refusal; nothing else does. -/
def throughRecordLock {S : Signature} (file : String) (action : Script S Failure α) :
    Script S Failure α :=
  tryCatch action fun error =>
    if error.isLockContention then throw (.recordLocked file error.detailOf) else throw error

def throughRecordRead {S : Signature} (file : String) (action : Script S Failure α) :
    Script S Failure α :=
  tryCatch action fun error =>
    if error.isLockContention then throw (.recordLocked file error.detailOf)
    else throw (.recordUnreadable file
      (if error.isSyntaxError then .notJson else .contentsRefused) error.detailOf)

/-- The engine's `lockedRun`: the lock is given back on both ways out. -/
def lockedRun (file : String) (cb : RecordTask ρ α) : RecordTask ρ α := do
  ask (.lock file)
  let outcome ← cb.attempt
  ask (.unlock file)
  Script.ofExcept outcome

def readFingerprintAt (file : String) : RecordTask ρ FingerprintRead := do
  let content ← ask (.readFingerprintFile file)
  return readFingerprint content

def writeFingerprint (file : String) (record : FingerprintFile) : RecordTask ρ Unit := do
  if !record.persistable then
    throw (.error "the chain fingerprint being written is not two full 32-byte hashes")
  ask (.writeFingerprintFile file record)

/-- Until the first proxy that holds code. -/
def anyProxyLive : List (ProxyDeployment ρ) → RecordTask ρ FingerprintRefusalDiagnosis
  | [] => return .proxiesAbsent
  | proxy :: proxies => do
    let code : Bool ← ask (.hasCode proxy.address)
    if code then return .proxiesLive
    anyProxyLive proxies

/-- Any failure inside the diagnosis is the diagnosis `indeterminate`. -/
def diagnoseFingerprintRefusal (manifestFile : String) :
    RecordTask ρ FingerprintRefusalDiagnosis :=
  tryCatch (do
    let data ← ask (.readManifest manifestFile)
    if data.proxies.isEmpty then return .noProxies
    anyProxyLive data.proxies) fun _ => return .indeterminate

structure RecordDeps where
  path : PathModule
  codec : AddressCodec
  addressLe : String → String → Bool
  root : String
  addresses : List NamedAddress

/-- The two files of one record, and the instance a run observed. -/
structure RecordFiles where
  manifestFile : String
  fingerprintFile : String
  identity : ChainInstanceIdentity

def RecordFiles.instanceChanged (files : RecordFiles) (change : ChainInstanceChange)
    (data : ManifestData ρ) : Failure :=
  .chainInstanceChanged change files.manifestFile (recordCount data)
    files.identity.observedThrough files.fingerprintFile

structure RecordSession extends RecordFiles where
  report : ReplayReconciliationReport

/-- The emptiness that routed a changed instance here may be stale. -/
def RecordFiles.assertStillEmpty (files : RecordFiles) (data : ManifestData ρ) :
    Option ChainInstanceChange → Except Failure Unit
  | none => .ok ()
  | some change =>
    if recordCount data > 0 then .error (files.instanceChanged change data) else .ok ()

/-- Step 6, under the lock: re-read first, then the re-check, the fingerprint,
the migration. -/
def armAndMigrate (deps : RecordDeps) (files : RecordFiles)
    (changedComparison : Option ChainInstanceChange) (needsFingerprint : Bool) :
    RecordTask ρ (StoredAddressMigration ρ) := do
  let data ← ask (.readManifest files.manifestFile)
  let locked := canonicalizeStoredAddresses deps.codec data
  Script.ofExcept (files.assertStillEmpty locked.data changedComparison)
  .when needsFingerprint
    (writeFingerprint files.fingerprintFile (fingerprintFor files.identity))
  .when (locked.rewritten > 0) (ask (.writeManifest files.manifestFile locked.data))
  return locked

/-- Steps 4 to 6, from the comparison's verdict on: what was migrated, and how
the instance check ended. -/
def settleInstance (deps : RecordDeps) (files : RecordFiles) (read : FingerprintRead)
    (comparison : InstanceComparison) :
    RecordTask ρ (StoredAddressMigration ρ × Nat × InstanceOutcome) := do
  let data ← throughRecordRead files.manifestFile (ask (.readManifest files.manifestFile))
  let migration := canonicalizeStoredAddresses deps.codec data
  match comparison with
  | .changed change =>
    if recordCount data ≠ 0 then throw (files.instanceChanged change data)
    else do
      let written ← throughRecordLock files.manifestFile
        (lockedRun files.manifestFile (armAndMigrate deps files (some change) true))
      ask (.disclose "chain fingerprint re-armed")
      return (written, written.rewritten, .rearmed)
  | .indeterminate because =>
    let written ← throughRecordLock files.manifestFile
      (lockedRun files.manifestFile (armAndMigrate deps files none true))
    return (written, written.rewritten, instanceOutcomeOf read (.indeterminate because))
  | .same =>
    if migration.rewritten > 0 then do
      let written ← throughRecordLock files.manifestFile
        (lockedRun files.manifestFile (armAndMigrate deps files none false))
      return (written, written.rewritten, .same)
    else return (migration, 0, .same)

/-- A fingerprint that exists and cannot be used is refused, with a diagnosis. -/
def usableFingerprint (files : RecordFiles) : FingerprintRead →
    RecordTask ρ (Option RecordedChainInstance)
  | .absent => return none
  | .record record => return some record
  | .unreadable because => do
    let diagnosis ← diagnoseFingerprintRefusal files.manifestFile
    throw (.recordFingerprintUnreadable files.fingerprintFile because diagnosis)

def openRecord (deps : RecordDeps) : RecordTask ρ RecordSession := do
  let location ← configureRecordLocation deps.path deps.root
  let identity : ChainInstanceIdentity ← ask .identity
  let manifest ← openRecordManifest identity.chainId
  let manifestFile ← Script.ofExcept (assertRecordLocation deps.path location manifest)
  let files := ⟨manifestFile, fingerprintPathFor deps.path manifestFile, identity⟩
  let read ← readFingerprintAt files.fingerprintFile
  let recorded ← usableFingerprint files read
  let comparison := compareChainInstance recorded identity.toChainInstance
  let (migration, addressesMigrated, outcome) ← settleInstance deps files read comparison
  let verdicts ← reconcileProxies deps.codec deps.addressLe deps.addresses migration.data.proxies
  return ⟨files, identity.chainId, outcome, addressesMigrated, migration.unmigratable, verdicts⟩

-- ---------------------------------------------------------------------------
-- The session's accessors
-- ---------------------------------------------------------------------------

namespace RecordSession

variable (codec : AddressCodec) (session : RecordSession)

/-- The engine's lookups compare exact strings and throw on a miss, which its
handle here answers as absence. -/
def getProxyRecord (address : String) : RecordTask ρ (Option (ProxyDeployment ρ)) := do
  let key ← Script.ofExcept (canonicalizeAddress codec address)
  throughRecordRead session.manifestFile do
    let data ← ask (.readManifest session.manifestFile)
    return storedRecordFor data.proxies key

def getImplRecord (address : String) : RecordTask ρ (Option (ImplDeployment ρ)) := do
  let key ← Script.ofExcept (canonicalizeAddress codec address)
  throughRecordRead session.manifestFile do
    let data ← ask (.readManifest session.manifestFile)
    return (data.impls.map (·.2)).find? fun impl =>
      impl.address == key || (impl.allAddresses.getD []).contains key

/-- A read-modify-write of the manifest as the engine makes it, under the lock. -/
def writeRecord (change : ManifestData ρ → ManifestData ρ) : RecordTask ρ Unit :=
  throughRecordRead session.manifestFile <| lockedRun session.manifestFile do
    let data ← ask (.readManifest session.manifestFile)
    ask (.writeManifest session.manifestFile (change data))

/-- The engine's `addProxy`: one record for an address, the last added. -/
def withProxy (record : ProxyDeployment ρ) (data : ManifestData ρ) : ManifestData ρ :=
  { data with proxies := data.proxies.filter (·.address != record.address) ++ [record] }

def addProxyRecord (rest : ρ) (address : String) (kind : ProxyKind) : RecordTask ρ Unit := do
  let key ← Script.ofExcept (canonicalizeAddress codec address)
  session.writeRecord (withProxy ⟨key, kind, rest⟩)

end RecordSession

end TronUpgrades.Record
