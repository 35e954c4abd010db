import TronUpgrades.Effects.World
import TronUpgrades.Record.Manifest

/-!
# The record's surroundings, and verdicts on stored proxies

The operations a record session asks for, one for each step that is atomic on
disk, and the part of the preflight that only reads: code presence for the
addresses an operation names.
-/

namespace TronUpgrades.Record

open Effects Chain Address

inductive RecordOp (ρ : Type)
  -- the process environment
  | manifestDir
  | setManifestDir (dir : String)
  -- the chain seam
  | identity
  | hasCode (address : String)
  -- the engine's record handle: its file, its lock, its atomic reads and writes
  | constructManifest (chainId : Nat)
  | lock (file : String)
  | unlock (file : String)
  | readManifest (file : String)
  | writeManifest (file : String) (data : ManifestData ρ)
  -- the fingerprint file, written beside and renamed over
  | readFingerprintFile (file : String)
  | writeFingerprintFile (file : String) (record : FingerprintFile)
  | disclose (title : String)

def recordEffects (ρ : Type) : Signature where
  Op := RecordOp ρ
  Reply
    | .manifestDir => Option String
    | .identity => ChainInstanceIdentity
    | .hasCode _ => Bool
    | .constructManifest _ => String
    | .readManifest _ => ManifestData ρ
    | .readFingerprintFile _ => Option FileContent
    | _ => Unit

abbrev RecordTask (ρ : Type) := Script (recordEffects ρ) Failure

/-- An operation of the session, at the type its reply has. -/
def ask {ρ : Type} (op : RecordOp ρ) : RecordTask ρ ((recordEffects ρ).Reply op) :=
  Script.perform (S := recordEffects ρ) op

inductive ProxyRecordStatus
  | authoritative | noCodeAtAddress | unrecorded
  deriving DecidableEq, Repr

inductive KindProvenance
  | fromRecord | inferredByEngine | assertedByCaller
  deriving DecidableEq, Repr

structure ProxyRecordVerdict where
  address : String
  status : ProxyRecordStatus
  kindProvenance : KindProvenance
  kind : Option ProxyKind
  deriving DecidableEq, Repr

structure NamedAddress where
  address : String
  assertedKind : Option ProxyKind := none

def unrecordedVerdict (address : String) : Option ProxyKind → ProxyRecordVerdict
  | none => ⟨address, .unrecorded, .inferredByEngine, none⟩
  | some kind => ⟨address, .unrecorded, .assertedByCaller, some kind⟩

/-- Exact string equality, as the engine's own lookup compares. -/
def storedRecordFor (stored : List (ProxyDeployment ρ)) (address : String) :
    Option (ProxyDeployment ρ) :=
  stored.find? (·.address == address)

def verdictFor (stored : List (ProxyDeployment ρ)) (address : String)
    (assertedKind : Option ProxyKind) (code : Bool) : Option ProxyRecordVerdict :=
  match storedRecordFor stored address with
  | none => if code then some (unrecordedVerdict address assertedKind) else none
  | some record =>
    some ⟨address, if code then .authoritative else .noCodeAtAddress, .fromRecord,
      some record.kind⟩

/-- The verdicts in the order the addresses were named. -/
def verdictsFor (codec : AddressCodec) (stored : List (ProxyDeployment ρ)) :
    List NamedAddress → RecordTask ρ (List ProxyRecordVerdict)
  | [] => return []
  | entry :: named => do
    let address ← Script.ofExcept (canonicalizeAddress codec entry.address)
    let code ← ask (.hasCode address)
    let rest ← verdictsFor codec stored named
    return (verdictFor stored address entry.assertedKind code).toList ++ rest

/-- `addressLe` is `localeCompare` of two addresses. -/
def reconcileProxies (codec : AddressCodec) (addressLe : String → String → Bool)
    (named : List NamedAddress) (stored : List (ProxyDeployment ρ)) :
    RecordTask ρ (List ProxyRecordVerdict) := do
  let verdicts ← verdictsFor codec stored named
  return verdicts.mergeSort fun left right => addressLe left.address right.address

-- ---------------------------------------------------------------------------
-- The report
-- ---------------------------------------------------------------------------

inductive InstanceIndeterminateCause
  | noRecordedIdentity | recordedIdentityIncomplete | fingerprintUnreadable
  deriving DecidableEq, Repr

inductive IncompleteFingerprintField
  | genesisHash | firstBlockHash
  deriving DecidableEq, Repr

inductive InstanceOutcome
  | same
  | indeterminate (because : InstanceIndeterminateCause)
      (incompleteField : Option IncompleteFingerprintField)
  | rearmed
  deriving DecidableEq, Repr

/-- A comparison that did not refuse. -/
inductive SettledInstanceComparison
  | same
  | indeterminate (because : IndeterminateCause)
  deriving DecidableEq, Repr

/-- `genesisHash` by value and first, `firstBlockHash` by key presence. -/
def incompleteFieldOf (recorded : RecordedChainInstance) : Option IncompleteFingerprintField :=
  if recorded.genesisHash.isNone then some .genesisHash
  else if recorded.firstBlockHash.isNone then some .firstBlockHash
  else none

def instanceOutcomeOf (read : FingerprintRead) : SettledInstanceComparison → InstanceOutcome
  | .same => .same
  | .indeterminate because =>
    match read, because with
    | .unreadable _, _ => .indeterminate .fingerprintUnreadable none
    | .record recorded, .recordedIdentityIncomplete =>
      .indeterminate .recordedIdentityIncomplete (incompleteFieldOf recorded)
    | _, .recordedIdentityIncomplete => .indeterminate .recordedIdentityIncomplete none
    | _, .noRecordedIdentity => .indeterminate .noRecordedIdentity none

structure ReplayReconciliationReport where
  chainId : String
  instanceOutcome : InstanceOutcome
  addressesMigrated : Nat
  addressesUnmigratable : Nat
  proxies : List ProxyRecordVerdict

end TronUpgrades.Record
