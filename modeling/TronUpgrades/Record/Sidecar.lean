import TronUpgrades.Chain.Instance
import TronUpgrades.Json

/-!
# The fingerprint file

The file beside the manifest that names the chain instance its records were
written on: what is written for an identity, and the total reader of whatever
is found there. `readFingerprint_fingerprintFor` is the round trip.
-/

namespace TronUpgrades.Record

open Chain Text

inductive FingerprintUnreadableCause
  | notJson | notAnObject | unrecognisedSchema | chainIdUnusable | hashFieldUnusable
  | unexpectedKeys | unreadableFile
  deriving DecidableEq, Repr

inductive FingerprintRead
  | absent
  | unreadable (because : FingerprintUnreadableCause)
  | record (record : RecordedChainInstance)
  deriving DecidableEq, Repr

/-- A file that exists, as reading and parsing it turns out. -/
inductive FileContent
  | unreadableFile
  | notJson
  | json (value : Json)

def fingerprintSchema : Int := 1

/-- The four keys, and only these four. -/
def fingerprintKeys : List String := ["schema", "chainId", "genesisHash", "firstBlockHash"]

structure FingerprintFile where
  chainId : String
  genesisHash : String
  firstBlockHash : Option String
  deriving DecidableEq, Repr

def fingerprintFor (identity : ChainInstanceIdentity) : FingerprintFile :=
  ⟨identity.chainId, identity.genesisHash, identity.firstBlockHash⟩

/-- The file's contents: an absent first block is an explicit `null`. -/
def FingerprintFile.toJson (file : FingerprintFile) : Json :=
  .obj [("schema", .num fingerprintSchema), ("chainId", .str file.chainId),
    ("genesisHash", .str file.genesisHash),
    ("firstBlockHash", file.firstBlockHash.elim .null .str)]

/-- `assertPersistableWidth`: two full hashes, the second possibly absent. -/
def FingerprintFile.persistable (file : FingerprintFile) : Bool :=
  isBlockHash file.genesisHash && file.firstBlockHash.all isBlockHash

/-- A hash field that is present must be a hash. -/
def hashField (value : Json) : Except FingerprintUnreadableCause String :=
  match value with
  | .str hash => if isBlockHash hash then .ok hash else .error .hashFieldUnusable
  | _ => .error .hashFieldUnusable

def genesisField : Option Json → Except FingerprintUnreadableCause (Option String)
  | none => .ok none
  | some value => do return some (← hashField value)

/-- Assigned whether it is `null` or a hash: key presence is the signal. -/
def firstBlockField : Option Json → Except FingerprintUnreadableCause (Option (Option String))
  | none => .ok none
  | some .null => .ok (some none)
  | some value => do return some (some (← hashField value))

def validateFields (raw : List (String × Json)) :
    Except FingerprintUnreadableCause RecordedChainInstance := do
  let .num schema := (Json.get? raw "schema").getD .null | throw .unrecognisedSchema
  if schema ≠ fingerprintSchema then throw .unrecognisedSchema
  if raw.any fun field => !fingerprintKeys.contains field.1 then throw .unexpectedKeys
  let .str chainId := (Json.get? raw "chainId").getD .null | throw .chainIdUnusable
  if !isHexQuantity chainId then throw .chainIdUnusable
  let genesisHash ← genesisField (Json.get? raw "genesisHash")
  let firstBlockHash ← firstBlockField (Json.get? raw "firstBlockHash")
  return ⟨chainId, genesisHash, firstBlockHash⟩

def validateFingerprint (parsed : Json) : FingerprintRead :=
  match parsed with
  | .obj raw =>
    match validateFields raw with
    | .ok record => .record record
    | .error because => .unreadable because
  | _ => .unreadable .notAnObject

def readFingerprint : Option FileContent → FingerprintRead
  | none => .absent
  | some .unreadableFile => .unreadable .unreadableFile
  | some .notJson => .unreadable .notJson
  | some (.json value) => validateFingerprint value

theorem fingerprintFor_persistable (i : ChainInstanceIdentity) :
    (fingerprintFor i).persistable = true := by
  obtain ⟨⟨_, _, _ | first⟩, _, _, hg, hf⟩ := i
  · simpa [FingerprintFile.persistable, fingerprintFor] using hg.1
  · simpa [FingerprintFile.persistable, fingerprintFor] using ⟨hg.1, (hf first rfl).1⟩

theorem hashField_ok {hash : String} (h : isBlockHash hash = true) :
    hashField (.str hash) = .ok hash := by
  simp [hashField, h]

theorem validateFields_ok (hc : isHexQuantity chainId = true)
    (hg : genesisField (some genesis) = .ok genesisHash)
    (hf : firstBlockField (some first) = .ok firstBlockHash) :
    validateFields [("schema", .num fingerprintSchema), ("chainId", .str chainId),
      ("genesisHash", genesis), ("firstBlockHash", first)] =
      .ok ⟨chainId, genesisHash, firstBlockHash⟩ := by
  simp [validateFields, Json.get?, fingerprintKeys, hc, hg, hf, bind, Except.bind, pure,
    Except.pure]

/-- What is written for an identity reads back as that identity. -/
theorem readFingerprint_fingerprintFor (i : ChainInstanceIdentity) :
    readFingerprint (some (.json (fingerprintFor i).toJson)) = .record i.recorded := by
  have hgenesis : genesisField (some (.str i.genesisHash)) = .ok (some i.genesisHash) := by
    rw [genesisField, hashField_ok i.genesisHash_canonical.1]
    rfl
  have hfirst : firstBlockField (some ((fingerprintFor i).firstBlockHash.elim .null .str)) =
      .ok (some i.firstBlockHash) := by
    have hf := i.firstBlockHash_canonical
    simp only [fingerprintFor]
    cases h : i.firstBlockHash with
    | none => rfl
    | some first =>
      simp only [Option.elim, firstBlockField]
      rw [hashField_ok (hf first h).1]
      rfl
  have hfields := validateFields_ok i.chainId_canonical.1 hgenesis hfirst
  simp only [readFingerprint, validateFingerprint, FingerprintFile.toJson]
  rw [show (fingerprintFor i).chainId = i.chainId from rfl,
    show (fingerprintFor i).genesisHash = i.genesisHash from rfl, hfields]
  rfl

end TronUpgrades.Record
