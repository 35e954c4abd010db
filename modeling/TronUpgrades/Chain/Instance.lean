import TronUpgrades.Text

/-!
# The chain instance and its comparator

A chain instance is known by its chain id and the hashes of its first two
blocks. `compareChainInstance` is the decision every record session starts
from; `compareChainInstance_same` and `compareChainInstance_indeterminate` say
of two instances what lets a session write.
-/

namespace TronUpgrades.Chain

open Text

/-- The three observed values that name a chain instance. -/
structure ChainInstance where
  chainId : String
  genesisHash : String
  firstBlockHash : Option String
  deriving DecidableEq, Repr

/-- A block hash in the form the chain layer returns it. -/
def CanonicalHash (hash : String) : Prop :=
  isBlockHash hash = true ∧ canonicalHash hash = hash

instance (hash : String) : Decidable (CanonicalHash hash) := by
  unfold CanonicalHash
  infer_instance

def CanonicalChainId (id : String) : Prop :=
  isHexQuantity id = true ∧ canonicalChainId id = id

instance (id : String) : Decidable (CanonicalChainId id) := by
  unfold CanonicalChainId
  infer_instance

/-- What `readChainInstanceIdentity` answers: every field canonical. -/
structure ChainInstanceIdentity extends ChainInstance where
  /-- Scrubbed endpoint that answered; never compared. -/
  observedThrough : String
  chainId_canonical : CanonicalChainId chainId
  genesisHash_canonical : CanonicalHash genesisHash
  firstBlockHash_canonical : ∀ hash ∈ firstBlockHash, CanonicalHash hash

/-- A fingerprint as it was read back: a hash field may be missing, and a
`firstBlockHash` that is present may be `null`. -/
structure RecordedChainInstance where
  chainId : String
  genesisHash : Option String
  firstBlockHash : Option (Option String)
  deriving DecidableEq, Repr

inductive Signal
  | chainId | genesisHash | firstBlockHash
  deriving DecidableEq, Repr

structure ChainInstanceChange where
  signal : Signal
  recorded : Option String
  observed : Option String
  deriving DecidableEq, Repr

inductive IndeterminateCause
  | noRecordedIdentity | recordedIdentityIncomplete
  deriving DecidableEq, Repr

inductive InstanceComparison
  | same
  | changed (change : ChainInstanceChange)
  | indeterminate (because : IndeterminateCause)
  deriving DecidableEq, Repr

/-- Signals in the order chain id, genesis hash, first block hash. -/
def compareChainInstance (recorded : Option RecordedChainInstance)
    (observed : ChainInstance) : InstanceComparison :=
  match recorded with
  | none => .indeterminate .noRecordedIdentity
  | some recorded =>
    if recorded.chainId.length = 0 then .indeterminate .noRecordedIdentity
    else if canonicalChainId recorded.chainId ≠ observed.chainId then
      .changed ⟨.chainId, canonicalChainId recorded.chainId, observed.chainId⟩
    else
      match recorded.genesisHash with
      | none => .indeterminate .recordedIdentityIncomplete
      | some genesisHash =>
        if canonicalHash genesisHash ≠ observed.genesisHash then
          .changed ⟨.genesisHash, canonicalHash genesisHash, observed.genesisHash⟩
        else
          match recorded.firstBlockHash with
          | none => .indeterminate .recordedIdentityIncomplete
          | some none =>
            -- `null` is not a hash: nothing to compare but the same absence
            match observed.firstBlockHash with
            | none => .same
            | some _ => .indeterminate .recordedIdentityIncomplete
          | some (some firstBlockHash) =>
            match observed.firstBlockHash with
            | none => .changed ⟨.firstBlockHash, canonicalHash firstBlockHash, none⟩
            | some observedHash =>
              if canonicalHash firstBlockHash ≠ observedHash then
                .changed ⟨.firstBlockHash, canonicalHash firstBlockHash, observedHash⟩
              else .same

/-- The fingerprint of an instance, as it is read back from disk. -/
def ChainInstance.recorded (i : ChainInstance) : RecordedChainInstance :=
  ⟨i.chainId, some i.genesisHash, some i.firstBlockHash⟩

theorem ChainInstanceIdentity.chainId_ne (i : ChainInstanceIdentity) : i.chainId.length ≠ 0 := by
  intro h
  have hq := i.chainId_canonical.1
  rw [← String.length_toList, List.length_eq_zero_iff] at h
  simp [isHexQuantity, h] at hq

section
variable {i j : ChainInstanceIdentity}

theorem compareChainInstance_same
    (h : compareChainInstance (some i.recorded) j.toChainInstance = .same) :
    i.toChainInstance = j.toChainInstance := by
  obtain ⟨⟨ci, gi, fi⟩, _, hci, hgi, hfi⟩ := i
  obtain ⟨⟨cj, gj, fj⟩, _, hcj, hgj, hfj⟩ := j
  have hne := ChainInstanceIdentity.chainId_ne ⟨⟨ci, gi, fi⟩, "", hci, hgi, hfi⟩
  simp only [ChainInstance.recorded, compareChainInstance, hne, hci.2, hgi.2, ↓reduceIte] at h
  split at h
  · cases h
  split at h
  · cases h
  rename_i hid hgenesis
  obtain rfl := Decidable.not_not.mp hid
  obtain rfl := Decidable.not_not.mp hgenesis
  rcases fi with _ | fi <;> rcases fj with _ | fj
  · rfl
  · cases h
  · cases h
  · simp only [(hfi fi rfl).2] at h
    split at h
    · cases h
    · rename_i hfirst
      obtain rfl := Decidable.not_not.mp hfirst
      rfl

/-- Only a fingerprint without block 1 leaves the comparator undecided. -/
theorem compareChainInstance_indeterminate {because : IndeterminateCause}
    (h : compareChainInstance (some i.recorded) j.toChainInstance = .indeterminate because) :
    i.firstBlockHash = none := by
  obtain ⟨⟨ci, gi, fi⟩, _, hci, hgi, hfi⟩ := i
  have hne := ChainInstanceIdentity.chainId_ne ⟨⟨ci, gi, fi⟩, "", hci, hgi, hfi⟩
  simp only [ChainInstance.recorded, compareChainInstance, hne, ↓reduceIte] at h
  rcases fi with _ | fi
  · rfl
  · simp only at h
    repeat' split at h
    all_goals cases h

end

end TronUpgrades.Chain
