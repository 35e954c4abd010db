import TronUpgrades.Record.Disk
import Mathlib.Data.List.Forall2

/-!
# The fingerprint and its verdict

The writer, the reader, the comparator and the report's diagnosis as one
decision: what a written fingerprint says of any instance, and that no other
spelling of the file says anything else.
-/

namespace TronUpgrades.Record

open Chain Text

-- ---------------------------------------------------------------------------
-- The reader
-- ---------------------------------------------------------------------------

section
variable {raw : List (String × Json)} {r : RecordedChainInstance}

@[simp] theorem throw_except {ε α : Type} (e : ε) : (throw e : Except ε α) = .error e := rfl

@[simp] theorem error_bind {ε α β : Type} (e : ε) (f : α → Except ε β) :
    ((Except.error e : Except ε α) >>= f) = .error e := rfl

@[simp] theorem ok_bind {ε α β : Type} (a : α) (f : α → Except ε β) :
    ((Except.ok a : Except ε α) >>= f) = f a := rfl

theorem validateFields_iff : validateFields raw = .ok r ↔
    Json.get? raw "schema" = some (.num fingerprintSchema) ∧
      raw.any (fun field => !fingerprintKeys.contains field.1) = false ∧
      Json.get? raw "chainId" = some (.str r.chainId) ∧ isHexQuantity r.chainId = true ∧
      genesisField (Json.get? raw "genesisHash") = .ok r.genesisHash ∧
      firstBlockField (Json.get? raw "firstBlockHash") = .ok r.firstBlockHash := by
  obtain ⟨chainId, genesisHash, firstBlockHash⟩ := r
  unfold validateFields
  cases hschema : Json.get? raw "schema" with
  | none => simp
  | some schema =>
    cases schema with
    | num schema =>
      by_cases hs : schema = fingerprintSchema
      · cases hkeys : raw.any fun field => !fingerprintKeys.contains field.1 with
        | true => simp [hs]
        | false =>
          cases hid : Json.get? raw "chainId" with
          | none => simp [hs]
          | some id =>
            cases id with
            | str id =>
              cases hq : isHexQuantity id with
              | false =>
                simp [hs, hq]
                rintro rfl
                simp [hq]
              | true =>
                cases genesisField (Json.get? raw "genesisHash") with
                | error e => simp [hs, hq]
                | ok g =>
                  cases firstBlockField (Json.get? raw "firstBlockHash") with
                  | error e => simp [hs, hq]
                  | ok f =>
                    simp [hs, hq, pure, Except.pure]
                    rintro rfl - -
                    exact hq
            | _ => simp [hs]
      · simp [hs]
    | _ => simp

theorem hashField_iff {value : Json} {hash : String} :
    hashField value = .ok hash ↔ value = .str hash ∧ isBlockHash hash = true := by
  cases value with
  | str text =>
    cases h : isBlockHash text with
    | true =>
      simp only [hashField, h, if_true, Except.ok.injEq, Json.str.injEq]
      constructor
      · rintro rfl
        exact ⟨rfl, h⟩
      · exact fun hh => hh.1
    | false =>
      simp only [hashField, h, Json.str.injEq]
      constructor
      · rintro ⟨⟩
      · rintro ⟨rfl, hh⟩
        rw [h] at hh
        cases hh
  | _ => simp [hashField]

theorem map_hashField_iff {β : Type} {f : String → β} {value : Json} {b : β} :
    (do return f (← hashField value)) = (.ok b : Except FingerprintUnreadableCause β) ↔
      ∃ hash, value = .str hash ∧ isBlockHash hash = true ∧ f hash = b := by
  cases hv : hashField value with
  | error e =>
    simp only [bind, Except.bind, reduceCtorEq, false_iff, not_exists]
    rintro hash ⟨hvalue, hhash, -⟩
    rw [hashField_iff.mpr ⟨hvalue, hhash⟩] at hv
    cases hv
  | ok hash =>
    obtain ⟨rfl, hhash⟩ := hashField_iff.mp hv
    simp [bind, Except.bind, pure, Except.pure, hhash]

theorem genesisField_iff {field : Option Json} {hash : Option String} :
    genesisField field = .ok hash ↔
      field = hash.map .str ∧ ∀ h ∈ hash, isBlockHash h = true := by
  cases field with
  | none => cases hash <;> simp [genesisField]
  | some value =>
    rw [genesisField, map_hashField_iff]
    cases hash with
    | none => simp
    | some hash => simp

theorem firstBlockField_iff {field : Option Json} {first : Option (Option String)} :
    firstBlockField field = .ok first ↔
      field = first.map (·.elim .null .str) ∧ ∀ hash ∈ first, ∀ h ∈ hash, isBlockHash h = true := by
  cases field with
  | none => cases first <;> simp [firstBlockField]
  | some value =>
    by_cases hnull : value = .null
    · subst hnull
      rcases first with _ | _ | first <;> simp [firstBlockField]
    · have heq : firstBlockField (some value) = do return some (some (← hashField value)) := by
        cases value <;> first | rfl | exact absurd rfl hnull
      rw [heq, map_hashField_iff]
      rcases first with _ | _ | first <;> simp [hnull]

theorem readFingerprint_record_iff {content : Option FileContent} :
    readFingerprint content = .record r ↔
      ∃ raw, content = some (.json (.obj raw)) ∧ validateFields raw = .ok r := by
  constructor
  · intro h
    match content, h with
    | some (.json (.obj raw)), h =>
      refine ⟨raw, rfl, ?_⟩
      simp only [readFingerprint, validateFingerprint] at h
      split at h <;> cases h
      assumption
  · rintro ⟨raw, rfl, h⟩
    simp [readFingerprint, validateFingerprint, h]

/-- What the comparator's text helpers are called with. -/
structure Comparable (r : RecordedChainInstance) : Prop where
  chainId : isHexQuantity r.chainId = true
  genesisHash : ∀ hash ∈ r.genesisHash, isBlockHash hash = true
  firstBlockHash : ∀ hash ∈ r.firstBlockHash, ∀ h ∈ hash, isBlockHash h = true

theorem readFingerprint_comparable {content : Option FileContent}
    (h : readFingerprint content = .record r) : Comparable r := by
  obtain ⟨raw, -, hraw⟩ := readFingerprint_record_iff.mp h
  obtain ⟨-, -, -, hid, hg, hf⟩ := validateFields_iff.mp hraw
  exact ⟨hid, (genesisField_iff.mp hg).2, (firstBlockField_iff.mp hf).2⟩

end

-- ---------------------------------------------------------------------------
-- Spellings of the file
-- ---------------------------------------------------------------------------

/-- A hex field in other letter case, and a chain id with more leading zeros. -/
inductive Respelled (key : String) : Json → Json → Prop
  | same (value : Json) : Respelled key value value
  | recased {cs cs' : List Char} : cs'.all isHexDigit = true → toLowerCase cs' = toLowerCase cs →
      Respelled key (.str (.ofList ('0' :: 'x' :: cs))) (.str (.ofList ('0' :: 'x' :: cs')))
  | padded {cs cs' : List Char} (n : Nat) : key = "chainId" → cs'.all isHexDigit = true →
      toLowerCase cs' = toLowerCase cs →
      Respelled key (.str (.ofList ('0' :: 'x' :: cs)))
        (.str (.ofList ('0' :: 'x' :: (List.replicate n '0' ++ cs'))))

/-- The same keys in the same order, each value respelled. -/
def RespelledFields (raw raw' : List (String × Json)) : Prop :=
  List.Forall₂ (fun field field' => field'.1 = field.1 ∧ Respelled field.1 field.2 field'.2) raw raw'

section
variable {raw raw' : List (String × Json)} {key : String} {value value' : Json} {cs cs' : List Char}

theorem RespelledFields.get? (h : RespelledFields raw raw') (key : String) :
    Option.Rel (Respelled key) (Json.get? raw key) (Json.get? raw' key) := by
  have hreverse : RespelledFields raw.reverse raw'.reverse := List.forall₂_reverse_iff.mpr h
  unfold Json.get?
  revert hreverse
  generalize raw.reverse = xs
  generalize raw'.reverse = ys
  intro hreverse
  induction hreverse with
  | nil => exact .none
  | @cons field field' xs ys hfield _ ih =>
    obtain ⟨hkey, hvalue⟩ := hfield
    rw [List.find?_cons, List.find?_cons, hkey]
    cases heq : field.1 == key with
    | true =>
      rw [beq_iff_eq] at heq
      subst heq
      exact .some hvalue
    | false => exact ih

theorem RespelledFields.keys (h : RespelledFields raw raw') :
    raw'.any (fun field => !fingerprintKeys.contains field.1) =
      raw.any fun field => !fingerprintKeys.contains field.1 := by
  induction h with
  | nil => rfl
  | cons hfield _ ih => rw [List.any_cons, List.any_cons, hfield.1, ih]

theorem isHexQuantity_ofList : isHexQuantity (.ofList ('0' :: 'x' :: cs)) =
    (!cs.isEmpty && cs.all isHexDigit) := by
  cases cs <;> simp [isHexQuantity]

theorem isBlockHash_ofList : isBlockHash (.ofList ('0' :: 'x' :: cs)) =
    (cs.all isHexDigit && cs.length == 64) := by
  simp [isBlockHash]

/-- A respelled chain id is one, and the same. -/
theorem Respelled.chainId {id : String} (h : Respelled "chainId" (.str id) value')
    (hq : isHexQuantity id = true) :
    ∃ id', value' = .str id' ∧ isHexQuantity id' = true ∧
      canonicalChainId id' = canonicalChainId id := by
  have canonical (cs : List Char) : canonicalChainId (.ofList ('0' :: 'x' :: cs)) =
      .ofList ('0' :: 'x' :: dropLeadingZeros (toLowerCase cs)) := by
    simp [canonicalChainId, stripHexPrefix]
  cases h with
  | same => exact ⟨id, rfl, hq, rfl⟩
  | @recased cs cs' hex lower =>
    refine ⟨_, rfl, ?_, by rw [canonical, canonical, lower]⟩
    rw [isHexQuantity_ofList, Bool.and_eq_true] at hq ⊢
    have hlength := length_of_recased lower
    refine ⟨?_, hex⟩
    cases cs' with
    | nil =>
      rw [List.length_eq_zero_iff.mp hlength.symm] at hq
      exact absurd hq.1 (by decide)
    | cons c rest => rfl
  | @padded cs cs' n _ hex lower =>
    rw [isHexQuantity_ofList, Bool.and_eq_true] at hq
    have hlength := length_of_recased lower
    have hne : cs' ≠ [] := by
      rintro rfl
      rw [List.length_eq_zero_iff.mp hlength.symm] at hq
      exact absurd hq.1 (by decide)
    refine ⟨_, rfl, ?_, ?_⟩
    · have zero : isHexDigit '0' = true := by decide
      rw [isHexQuantity_ofList, Bool.and_eq_true]
      refine ⟨by simp [hne], ?_⟩
      simp [List.all_append, hex, zero]
    · have hlower : toLowerCase (List.replicate n '0' ++ cs') =
          List.replicate n '0' ++ toLowerCase cs := by
        rw [← lower]
        simp [toLowerCase, show Char.toLower '0' = '0' from by decide]
      have hne : toLowerCase cs ≠ [] := by
        rw [← lower]
        simpa [toLowerCase] using hne
      rw [canonical, canonical, hlower, dropLeadingZeros_replicate n hne]

/-- A respelled hash is one, and the same. -/
theorem Respelled.hash {hash : String} (h : Respelled key (.str hash) value')
    (hkey : key ≠ "chainId") (hh : isBlockHash hash = true) :
    ∃ hash', value' = .str hash' ∧ isBlockHash hash' = true ∧
      canonicalHash hash' = canonicalHash hash := by
  cases h with
  | same => exact ⟨hash, rfl, hh, rfl⟩
  | @recased cs cs' hex lower =>
    refine ⟨_, rfl, ?_, ?_⟩
    · rw [isBlockHash_ofList, Bool.and_eq_true] at hh ⊢
      rw [length_of_recased lower]
      exact ⟨hex, hh.2⟩
    · simp only [canonicalHash, String.toList_ofList, stripHexPrefix_cons, lower]
  | padded n hk => exact absurd hk hkey

end

-- ---------------------------------------------------------------------------
-- The comparator
-- ---------------------------------------------------------------------------

/-- Equal in every signal, as the comparator normalises them. -/
structure SameSignals (r r' : RecordedChainInstance) : Prop where
  present : r.chainId.length ≠ 0 ∧ r'.chainId.length ≠ 0
  chainId : canonicalChainId r'.chainId = canonicalChainId r.chainId
  genesisHash : r'.genesisHash.map canonicalHash = r.genesisHash.map canonicalHash
  firstBlockHash :
    r'.firstBlockHash.map (·.map canonicalHash) = r.firstBlockHash.map (·.map canonicalHash)

/-- The comparator over the normalised signals. -/
def compareSignals (chainId : String) (genesisHash : Option String)
    (firstBlockHash : Option (Option String)) (observed : ChainInstance) : InstanceComparison :=
  if chainId ≠ observed.chainId then .changed ⟨.chainId, chainId, observed.chainId⟩
  else match genesisHash with
  | none => .indeterminate .recordedIdentityIncomplete
  | some genesisHash =>
    if genesisHash ≠ observed.genesisHash then
      .changed ⟨.genesisHash, genesisHash, observed.genesisHash⟩
    else match firstBlockHash with
    | none => .indeterminate .recordedIdentityIncomplete
    | some none =>
      if observed.firstBlockHash = none then .same
      else .indeterminate .recordedIdentityIncomplete
    | some (some firstBlockHash) =>
      if some firstBlockHash = observed.firstBlockHash then .same
      else .changed ⟨.firstBlockHash, firstBlockHash, observed.firstBlockHash⟩

section
variable {r r' : RecordedChainInstance} {raw raw' : List (String × Json)}

theorem compareChainInstance_eq (hne : r.chainId.length ≠ 0) (observed : ChainInstance) :
    compareChainInstance (some r) observed =
      compareSignals (canonicalChainId r.chainId) (r.genesisHash.map canonicalHash)
        (r.firstBlockHash.map (·.map canonicalHash)) observed := by
  obtain ⟨chainId, genesisHash, firstBlockHash⟩ := r
  obtain ⟨id, genesis, first⟩ := observed
  simp only [compareChainInstance, compareSignals] at hne ⊢
  rw [if_neg hne]
  by_cases hid : canonicalChainId chainId = id
  · simp only [hid, ne_eq, not_true, if_false]
    cases genesisHash with
    | none => rfl
    | some genesisHash =>
      by_cases hg : canonicalHash genesisHash = genesis
      · simp only [hg, not_true, if_false, Option.map_some]
        rcases firstBlockHash with _ | _ | firstBlockHash
        · rfl
        · cases first <;> rfl
        · cases first with
          | none => rfl
          | some first =>
            by_cases hf : canonicalHash firstBlockHash = first <;> simp [hf]
      · simp [hg]
  · simp [hid]

theorem SameSignals.compare (h : SameSignals r r') (observed : ChainInstance) :
    compareChainInstance (some r') observed = compareChainInstance (some r) observed := by
  rw [compareChainInstance_eq h.present.1, compareChainInstance_eq h.present.2, h.chainId,
    h.genesisHash, h.firstBlockHash]

theorem isHexQuantity_length {id : String} (h : isHexQuantity id = true) : id.length ≠ 0 := by
  intro h0
  rw [← String.length_toList, List.length_eq_zero_iff] at h0
  simp [isHexQuantity, h0] at h

theorem rel_some_left {α β : Type} {R : α → β → Prop} {a : α} {y : Option β}
    (h : Option.Rel R (some a) y) : ∃ b, y = some b ∧ R a b := by
  cases h with
  | some h => exact ⟨_, rfl, h⟩

theorem rel_none_left {α β : Type} {R : α → β → Prop} {y : Option β}
    (h : Option.Rel R none y) : y = none := by
  cases h
  rfl

/-- A respelled file reads as the same signals. -/
theorem validateFields_respelled (h : RespelledFields raw raw') (hr : validateFields raw = .ok r) :
    ∃ r', validateFields raw' = .ok r' ∧ SameSignals r r' := by
  obtain ⟨hschema, hkeys, hid, hq, hg, hf⟩ := validateFields_iff.mp hr
  obtain ⟨hg, hgs⟩ := genesisField_iff.mp hg
  obtain ⟨hf, hfs⟩ := firstBlockField_iff.mp hf
  have hid' := h.get? "chainId"
  rw [hid] at hid'
  obtain ⟨value', hid', hrel⟩ := rel_some_left hid'
  obtain ⟨id', rfl, hq', heq⟩ := hrel.chainId hq
  have hschema' := h.get? "schema"
  rw [hschema] at hschema'
  obtain ⟨value', hschema', hrel⟩ := rel_some_left hschema'
  obtain rfl : value' = .num fingerprintSchema := by
    cases hrel
    rfl
  obtain ⟨genesis', hg', hgs', heqg⟩ : ∃ genesis' : Option String,
      Json.get? raw' "genesisHash" = genesis'.map .str ∧
      (∀ hash ∈ genesis', isBlockHash hash = true) ∧
      genesis'.map canonicalHash = r.genesisHash.map canonicalHash := by
    have hrel := h.get? "genesisHash"
    rw [hg] at hrel
    cases hgenesis : r.genesisHash with
    | none =>
      rw [hgenesis] at hrel
      exact ⟨none, rel_none_left hrel, nofun, rfl⟩
    | some hash =>
      rw [hgenesis] at hrel
      obtain ⟨value', hget, hrel⟩ := rel_some_left hrel
      obtain ⟨hash', rfl, hh, heq⟩ := hrel.hash (by decide) (hgs hash hgenesis)
      exact ⟨some hash', hget, by simpa using hh, by simp [heq]⟩
  obtain ⟨first', hf', hfs', heqf⟩ : ∃ first' : Option (Option String),
      Json.get? raw' "firstBlockHash" = first'.map (·.elim .null .str) ∧
      (∀ hash ∈ first', ∀ h ∈ hash, isBlockHash h = true) ∧
      first'.map (·.map canonicalHash) = r.firstBlockHash.map (·.map canonicalHash) := by
    have hrel := h.get? "firstBlockHash"
    rw [hf] at hrel
    rcases hfirst : r.firstBlockHash with _ | _ | hash
    · rw [hfirst] at hrel
      exact ⟨none, rel_none_left hrel, nofun, rfl⟩
    · rw [hfirst] at hrel
      obtain ⟨value', hget, hrel⟩ := rel_some_left hrel
      cases hrel
      exact ⟨some none, hget, by simp, rfl⟩
    · rw [hfirst] at hrel
      obtain ⟨value', hget, hrel⟩ := rel_some_left hrel
      obtain ⟨hash', rfl, hh, heq⟩ := hrel.hash (by decide) (hfs (some hash) hfirst hash rfl)
      exact ⟨some (some hash'), hget, by simpa using hh, by simp [heq]⟩
  refine ⟨⟨id', genesis', first'⟩, ?_, ?_⟩
  · rw [validateFields_iff]
    refine ⟨hschema', h.keys.trans hkeys, hid', hq', ?_, ?_⟩
    · exact genesisField_iff.mpr ⟨hg', hgs'⟩
    · exact firstBlockField_iff.mpr ⟨hf', hfs'⟩
  · exact ⟨⟨isHexQuantity_length hq, isHexQuantity_length hq'⟩, heq, heqg, heqf⟩

end

-- ---------------------------------------------------------------------------
-- The verdict
-- ---------------------------------------------------------------------------

/-- What a file's contents say of an observed instance, where they can be used. -/
def verdictOn (content : Option FileContent) (observed : ChainInstance) :
    Option InstanceComparison :=
  match readFingerprint content with
  | .absent => some (compareChainInstance none observed)
  | .record r => some (compareChainInstance (some r) observed)
  | .unreadable _ => none

/-- The signal at which the comparator answers. -/
def stoppedAt (recorded : RecordedChainInstance) (observed : ChainInstance) : Signal :=
  if canonicalChainId recorded.chainId ≠ observed.chainId then .chainId
  else match recorded.genesisHash with
  | none => .genesisHash
  | some genesisHash =>
    if canonicalHash genesisHash ≠ observed.genesisHash then .genesisHash else .firstBlockHash

def IncompleteFingerprintField.signal : IncompleteFingerprintField → Signal
  | .genesisHash => .genesisHash
  | .firstBlockHash => .firstBlockHash

def IncompleteFingerprintField.missingFrom (r : RecordedChainInstance) :
    IncompleteFingerprintField → Bool
  | .genesisHash => r.genesisHash.isNone
  | .firstBlockHash => r.firstBlockHash.isNone

/-- The verdict on the fingerprint of `i` where `j` is observed. -/
structure Decides (i j : ChainInstance) (verdict : InstanceComparison) : Prop where
  same : verdict = .same ↔ i = j
  indeterminate : (∃ because, verdict = .indeterminate because) ↔ i.chainId = j.chainId ∧
    i.genesisHash = j.genesisHash ∧ i.firstBlockHash = none ∧ j.firstBlockHash ≠ none
  chainId : i.chainId ≠ j.chainId → verdict = .changed ⟨.chainId, i.chainId, j.chainId⟩
  genesisHash : i.chainId = j.chainId → i.genesisHash ≠ j.genesisHash →
    verdict = .changed ⟨.genesisHash, i.genesisHash, j.genesisHash⟩
  firstBlockHash : i.chainId = j.chainId → i.genesisHash = j.genesisHash →
    i.firstBlockHash ≠ none → i.firstBlockHash ≠ j.firstBlockHash →
    verdict = .changed ⟨.firstBlockHash, i.firstBlockHash, j.firstBlockHash⟩

structure FingerprintLaws : Prop where
  roundTrip : ∀ i j : ChainInstanceIdentity, ∃ verdict,
    verdictOn (some (.json (fingerprintFor i).toJson)) j.toChainInstance = some verdict ∧
      Decides i.toChainInstance j.toChainInstance verdict
  /-- Any file that is read as a record, respelled. -/
  respelled : ∀ raw raw' r (observed : ChainInstance), validateFields raw = .ok r →
    RespelledFields raw raw' →
    verdictOn (some (.json (.obj raw'))) observed = verdictOn (some (.json (.obj raw))) observed
  total : ∀ content, readFingerprint content = .absent ∨
    (∃ because, readFingerprint content = .unreadable because) ∨
    ∃ r, readFingerprint content = .record r ∧ Comparable r
  /-- The field reported is the missing one the comparator stopped at. A
  recorded `null` is not missing: there the report names no field. -/
  diagnosis : ∀ content r (observed : ChainInstance) because,
    readFingerprint content = .record r →
    compareChainInstance (some r) observed = .indeterminate because →
    ∃ field, instanceOutcomeOf (.record r) (.indeterminate because) =
        .indeterminate .recordedIdentityIncomplete field ∧
      (∀ f, field = some f ↔ f.signal = stoppedAt r observed ∧ f.missingFrom r = true) ∧
      (field = none ↔ stoppedAt r observed = .firstBlockHash ∧ r.firstBlockHash = some none)

theorem decides_recorded (i j : ChainInstanceIdentity) :
    Decides i.toChainInstance j.toChainInstance
      (compareChainInstance (some i.recorded) j.toChainInstance) := by
  have hfirst : i.firstBlockHash.map canonicalHash = i.firstBlockHash := by
    cases h : i.firstBlockHash with
    | none => rfl
    | some hash => rw [Option.map_some, (i.firstBlockHash_canonical hash h).2]
  have heq := compareChainInstance_eq (r := i.recorded) i.chainId_ne j.toChainInstance
  simp only [ChainInstance.recorded, i.chainId_canonical.2, i.genesisHash_canonical.2, hfirst,
    Option.map_some] at heq
  unfold ChainInstance.recorded
  rw [heq]
  generalize i.toChainInstance = a
  generalize j.toChainInstance = b
  obtain ⟨id, genesis, first⟩ := a
  obtain ⟨id', genesis', first'⟩ := b
  by_cases hid : id = id'
  · by_cases hg : genesis = genesis'
    · subst hid hg
      rcases first with _ | hash <;> rcases first' with _ | hash'
      · constructor <;> simp [compareSignals]
      · constructor <;> simp [compareSignals]
      · constructor <;> simp [compareSignals]
      · by_cases hf : hash = hash'
        · constructor <;> simp [compareSignals, hf]
        · constructor <;> simp [compareSignals, hf]
    · constructor <;> simp [compareSignals, hid, hg]
  · constructor <;> simp [compareSignals, hid]

theorem fingerprint_laws : FingerprintLaws where
  roundTrip i j := by
    refine ⟨_, ?_, decides_recorded i j⟩
    simp only [verdictOn, readFingerprint_fingerprintFor]
  respelled raw raw' r observed hr h := by
    obtain ⟨r', hr', same⟩ := validateFields_respelled h hr
    simp only [verdictOn, readFingerprint, validateFingerprint, hr, hr', same.compare]
  total content := by
    cases h : readFingerprint content with
    | absent => exact .inl rfl
    | unreadable because => exact .inr (.inl ⟨because, rfl⟩)
    | record r => exact .inr (.inr ⟨r, rfl, readFingerprint_comparable h⟩)
  diagnosis content r observed because hr hcompare := by
    have comparable := readFingerprint_comparable hr
    rw [compareChainInstance_eq (isHexQuantity_length comparable.chainId)] at hcompare
    obtain ⟨chainId, genesisHash, firstBlockHash⟩ := r
    unfold compareSignals at hcompare
    unfold stoppedAt
    simp only at hcompare
    split at hcompare
    · cases hcompare
    next hid =>
      cases genesisHash with
      | none =>
        cases hcompare
        refine ⟨_, rfl, fun f => ?_, ?_⟩
        · cases f <;> simp [incompleteFieldOf, IncompleteFingerprintField.signal,
            IncompleteFingerprintField.missingFrom, hid]
        · simp [incompleteFieldOf, hid]
      | some genesisHash =>
        simp only [Option.map_some] at hcompare
        split at hcompare
        · cases hcompare
        next hg =>
          rcases firstBlockHash with _ | _ | hash <;> simp only [Option.map_some, Option.map_none] at hcompare
          · cases hcompare
            refine ⟨_, rfl, fun f => ?_, ?_⟩
            · cases f <;> simp [incompleteFieldOf, IncompleteFingerprintField.signal,
                IncompleteFingerprintField.missingFrom, hid, hg]
            · simp [incompleteFieldOf]
          · split at hcompare <;> cases hcompare
            refine ⟨_, rfl, fun f => ?_, ?_⟩
            · cases f <;> simp [incompleteFieldOf, IncompleteFingerprintField.signal,
                IncompleteFingerprintField.missingFrom, hid, hg]
            · simp [incompleteFieldOf, hid, hg]
          · split at hcompare <;> cases hcompare

/-- A chain id spelled in capitals throughout, its prefix too, is not read. -/
theorem uppercased_prefix_unreadable :
    let file (chainId : String) : Option FileContent := some (.json
      (FingerprintFile.toJson ⟨chainId, nodeA.genesisHash, nodeA.firstBlockHash⟩))
    verdictOn (file "0x1") nodeA.toChainInstance = some .same ∧
      verdictOn (file "0X1") nodeA.toChainInstance = none := by
  decide

end TronUpgrades.Record
