import TronUpgrades.Address.Base58Check
import TronUpgrades.Chain.Slots
import TronUpgrades.Failure

/-!
# One identity for each address

Over a correct codec every spelling of twenty bytes has one canonical form,
only canonical forms are answered, and the record's normaliser agrees with the
chain layer's (`one_identity`).
-/

namespace TronUpgrades.Address

open Text Chain

-- ---------------------------------------------------------------------------
-- Triage
-- ---------------------------------------------------------------------------

section
variable {codec : AddressCodec} {input a : String} {tail : List Char}

theorem checksummed_lower (body : AddressBody) (h : toLowerCase tail = body.digits) :
    checksummed codec tail = body.eip55 codec := by
  unfold checksummed
  rw [h]
  rfl

theorem evmTailOf_evmHex (hex : tail.all isHexDigit = true)
    (length : tail.length = evmHexDigits) :
    evmTailOf codec (.ofList ('0' :: 'x' :: tail)) = .ok tail := by
  simp [evmTailOf, prefixedHex?, hex, length]

theorem evmTailOf_tronHex (hex : tail.all isHexDigit = true)
    (length : tail.length = evmHexDigits) :
    evmTailOf codec (.ofList ('4' :: '1' :: tail)) = .ok tail := by
  have digits : isHexDigit '4' = true ∧ isHexDigit '1' = true := by decide
  simp [evmTailOf, prefixedHex?, isBareHex, afterTronPrefix, tronHexChars, hex, length, digits,
    evmHexDigits]

theorem isBase58Shape_cons {cs : List Char} (h : isBase58Shape cs = true) :
    ∃ rest, cs = 'T' :: rest := by
  unfold isBase58Shape at h
  split at h
  · exact ⟨_, rfl⟩
  · cases h

theorem evmTailOf_base58 (correct : CorrectCodec codec) (body : AddressBody) :
    evmTailOf codec (body.base58 codec) = .ok body.digits := by
  have shape := correct.base58_shape body
  obtain ⟨rest, hrest⟩ := isBase58Shape_cons shape
  have unprefixed : prefixedHex? (body.base58 codec).toList = none := by
    rw [hrest]
    rfl
  have unbare : isBareHex (body.base58 codec).toList = false := by
    have letter : isHexDigit 'T' = false := by decide
    simp [hrest, isBareHex, letter]
  simp [evmTailOf, unprefixed, unbare, shape, correct.base58_length, correct.isAddress,
    correct.toHex, afterTronPrefix, body.hex, body.length_eq]

/-- Only the three encodings get through. -/
theorem evmTailOf_ok (correct : CorrectCodec codec) (h : evmTailOf codec input = .ok tail) :
    (tail.all isHexDigit = true ∧ tail.length = evmHexDigits) ∧
      (input = .ofList ('0' :: 'x' :: tail) ∨ input = .ofList ('4' :: '1' :: tail) ∨
        ∃ body : AddressBody, input = body.base58 codec ∧ tail = body.digits) := by
  unfold evmTailOf at h
  simp only at h
  split at h
  next digits hdigits =>
    unfold prefixedHex? at hdigits
    split at hdigits
    next digits' hinput =>
      split at hdigits
      next hex =>
        cases hdigits
        split at h
        next length =>
          cases h
          refine ⟨⟨hex, length⟩, .inl ?_⟩
          rw [← hinput, String.ofList_toList]
        next => cases h
      next => cases hdigits
    next => cases hdigits
  next =>
    split at h
    next bare =>
      split at h
      · cases h
      next length =>
        split at h
        next tail' htail =>
          cases h
          unfold afterTronPrefix at htail
          split at htail
          next rest hinput =>
            cases htail
            have hex : tail.all isHexDigit = true := by
              simp only [isBareHex, hinput, Bool.and_eq_true, List.all_cons] at bare
              exact bare.2.2.2
            have hlength : tail.length = evmHexDigits := by
              simpa [hinput, tronHexChars, evmHexDigits] using length
            refine ⟨⟨hex, hlength⟩, .inr (.inl ?_)⟩
            rw [← hinput, String.ofList_toList]
          next => cases htail
        next => cases h
    next =>
      split at h
      next shape =>
        split at h
        · cases h
        next length =>
          split at h
          · cases h
          next valid =>
            obtain ⟨body, rfl⟩ := correct.decodes input shape (Decidable.not_not.mp length)
              (by simpa using valid)
            have hex : body.digits.all isHexDigit && body.digits.length == evmHexDigits := by
              simp [body.hex, body.length_eq]
            simp only [correct.toHex, String.toList_ofList, afterTronPrefix, hex, if_true] at h
            cases h
            exact ⟨⟨body.hex, body.length_eq⟩, .inr (.inr ⟨body, rfl, rfl⟩)⟩
      next => cases h

theorem mintFrom_ok (h : mintFrom codec input = .ok a) :
    ∃ tail, evmTailOf codec input = .ok tail ∧ a = checksummed codec tail ∧
      (assertsChecksum tail = true → .ofList ('0' :: 'x' :: tail) = a) := by
  unfold mintFrom at h
  cases htail : evmTailOf codec input with
  | error because =>
    rw [htail] at h
    cases h
  | ok tail =>
    rw [htail] at h
    simp only [bind, Except.bind, pure, Except.pure] at h
    split at h
    · cases h
    next sound =>
      cases h
      refine ⟨tail, rfl, rfl, fun claims => ?_⟩
      simpa [claims] using sound

theorem mintFrom_of_tail (htail : evmTailOf codec input = .ok tail)
    (sound : assertsChecksum tail = true → .ofList ('0' :: 'x' :: tail) = checksummed codec tail) :
    mintFrom codec input = .ok (checksummed codec tail) := by
  unfold mintFrom
  rw [htail]
  simp only [bind, Except.bind, pure, Except.pure]
  split
  next unsound =>
    simp only [Bool.and_eq_true, bne_iff_ne] at unsound
    exact absurd (sound unsound.1) unsound.2
  next => rfl

theorem canonicalizeAddress_eq_ok :
    canonicalizeAddress codec input = .ok a ↔ mintFrom codec input = .ok a := by
  unfold canonicalizeAddress
  cases mintFrom codec input <;> simp [Except.mapError]

-- ---------------------------------------------------------------------------
-- Minting
-- ---------------------------------------------------------------------------

/-- Forty hex digits of an address that claim no checksum but its own. -/
structure Tail (codec : AddressCodec) (body : AddressBody) (tail : List Char) : Prop where
  hex : tail.all isHexDigit = true
  length : tail.length = evmHexDigits
  digits : toLowerCase tail = body.digits
  sound : assertsChecksum tail = true → .ofList ('0' :: 'x' :: tail) = body.eip55 codec

variable {body : AddressBody}

theorem Tail.mint (ht : Tail codec body tail) (htail : evmTailOf codec input = .ok tail) :
    canonicalizeAddress codec input = .ok (body.eip55 codec) := by
  rw [canonicalizeAddress_eq_ok, ← checksummed_lower body ht.digits]
  apply mintFrom_of_tail htail
  rw [checksummed_lower body ht.digits]
  exact ht.sound

theorem length_of_lower (h : toLowerCase tail = body.digits) : tail.length = evmHexDigits := by
  have hlength := body.length_eq
  rw [← h] at hlength
  simpa [toLowerCase] using hlength

theorem Tail.lower (codec : AddressCodec) (body : AddressBody) : Tail codec body body.digits where
  hex := body.hex
  length := body.length_eq
  digits := toLowerCase_lowerHex body.lower
  sound h := by simp [assertsChecksum, lowerHex_noUpper body.lower] at h

theorem Tail.upper (codec : AddressCodec) (body : AddressBody) :
    Tail codec body (toUpperCase body.digits) := by
  obtain ⟨hex, digits, unlettered⟩ := toUpperCase_hex body.hex
  have digits := digits.trans (toLowerCase_lowerHex body.lower)
  refine ⟨hex, length_of_lower digits, digits, fun h => ?_⟩
  simp [assertsChecksum, unlettered] at h

theorem Tail.checksum (correct : CorrectCodec codec) (body : AddressBody) :
    ∃ tail, Tail codec body tail ∧ body.eip55 codec = .ofList ('0' :: 'x' :: tail) := by
  obtain ⟨tail, hex, digits, heq⟩ := correct.getAddress body
  exact ⟨tail, ⟨hex, length_of_lower digits, digits, fun _ => heq.symm⟩, heq⟩

theorem cased_tail (correct : CorrectCodec codec) (body : AddressBody) (casing : Casing) :
    Tail codec body (body.cased codec casing) := by
  cases casing with
  | lower => exact .lower codec body
  | upper => exact .upper codec body
  | checksum =>
    obtain ⟨tail, ht, heq⟩ := Tail.checksum correct body
    simpa [AddressBody.cased, heq] using ht

/-- Every spelling of an address has its one canonical form. -/
theorem canonicalizeAddress_spelling (correct : CorrectCodec codec) (body : AddressBody)
    (spelling : Spelling) :
    canonicalizeAddress codec (body.spelling codec spelling) = .ok (body.eip55 codec) := by
  cases spelling with
  | base58 => exact (Tail.lower codec body).mint (evmTailOf_base58 correct body)
  | tronHex casing =>
    have ht := cased_tail correct body casing
    exact ht.mint (evmTailOf_tronHex ht.hex ht.length)
  | evmHex casing =>
    have ht := cased_tail correct body casing
    exact ht.mint (evmTailOf_evmHex ht.hex ht.length)

/-- What is answered is the canonical form of what was given. -/
theorem canonicalizeAddress_ok (correct : CorrectCodec codec)
    (h : canonicalizeAddress codec input = .ok a) :
    ∃ body tail, Tail codec body tail ∧ a = body.eip55 codec ∧
      (input = .ofList ('0' :: 'x' :: tail) ∨ input = .ofList ('4' :: '1' :: tail) ∨
        input = body.base58 codec) := by
  obtain ⟨tail, htail, rfl, sound⟩ := mintFrom_ok (canonicalizeAddress_eq_ok.mp h)
  obtain ⟨⟨hex, length⟩, hinput⟩ := evmTailOf_ok correct htail
  have ht : Tail codec (.ofTail tail hex length) tail := ⟨hex, length, rfl, sound⟩
  refine ⟨.ofTail tail hex length, tail, ht, rfl, ?_⟩
  rcases hinput with hinput | hinput | ⟨body, hinput, rfl⟩
  · exact .inl hinput
  · exact .inr (.inl hinput)
  · have heq : AddressBody.ofTail body.digits hex length = body :=
      AddressBody.ext (toLowerCase_lowerHex body.lower)
    rw [heq]
    exact .inr (.inr hinput)

theorem canonicalizeAddress_eip55 (correct : CorrectCodec codec) (body : AddressBody) :
    canonicalizeAddress codec (body.eip55 codec) = .ok (body.eip55 codec) := by
  obtain ⟨tail, ht, heq⟩ := Tail.checksum correct body
  have hmint := ht.mint (evmTailOf_evmHex ht.hex ht.length)
  rwa [← heq] at hmint

theorem canonicalizeAddress_idempotent (correct : CorrectCodec codec)
    (h : canonicalizeAddress codec input = .ok a) : canonicalizeAddress codec a = .ok a := by
  obtain ⟨body, _, -, rfl, -⟩ := canonicalizeAddress_ok correct h
  exact canonicalizeAddress_eip55 correct body

theorem isCanonicalAddress_iff (correct : CorrectCodec codec) :
    isCanonicalAddress codec a = true ↔ ∃ body : AddressBody, a = body.eip55 codec := by
  constructor
  · intro h
    simp only [isCanonicalAddress, isEvmHex, Bool.and_eq_true, beq_iff_eq] at h
    obtain ⟨hshape, heq⟩ := h
    split at hshape
    next digits hdigits =>
      unfold prefixedHex? at hdigits
      split at hdigits
      next digits' hinput =>
        split at hdigits
        next hex =>
          rw [hinput] at heq
          exact ⟨.ofTail digits' hex (by cases hdigits; simpa using hshape), heq.symm⟩
        next => cases hdigits
      next => cases hdigits
    next => cases hshape
  · rintro ⟨body, rfl⟩
    obtain ⟨tail, ht, heq⟩ := Tail.checksum correct body
    have hsame : checksummed codec tail = .ofList ('0' :: 'x' :: tail) :=
      (checksummed_lower body ht.digits).trans heq
    rw [heq]
    simp [isCanonicalAddress, isEvmHex, prefixedHex?, ht.hex, ht.length, hsame]

theorem toRpcAddress_evmHex (hex : tail.all isHexDigit = true)
    (length : tail.length = evmHexDigits) :
    toRpcAddress (.ofList ('0' :: 'x' :: tail)) =
      .ok (.ofList ('0' :: 'x' :: toLowerCase tail)) := by
  simp [toRpcAddress, looksLikeBase58Address, stripHexPrefix, hex, length]

theorem toRpcAddress_tronHex (hex : tail.all isHexDigit = true)
    (length : tail.length = evmHexDigits) :
    toRpcAddress (.ofList ('4' :: '1' :: tail)) =
      .ok (.ofList ('0' :: 'x' :: toLowerCase tail)) := by
  have digit : isHexDigit '4' = true ∧ isHexDigit '1' = true := by decide
  simp [toRpcAddress, looksLikeBase58Address, stripHexPrefix, afterTronPrefix, digit, hex, length,
    evmHexDigits, tronHexChars]

theorem toRpcAddress_base58 (correct : CorrectCodec codec) (body : AddressBody) :
    ∃ unusable, toRpcAddress (body.base58 codec) = .error unusable := by
  have length := correct.base58_length body
  have shape := correct.base58_shape body
  obtain ⟨rest, hrest⟩ := isBase58Shape_cons shape
  have letters : (body.base58 codec).toList.all isBase58Char = true := by
    rw [hrest] at shape length ⊢
    cases rest with
    | nil => cases shape
    | cons c rest =>
      have letter : isBase58Char 'T' = true := by decide
      simp only [isBase58Shape] at shape
      rw [List.all_cons, letter, shape]
      rfl
  have looks : looksLikeBase58Address (body.base58 codec) = true := by
    simp [looksLikeBase58Address, letters, length]
    simp [hrest]
  unfold toRpcAddress
  rw [if_neg (by simp [hrest]), if_pos looks]
  exact ⟨_, rfl⟩

/-- Both normalisers see the same twenty bytes. -/
theorem toRpcAddress_agrees {r : String} (correct : CorrectCodec codec)
    (h : canonicalizeAddress codec input = .ok a) (hr : toRpcAddress input = .ok r) :
    ∃ body : AddressBody, a = body.eip55 codec ∧ r = body.lowerHex := by
  obtain ⟨body, tail, ht, rfl, hinput⟩ := canonicalizeAddress_ok correct h
  refine ⟨body, rfl, ?_⟩
  rcases hinput with rfl | rfl | rfl
  · rw [toRpcAddress_evmHex ht.hex ht.length, ht.digits] at hr
    exact (Except.ok.inj hr).symm
  · rw [toRpcAddress_tronHex ht.hex ht.length, ht.digits] at hr
    exact (Except.ok.inj hr).symm
  · obtain ⟨unusable, refused⟩ := toRpcAddress_base58 correct body
    rw [refused] at hr
    cases hr

end

-- ---------------------------------------------------------------------------
-- The identity
-- ---------------------------------------------------------------------------

structure OneIdentity (codec : AddressCodec) : Prop where
  spellings : ∀ (body : AddressBody) (spelling : Spelling),
    canonicalizeAddress codec (body.spelling codec spelling) = .ok (body.eip55 codec)
  /-- Hex that mixes cases is accepted as the checksum it claims to be. -/
  mixedCase : ∀ (lead : List Char) (tail : List Char) (a : String),
    lead = ['0', 'x'] ∨ lead = ['4', '1'] → assertsChecksum tail = true →
    canonicalizeAddress codec (.ofList (lead ++ tail)) = .ok a →
    a = .ofList ('0' :: 'x' :: tail)
  canonical : ∀ value, isCanonicalAddress codec value = true ↔
    ∃ input, canonicalizeAddress codec input = .ok value
  idempotent : ∀ input a, canonicalizeAddress codec input = .ok a →
    canonicalizeAddress codec a = .ok a
  undoesBase58 : ∀ a, isCanonicalAddress codec a = true →
    canonicalizeAddress codec (toBase58 codec a) = .ok a
  undoesTronHex : ∀ a, isCanonicalAddress codec a = true →
    canonicalizeAddress codec (toTronHex a) = .ok a
  nonThrowing : ∀ input,
    tryCanonicalizeAddress codec input = (canonicalizeAddress codec input).toOption
  chain : ∀ input a r, canonicalizeAddress codec input = .ok a → toRpcAddress input = .ok r →
    ∃ body : AddressBody, a = body.eip55 codec ∧ r = body.lowerHex

theorem one_identity {codec : AddressCodec} (correct : CorrectCodec codec) : OneIdentity codec where
  spellings := canonicalizeAddress_spelling correct
  mixedCase lead tail a hlead claims h := by
    obtain ⟨tail', htail, rfl, sound⟩ := mintFrom_ok (canonicalizeAddress_eq_ok.mp h)
    obtain ⟨-, hinput⟩ := evmTailOf_ok correct htail
    have same : tail' = tail := by
      simp only [← String.toList_inj, String.toList_ofList] at hinput
      rcases hinput with hinput | hinput | ⟨body, hinput, -⟩
      · rcases hlead with rfl | rfl <;> cases hinput
        rfl
      · rcases hlead with rfl | rfl <;> cases hinput
        rfl
      · obtain ⟨rest, hrest⟩ := isBase58Shape_cons (correct.base58_shape body)
        rw [hrest] at hinput
        rcases hlead with rfl | rfl <;> cases hinput
    subst same
    exact (sound claims).symm
  canonical value := by
    rw [isCanonicalAddress_iff correct]
    constructor
    · rintro ⟨body, rfl⟩
      exact ⟨_, canonicalizeAddress_eip55 correct body⟩
    · rintro ⟨input, h⟩
      obtain ⟨body, _, -, rfl, -⟩ := canonicalizeAddress_ok correct h
      exact ⟨body, rfl⟩
  idempotent _ _ := canonicalizeAddress_idempotent correct
  undoesBase58 a h := by
    obtain ⟨body, rfl⟩ := (isCanonicalAddress_iff correct).mp h
    obtain ⟨tail, ht, heq⟩ := Tail.checksum correct body
    have hbase58 : toBase58 codec (body.eip55 codec) = body.base58 codec := by
      rw [heq]
      simpa [toBase58, toTronHex] using correct.fromHex body tail ht.hex ht.digits
    rw [hbase58]
    exact canonicalizeAddress_spelling correct body .base58
  undoesTronHex a h := by
    obtain ⟨body, rfl⟩ := (isCanonicalAddress_iff correct).mp h
    exact canonicalizeAddress_spelling correct body (.tronHex .checksum)
  nonThrowing input := by
    unfold tryCanonicalizeAddress canonicalizeAddress
    cases mintFrom codec input <;> rfl
  chain _ _ _ := toRpcAddress_agrees correct

/-- The checksum of the zero address's base58 text, and zero for the others. -/
def zeroChecksum (n : Nat) : BitVec 32 := if n = 0 then 0xb97c0702 else 0

theorem one_identity_base58Check : OneIdentity (base58CheckCodec zeroChecksum) :=
  one_identity base58CheckCodec_correct

example : toBase58 (base58CheckCodec zeroChecksum) "0x0000000000000000000000000000000000000000" =
    "T9yD14Nj9j7xAB4dbGeiX9h8unkKHxuWwb" := by decide

end TronUpgrades.Address
