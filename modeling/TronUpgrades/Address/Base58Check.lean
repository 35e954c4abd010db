import TronUpgrades.Address.Spelling
import TronUpgrades.Radix.Numeral

/-!
# A base58check codec

TRON's base58 text of an address: the byte `41`, the twenty bytes and four
bytes of checksum, in thirty-four base58 digits. Whatever the checksum, the
codec is a correct one; `zeroChecksum` is right for the zero address.
-/

namespace TronUpgrades.Address

open Text Radix

def hexAlphabet : Alphabet := ⟨"0123456789abcdef".toList, by decide⟩

def base58Alphabet : Alphabet :=
  ⟨"123456789ABCDEFGHJKLMNPQRSTUVWXYZabcdefghijkmnopqrstuvwxyz".toList, by decide⟩

theorem hexAlphabet_pow : hexAlphabet.base ^ evmHexDigits = 2 ^ 160 := by
  have base : hexAlphabet.base = 16 := by decide
  rw [base]
  decide

theorem base58Alphabet_pow : base58Alphabet.base ^ base58AddressChars = 58 ^ 34 := by
  have base : base58Alphabet.base = 58 := by decide
  rw [base]
  rfl

namespace AddressBody

def value (body : AddressBody) : Nat := hexAlphabet.value body.digits

theorem digits_mem (body : AddressBody) : ∀ c ∈ body.digits, c ∈ hexAlphabet.chars := by
  have digit : ∀ c ∈ hexDigits, isLowerHexDigit c = true → c ∈ hexAlphabet.chars :=
    forall_mem_of_all (by decide)
  have lower := body.lower
  rw [List.all_eq_true] at lower
  intro c hc
  exact isHexDigit_cases digit (isLowerHexDigit_isHexDigit (lower c hc)) (lower c hc)

theorem value_lt (body : AddressBody) : body.value < 2 ^ 160 := by
  have hlt := hexAlphabet.value_lt body.digits_mem
  rwa [body.length_eq, hexAlphabet_pow] at hlt

theorem spell_value (body : AddressBody) : hexAlphabet.spell evmHexDigits body.value = body.digits := by
  rw [← body.length_eq]
  exact hexAlphabet.spell_value body.digits_mem

def ofValue (n : Nat) : AddressBody where
  digits := hexAlphabet.spell evmHexDigits n
  length_eq := hexAlphabet.spell_length
  lower := by
    have digit : ∀ c ∈ hexAlphabet.chars, isLowerHexDigit c = true :=
      forall_mem_of_all (by decide)
    rw [List.all_eq_true]
    exact fun c hc => digit c (hexAlphabet.spell_mem (by decide) c hc)

theorem ofValue_value {n : Nat} (hn : n < 2 ^ 160) : (ofValue n).value = n := by
  rw [← hexAlphabet_pow] at hn
  simp only [value, ofValue]
  exact Alphabet.value_spell (by decide) hn

end AddressBody

section
variable (checksum : Nat → BitVec 32)

/-- Version, payload, checksum. -/
def checked (n : Nat) : Nat := (0x41 * 2 ^ 160 + n) * 2 ^ 32 + (checksum n).toNat

def payload (v : Nat) : Nat := v / 2 ^ 32 % 2 ^ 160

def verifies (v : Nat) : Bool := checked checksum (payload v) == v

def encode (n : Nat) : String :=
  .ofList (base58Alphabet.spell base58AddressChars (checked checksum n))

/-- Checksum casing is left to the caller: it changes no address without letters. -/
def base58CheckCodec : AddressCodec where
  isAddress input := input.toList.length == base58AddressChars &&
    input.toList.all (base58Alphabet.chars.contains ·) &&
    verifies checksum (base58Alphabet.value input.toList)
  toHex input := .ofList ('4' :: '1' ::
    hexAlphabet.spell evmHexDigits (payload (base58Alphabet.value input.toList)))
  fromHex input := encode checksum (hexAlphabet.value (toLowerCase (input.toList.drop 2)))
  getAddress input := input

end

section
variable {checksum : Nat → BitVec 32} {n : Nat}

theorem checked_bounds (checksum : Nat → BitVec 32) (hn : n < 2 ^ 160) :
    26 * 58 ^ 33 ≤ checked checksum n ∧ checked checksum n < 27 * 58 ^ 33 := by
  have hc := (checksum n).isLt
  unfold checked
  constructor <;> omega

theorem checked_lt (hn : n < 2 ^ 160) :
    checked checksum n < base58Alphabet.base ^ base58AddressChars := by
  have bounds := checked_bounds checksum hn
  rw [base58Alphabet_pow]
  omega

theorem payload_checked (hn : n < 2 ^ 160) : payload (checked checksum n) = n := by
  have hc := (checksum n).isLt
  unfold payload checked
  omega

theorem value_encode (hn : n < 2 ^ 160) :
    base58Alphabet.value (encode checksum n).toList = checked checksum n := by
  rw [encode, String.toList_ofList]
  exact base58Alphabet.value_spell (by decide) (checked_lt hn)

theorem base58_eq (body : AddressBody) :
    body.base58 (base58CheckCodec checksum) = encode checksum body.value := by
  simp [AddressBody.base58, base58CheckCodec, toLowerCase_lowerHex body.lower, AddressBody.value]

theorem encode_mem (checksum : Nat → BitVec 32) (n : Nat) : ∀ c ∈ (encode checksum n).toList, c ∈ base58Alphabet.chars := by
  rw [encode, String.toList_ofList]
  exact base58Alphabet.spell_mem (by decide)

/-- An encoded address begins with `T`. -/
theorem encode_shape (hn : n < 2 ^ 160) : isBase58Shape (encode checksum n).toList = true := by
  have letter : ∀ c ∈ base58Alphabet.chars, isBase58Char c = true :=
    forall_mem_of_all (by decide)
  have bounds := checked_bounds checksum hn
  have leading : checked checksum n / 58 ^ 33 % 58 = 26 := by omega
  have hcons : (encode checksum n).toList = 'T' :: base58Alphabet.spell 33 (checked checksum n) := by
    rw [encode, String.toList_ofList]
    have base : base58Alphabet.base = 58 := by decide
    simp only [Alphabet.spell, base58AddressChars, base, numeral_succ (w := 33), leading]
    rfl
  have hmem := encode_mem checksum n
  rw [hcons] at hmem ⊢
  cases hrest : base58Alphabet.spell 33 (checked checksum n) with
  | nil =>
    have hlength := Alphabet.spell_length (A := base58Alphabet) (w := 33) (n := checked checksum n)
    rw [hrest] at hlength
    cases hlength
  | cons c rest =>
    rw [hrest] at hmem
    simp only [isBase58Shape, List.all_eq_true]
    exact fun c hc => letter c (hmem c (List.mem_cons_of_mem _ hc))

theorem base58CheckCodec_correct : CorrectCodec (base58CheckCodec checksum) where
  getAddress body := ⟨body.digits, body.hex, toLowerCase_lowerHex body.lower, rfl⟩
  fromHex body tail _ digits := by
    simp [base58CheckCodec, AddressBody.base58, digits, toLowerCase_lowerHex body.lower]
  base58_shape body := by
    rw [base58_eq]
    exact encode_shape body.value_lt
  base58_length body := by
    rw [base58_eq, encode, String.toList_ofList]
    exact base58Alphabet.spell_length
  isAddress body := by
    have hlength : (encode checksum body.value).toList.length = base58AddressChars := by
      rw [encode, String.toList_ofList]
      exact base58Alphabet.spell_length
    have hmem := encode_mem checksum body.value
    rw [base58_eq]
    simp only [base58CheckCodec, hlength, beq_self_eq_true, Bool.true_and, Bool.and_eq_true,
      List.all_eq_true, List.contains_iff_mem]
    refine ⟨hmem, ?_⟩
    simp [verifies, value_encode body.value_lt, payload_checked body.value_lt]
  toHex body := by
    rw [base58_eq]
    simp only [base58CheckCodec, value_encode body.value_lt, payload_checked body.value_lt,
      body.spell_value]
  decodes input _ _ valid := by
    simp only [base58CheckCodec, Bool.and_eq_true, List.all_eq_true, List.contains_iff_mem,
      beq_iff_eq, verifies] at valid
    obtain ⟨⟨hlength, hmem⟩, hvalue⟩ := valid
    have hlt : payload (base58Alphabet.value input.toList) < 2 ^ 160 := Nat.mod_lt _ (by decide)
    refine ⟨.ofValue (payload (base58Alphabet.value input.toList)), ?_⟩
    rw [base58_eq, AddressBody.ofValue_value hlt, encode, hvalue, ← hlength,
      base58Alphabet.spell_value hmem, String.ofList_toList]

end

end TronUpgrades.Address
