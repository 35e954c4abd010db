import TronUpgrades.Address

/-!
# Addresses on the wire

What the chain layer makes of an address argument before it goes into a
JSON-RPC request, and of a storage word, written without the record layer's
normaliser.
-/

namespace TronUpgrades.Chain

open Text Address

/-- An address that cannot go into a request, and why. -/
structure ChainAddressUnusable where
  because : String
  address : String
  deriving DecidableEq, Repr

def looksLikeBase58Address (value : String) : Bool :=
  value.toList.length == base58AddressChars && value.toList.head? == some 'T' &&
    value.toList.all isBase58Char

/-- Twenty bytes in lower case from `0x` hex, bare hex or `41` hex. -/
def toRpcAddress (address : String) : Except ChainAddressUnusable String :=
  if address.toList = [] then .error ⟨"it is empty", address⟩
  else if looksLikeBase58Address address then
    .error ⟨"it is TRON's Base58 form, which the JSON-RPC service refuses with a " ++
      "hex-decoding error rather than a useful one", address⟩
  else
    let digits := stripHexPrefix address.toList
    let unusable : Except ChainAddressUnusable String := .error ⟨"it is " ++ toString digits.length ++
      " hex characters, which is neither a 20-byte address (40) nor 41-prefixed TRON hex (42)",
      address⟩
    if !digits.all isHexDigit then .error ⟨"it is not hexadecimal", address⟩
    else if digits.length = evmHexDigits then .ok (.ofList ('0' :: 'x' :: toLowerCase digits))
    else match afterTronPrefix digits with
      | some tail =>
        if digits.length = tronHexChars then .ok (.ofList ('0' :: 'x' :: toLowerCase tail))
        else unusable
      | none => unusable

-- ---------------------------------------------------------------------------
-- Words
-- ---------------------------------------------------------------------------

/-- A word that carries no address, and why. -/
structure ChainSlotMalformed where
  because : String
  word : String
  deriving DecidableEq, Repr

def slotWordHexChars : Nat := 64
def addressPadHexChars : Nat := 24

/-- `owner()` -/
def ownerSelector : String := "0x8da5cb5b"

/-- `implementation()` -/
def implementationSelector : String := "0x5c60da1b"

def isZeros (digits : List Char) : Bool := digits.all (· == '0')

def looksLikeSlotAddressWord (word : String) : Bool :=
  let digits := stripHexPrefix word.toList
  digits.length == slotWordHexChars && digits.all isHexDigit &&
    isZeros (digits.take addressPadHexChars)

/-- The last twenty bytes of a word whose other twelve are zero. -/
def slotToAddress (word : String) : Except ChainSlotMalformed String :=
  let digits := stripHexPrefix word.toList
  if !digits.all isHexDigit then .error ⟨"it is not hexadecimal", word⟩
  else if digits.length ≠ slotWordHexChars then
    .error ⟨"it is " ++ toString digits.length ++ " hex characters rather than 64", word⟩
  else if !isZeros (digits.take addressPadHexChars) then
    .error ⟨"its top 12 bytes are not zero, so its low 20 bytes are not an address", word⟩
  else .ok (.ofList ('0' :: 'x' :: toLowerCase (digits.drop addressPadHexChars)))

/-- The address of a word is in its last digits. -/
theorem slotToAddress_iff {word address : String} : slotToAddress word = .ok address ↔
    looksLikeSlotAddressWord word = true ∧
      .ofList ('0' :: 'x' :: toLowerCase ((stripHexPrefix word.toList).drop addressPadHexChars)) =
        address := by
  unfold slotToAddress looksLikeSlotAddressWord
  by_cases hhex : (stripHexPrefix word.toList).all isHexDigit = true
  · by_cases hlength : (stripHexPrefix word.toList).length = slotWordHexChars
    · by_cases hzeros : isZeros ((stripHexPrefix word.toList).take addressPadHexChars) = true
      · simp [hhex, hlength, hzeros]
      · simp [hhex, hlength, hzeros]
    · simp [hhex, hlength]
  · simp [hhex]

/-- The predicate and the refusing reader agree. -/
theorem slotToAddress_ok {word : String} :
    (∃ address, slotToAddress word = .ok address) ↔ looksLikeSlotAddressWord word = true := by
  simp [slotToAddress_iff]

end TronUpgrades.Chain
