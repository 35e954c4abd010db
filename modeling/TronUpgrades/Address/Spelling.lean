import TronUpgrades.Address

/-!
# Spellings of an address

Twenty bytes, the texts that name them, and what the address libraries are
relied on for.
-/

namespace TronUpgrades.Address

open Text

-- ---------------------------------------------------------------------------
-- Twenty bytes and their spellings
-- ---------------------------------------------------------------------------

/-- Twenty bytes, as their forty hex digits in lower case. -/
structure AddressBody where
  digits : List Char
  length_eq : digits.length = evmHexDigits
  lower : digits.all isLowerHexDigit = true

namespace AddressBody

theorem ext {a b : AddressBody} (h : a.digits = b.digits) : a = b := by
  cases a
  cases h
  rfl

theorem hex (body : AddressBody) : body.digits.all isHexDigit = true := lowerHex_hex body.lower

def lowerHex (body : AddressBody) : String := .ofList ('0' :: 'x' :: body.digits)

/-- Forty hex digits in any casing. -/
def ofTail (tail : List Char) (hex : tail.all isHexDigit = true)
    (length : tail.length = evmHexDigits) : AddressBody where
  digits := toLowerCase tail
  length_eq := (List.length_map ..).trans length
  lower := toLowerCase_hex hex

section
variable (codec : AddressCodec) (body : AddressBody)

def base58 : String := codec.fromHex (.ofList ('4' :: '1' :: body.digits))

def eip55 : String := codec.getAddress body.lowerHex

end

end AddressBody

inductive Casing
  | lower | upper | checksum
  deriving DecidableEq, Repr

inductive Spelling
  | base58
  | tronHex (casing : Casing)
  | evmHex (casing : Casing)
  deriving DecidableEq, Repr

def AddressBody.cased (codec : AddressCodec) (body : AddressBody) : Casing → List Char
  | .lower => body.digits
  | .upper => toUpperCase body.digits
  | .checksum => (body.eip55 codec).toList.drop 2

def AddressBody.spelling (codec : AddressCodec) (body : AddressBody) : Spelling → String
  | .base58 => body.base58 codec
  | .tronHex casing => .ofList ('4' :: '1' :: body.cased codec casing)
  | .evmHex casing => .ofList ('0' :: 'x' :: body.cased codec casing)

-- ---------------------------------------------------------------------------
-- The libraries
-- ---------------------------------------------------------------------------

/-- The base58check codec and the checksummer, as their documentation has it. -/
structure CorrectCodec (codec : AddressCodec) : Prop where
  /-- Checksum casing changes the case of letters and nothing else. -/
  getAddress : ∀ body : AddressBody, ∃ tail, tail.all isHexDigit = true ∧
    toLowerCase tail = body.digits ∧ body.eip55 codec = .ofList ('0' :: 'x' :: tail)
  /-- Hex is read in any case. -/
  fromHex : ∀ (body : AddressBody) (tail : List Char), tail.all isHexDigit = true →
    toLowerCase tail = body.digits →
    codec.fromHex (.ofList ('4' :: '1' :: tail)) = body.base58 codec
  base58_shape : ∀ body : AddressBody, isBase58Shape (body.base58 codec).toList = true
  base58_length : ∀ body : AddressBody, (body.base58 codec).toList.length = base58AddressChars
  isAddress : ∀ body : AddressBody, codec.isAddress (body.base58 codec) = true
  toHex : ∀ body : AddressBody,
    codec.toHex (body.base58 codec) = .ofList ('4' :: '1' :: body.digits)
  /-- A text whose base58check checksum verifies encodes an address. -/
  decodes : ∀ input : String, isBase58Shape input.toList = true →
    input.toList.length = base58AddressChars → codec.isAddress input = true →
    ∃ body : AddressBody, input = body.base58 codec

end TronUpgrades.Address
