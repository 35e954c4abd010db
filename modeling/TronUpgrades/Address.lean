import TronUpgrades.Text

/-!
# Addresses

Three encodings of a TRON address come in, one canonical form goes out: `0x`
and forty hex digits in checksum casing. `mintFrom` is total;
`canonicalizeAddress` and `tryCanonicalizeAddress` are its two faces. The
base58 codec and the checksummer are library code, taken as a parameter.
-/

namespace TronUpgrades

open Text

inductive AddressRejectionCause
  | unrecognisedEncoding | base58Checksum | wrongLength | wrongPrefixByte
  | postConversionShape
  deriving DecidableEq, Repr

/-- What is called of the address libraries. -/
structure AddressCodec where
  /-- `utils.address.isAddress`: verifies the base58check checksum. -/
  isAddress : String → Bool
  /-- `utils.address.toHex` -/
  toHex : String → String
  /-- `utils.address.fromHex` -/
  fromHex : String → String
  /-- `getAddress` of `0x` and lower-case digits. -/
  getAddress : String → String

namespace Address

def tronHexChars : Nat := 42
def evmHexDigits : Nat := 40
def base58AddressChars : Nat := 34

/-- Bitcoin's base58 alphabet omits `0`, `O`, `I` and `l`. -/
def isBase58Char (c : Char) : Bool :=
  ('1' ≤ c && c ≤ '9') || ('A' ≤ c && c ≤ 'H') || ('J' ≤ c && c ≤ 'N') ||
    ('P' ≤ c && c ≤ 'Z') || ('a' ≤ c && c ≤ 'k') || ('m' ≤ c && c ≤ 'z')

/-- `/^0x[0-9a-fA-F]*$/`, answering the digits. -/
def prefixedHex? : List Char → Option (List Char)
  | '0' :: 'x' :: digits => if digits.all isHexDigit then some digits else none
  | _ => none

/-- `/^[0-9a-fA-F]+$/` -/
def isBareHex (cs : List Char) : Bool := !cs.isEmpty && cs.all isHexDigit

/-- `/^T[1-9A-HJ-NP-Za-km-z]+$/` -/
def isBase58Shape : List Char → Bool
  | 'T' :: c :: rest => (c :: rest).all isBase58Char
  | _ => false

/-- What follows TRON's fixed `41` byte. -/
def afterTronPrefix : List Char → Option (List Char)
  | '4' :: '1' :: rest => some rest
  | _ => none

/-- `/^0x[0-9a-fA-F]{40}$/` -/
def isEvmHex (value : String) : Bool :=
  match prefixedHex? value.toList with
  | some digits => digits.length == evmHexDigits
  | none => false

section
variable (codec : AddressCodec)

/-- Triage by shape, then forty hex digits in the caller's own casing. -/
def evmTailOf (input : String) : Except AddressRejectionCause (List Char) :=
  let cs := input.toList
  match prefixedHex? cs with
  | some digits => if digits.length = evmHexDigits then .ok digits else .error .wrongLength
  | none =>
    if isBareHex cs then
      if cs.length ≠ tronHexChars then .error .wrongLength
      else match afterTronPrefix cs with
        | some tail => .ok tail
        | none => .error .wrongPrefixByte
    else if isBase58Shape cs then
      if cs.length ≠ base58AddressChars then .error .wrongLength
      else if !codec.isAddress input then .error .base58Checksum
      else
        -- the converted value is asserted again, not trusted
        let tronHex := (codec.toHex input).toList
        match afterTronPrefix tronHex with
        | some tail =>
          if tail.all isHexDigit && tail.length == evmHexDigits then .ok tail
          else .error .postConversionShape
        | none => .error .postConversionShape
    else .error .unrecognisedEncoding

/-- Both cases of a hex letter present: the spelling claims a checksum. -/
def assertsChecksum (tail : List Char) : Bool :=
  tail.any isLowerHexLetter && tail.any isUpperHexLetter

def checksummed (tail : List Char) : String :=
  codec.getAddress (.ofList ('0' :: 'x' :: toLowerCase tail))

def mintFrom (input : String) : Except AddressRejectionCause String := do
  let tail ← evmTailOf codec input
  let address := checksummed codec tail
  if assertsChecksum tail && String.ofList ('0' :: 'x' :: tail) != address then
    throw .postConversionShape
  return address

def tryCanonicalizeAddress (input : String) : Option String := (mintFrom codec input).toOption

def isCanonicalAddress (value : String) : Bool :=
  isEvmHex value && checksummed codec (value.toList.drop 2) == value

/-- 21-byte TRON hex, for correlation only. -/
def toTronHex (address : String) : String := .ofList ('4' :: '1' :: address.toList.drop 2)

def toBase58 (address : String) : String := codec.fromHex (toTronHex address)

end

end Address

end TronUpgrades
