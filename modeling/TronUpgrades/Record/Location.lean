import Mathlib.Algebra.Ring.Nat
import TronUpgrades.Chain.Provider
import TronUpgrades.Js.Number
import TronUpgrades.Record.Reconcile

/-!
# Where the record is kept

The anchor is set before the engine reads it, and the path the engine then
produced is asserted, not the assignment. Path arithmetic is the runtime's.
-/

namespace TronUpgrades.Record

open Effects Text

/-- What is called of the runtime's `path` module. -/
structure PathModule where
  isAbsolute : String → Bool
  join : String → String → String
  dirname : String → String
  /-- `basename(file, extension)` -/
  basename : String → String → String
  relative : String → String → String

structure RecordLocation where
  dir : String

def manifestDefaultDir : String := ".openzeppelin"
def manifestExtension : String := ".json"
def fingerprintSuffix : String := ".instance.json"

section
variable (path : PathModule) {ρ : Type}

/-- An empty value in force counts as unset, as it does for the engine. -/
def configureRecordLocation (root : String) : RecordTask ρ RecordLocation := do
  let dir := path.join root manifestDefaultDir
  let configured : Option String ← ask .manifestDir
  match configured with
  | some value =>
    if value ≠ "" then
      if !path.isAbsolute value then
        throw (.recordLocationUnusable .configuredValueRelative dir
          (path.join value manifestDefaultDir) value)
      return ⟨value⟩
  | none => pure ()
  if !path.isAbsolute dir then
    throw (.recordLocationUnusable .anchorNotAbsolute dir dir none)
  ask (.setManifestDir dir)
  return ⟨dir⟩

def assertRecordLocation (location : RecordLocation) (manifestFile : String) :
    Except Failure String := do
  if !path.isAbsolute manifestFile then
    throw (.recordLocationUnusable .setTooLate location.dir manifestFile none)
  let resolvedDir := path.dirname manifestFile
  if path.relative resolvedDir location.dir ≠ "" then
    throw (.recordLocationUnusable .resolvedOutsideAnchor location.dir manifestFile none)
  return manifestFile

def fingerprintPathFor (manifestFile : String) : String :=
  let stem := path.basename manifestFile manifestExtension
  path.join (path.dirname manifestFile) (stem ++ fingerprintSuffix)

end

/-- `requireResultShape('eth_chainId', value)` and the number of its digits. -/
def requireChainId (value : String) : Except Failure Nat :=
  if Chain.isChainId value then .ok (Js.nearest (parseHex (value.toList.drop 2)))
  else .error (.chainResultShape "eth_chainId"
    "a 0x-prefixed hex quantity that parses to a positive integer" value)

/-- The engine's handle for a chain id, answering the file it resolved. -/
def openRecordManifest {ρ : Type} (chainIdHex : String) : RecordTask ρ String := do
  let chainId ← Script.ofExcept (requireChainId chainIdHex)
  ask (.constructManifest chainId)

end TronUpgrades.Record
