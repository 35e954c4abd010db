import TronUpgrades.Hardhat.BeforeSpend
import TronUpgrades.Keyed.OrderedMap

/-!
# The Hardhat plugin's manifest

The manifest that the plugin reads and writes: implementations under their
version's key, in the order in which the keys came, each with the layout it was
first recorded with and every address it was found at. `recordImpl` merges by
key, `layoutForAddress` looks up by address; `layoutForAddress_recordImpl` says
where the two meet.
-/

namespace TronUpgrades.Hardhat

open Tronbox Keyed

structure ImplEntry (E : Engine) where
  address : String
  txHash : Option String
  layout : E.Layout
  allAddresses : Option (List String)

structure ProxyRecord where
  address : String
  kind : ProxyKind

structure Manifest (E : Engine) where
  impls : OrderedMap String (ImplEntry E)
  proxies : List ProxyRecord
  admin : Option String

variable {E : Engine}

def ImplEntry.addresses (entry : ImplEntry E) : List String :=
  entry.address :: entry.allAddresses.getD []

def ImplEntry.covers (entry : ImplEntry E) (address : String) : Bool :=
  entry.addresses.contains address

theorem ImplEntry.covers_iff {entry : ImplEntry E} {address : String} :
    entry.covers address = true ↔ address ∈ entry.addresses := by
  simp [ImplEntry.covers]

-- ---------------------------------------------------------------------------
-- Addresses in their checksummed form
-- ---------------------------------------------------------------------------

section
variable (getAddress : String → String)

/-- Only 0x-hex addresses are touched. -/
def canon (address : String) : String :=
  if isEvmAddress address then getAddress address else address

def ImplEntry.canonicalized (entry : ImplEntry E) : ImplEntry E :=
  { entry with
    address := canon getAddress entry.address
    allAddresses := entry.allAddresses.map (·.map (canon getAddress)) }

/-- `canonicalizeStoredAddresses`: what is written back, where it changed. -/
def Manifest.canonicalized (m : Manifest E) : Manifest E where
  impls := m.impls.map (·.canonicalized getAddress)
  proxies := m.proxies.map fun proxy => { proxy with address := canon getAddress proxy.address }
  admin := m.admin.map (canon getAddress)

/-- The checksum respells an address, and its own spelling not again. -/
structure Checksum : Prop where
  spells : ∀ address, isEvmAddress address = true → isEvmAddress (getAddress address) = true
  again : ∀ address, isEvmAddress address = true →
    getAddress (getAddress address) = getAddress address

variable {getAddress}

theorem canon_canon (hg : Checksum getAddress) (address : String) :
    canon getAddress (canon getAddress address) = canon getAddress address := by
  by_cases h : isEvmAddress address = true
  · simp only [canon, h, if_true, hg.spells address h, hg.again address h]
  · rw [Bool.not_eq_true] at h
    simp [canon, h]

theorem canonicalized_addresses (entry : ImplEntry E) :
    (entry.canonicalized getAddress).addresses = entry.addresses.map (canon getAddress) := by
  obtain ⟨address, txHash, layout, _ | all⟩ := entry <;> rfl

theorem canonicalized_canonicalized (hg : Checksum getAddress) (entry : ImplEntry E) :
    (entry.canonicalized getAddress).canonicalized getAddress = entry.canonicalized getAddress := by
  obtain ⟨address, txHash, layout, _ | all⟩ := entry
  · simp [ImplEntry.canonicalized, canon_canon hg]
  · simp [ImplEntry.canonicalized, canon_canon hg]

end

-- ---------------------------------------------------------------------------
-- Records and lookups
-- ---------------------------------------------------------------------------

/-- Same version, same entry: the first address and the first layout stay. -/
def mergedEntry (layout : E.Layout) (address : String) (txHash : Option String) :
    Option (ImplEntry E) → ImplEntry E
  | some existing =>
    let merged := existing.address :: address :: existing.allAddresses.getD []
    { existing with allAddresses := some merged.eraseDups }
  | none => { address, txHash, layout, allAddresses := none }

def Manifest.recordImpl (m : Manifest E) (version : E.Version) (layout : E.Layout)
    (address : String) (txHash : Option String) : Manifest E :=
  { m with
    impls := m.impls.upsert (E.linkedWithoutMetadata version) (mergedEntry layout address txHash) }

def Manifest.impl? (m : Manifest E) (key : String) : Option (ImplEntry E) := m.impls.get? key

def Manifest.proxyRecordOf (m : Manifest E) (proxyAddress : String) : Option ProxyRecord :=
  m.proxies.find? fun proxy =>
    Text.toLowerCase proxy.address.toList = Text.toLowerCase proxyAddress.toList

/-- The layout of the first entry, in key order, that holds the address. -/
def Manifest.layoutForAddress (m : Manifest E) (implAddress : String) : Option E.Layout :=
  (m.impls.find? (·.covers implAddress)).map (·.layout)

section
variable {m : Manifest E} {version : E.Version} {layout : E.Layout} {address : String}
  {txHash : Option String}

theorem mergedEntry_layout (existing : Option (ImplEntry E)) :
    (mergedEntry layout address txHash existing).layout = (existing.map (·.layout)).getD layout := by
  cases existing <;> rfl

theorem mergedEntry_covers (existing : Option (ImplEntry E)) :
    (mergedEntry layout address txHash existing).covers address = true := by
  rw [ImplEntry.covers_iff]
  cases existing <;> simp [mergedEntry, ImplEntry.addresses]

/-- A merge loses no address. -/
theorem mergedEntry_keeps {existing : ImplEntry E} {a : String} (h : existing.covers a = true) :
    (mergedEntry layout address txHash (some existing)).covers a = true := by
  rw [ImplEntry.covers_iff] at h ⊢
  simp only [ImplEntry.addresses, mergedEntry, List.mem_cons, Option.getD_some,
    List.mem_eraseDups] at h ⊢
  rcases h with rfl | h
  · exact .inl rfl
  · exact .inr (.inr (.inr h))

theorem impl?_recordImpl_self : (m.recordImpl version layout address txHash).impl?
    (E.linkedWithoutMetadata version) =
      some (mergedEntry layout address txHash (m.impl? (E.linkedWithoutMetadata version))) :=
  OrderedMap.get?_upsert_self ..

theorem impl?_recordImpl_of_ne {key : String} (hkey : key ≠ E.linkedWithoutMetadata version) :
    (m.recordImpl version layout address txHash).impl? key = m.impl? key :=
  OrderedMap.get?_upsert_of_ne _ _ hkey

/-- An address that no entry of another version covers is found where it was
recorded, with the first layout recorded there. -/
theorem layoutForAddress_recordImpl
    (hother : ∀ key entry, key ≠ E.linkedWithoutMetadata version → m.impl? key = some entry →
      entry.covers address = false) :
    (m.recordImpl version layout address txHash).layoutForAddress address =
      some (((m.impl? (E.linkedWithoutMetadata version)).map (·.layout)).getD layout) := by
  have hself : (m.recordImpl version layout address txHash).impl?
      (E.linkedWithoutMetadata version) = some _ := impl?_recordImpl_self
  have hfind := OrderedMap.find?_of_only (p := fun entry => entry.covers address) hself
    (mergedEntry_covers _) fun key entry hkey hentry =>
      hother key entry hkey ((impl?_recordImpl_of_ne hkey).symm.trans hentry)
  unfold Manifest.layoutForAddress
  rw [hfind, Option.map_some, mergedEntry_layout]

theorem impl?_canonicalized {getAddress : String → String} (key : String) :
    (m.canonicalized getAddress).impl? key = (m.impl? key).map (·.canonicalized getAddress) :=
  OrderedMap.get?_map ..

theorem layoutForAddress_isSome {key a : String} {entry : ImplEntry E}
    (hentry : m.impl? key = some entry) (ha : entry.covers a = true) :
    (m.layoutForAddress a).isSome = true := by
  rw [Manifest.layoutForAddress, Option.isSome_map]
  exact OrderedMap.find?_isSome (OrderedMap.mem_entries_iff.mpr hentry) ha

end

end TronUpgrades.Hardhat
