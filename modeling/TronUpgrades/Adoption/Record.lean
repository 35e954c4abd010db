import TronUpgrades.Effects.Tracking
import TronUpgrades.Hardhat.Manifest
import TronUpgrades.Tronbox.Runs

/-!
# The record under an adoption

Both plugins keep one manifest through the engine's own code. Here is what the
engine does to it for the TronBox plugin's operations, and when the entries that
name one address agree on its layout.
-/

namespace TronUpgrades.Hardhat

open Tronbox Keyed

section
variable {E : Engine} {m : Manifest E} {version : E.Version} {layout : E.Layout}
  {address : String} {txHash : Option String}

-- ---------------------------------------------------------------------------
-- The proxies
-- ---------------------------------------------------------------------------

/-- `addProxy`: the first record of the address is written over. -/
def putProxy (proxy : ProxyRecord) : List ProxyRecord → List ProxyRecord
  | [] => [proxy]
  | other :: rest => if other.address = proxy.address then proxy :: rest
    else other :: putProxy proxy rest

def Manifest.addProxy (m : Manifest E) (kind : ProxyKind) (address : String) : Manifest E :=
  { m with proxies := putProxy ⟨address, kind⟩ m.proxies }

/-- The engine's lookup, by the exact text. -/
def Manifest.kindOf (m : Manifest E) (address : String) : Option ProxyKind :=
  (m.proxies.find? fun proxy => proxy.address = address).map (·.kind)

theorem find?_putProxy (proxy : ProxyRecord) (proxies : List ProxyRecord) (a : String) :
    (putProxy proxy proxies).find? (fun other => other.address = a) =
      if proxy.address = a then some proxy else proxies.find? fun other => other.address = a := by
  induction proxies with
  | nil => by_cases ha : proxy.address = a <;> simp [putProxy, ha]
  | cons other rest ih =>
    unfold putProxy
    by_cases hsame : other.address = proxy.address
    · by_cases ha : proxy.address = a <;> simp [hsame, ha]
    · by_cases ha : proxy.address = a
      · rw [if_neg hsame, if_pos ha, List.find?_cons]
        simp [ha ▸ hsame, ih, ha]
      · rw [if_neg hsame, if_neg ha, List.find?_cons, List.find?_cons, ih, if_neg ha]

theorem kindOf_addProxy (kind : ProxyKind) (a : String) :
    (m.addProxy kind address).kindOf a = if address = a then some kind else m.kindOf a := by
  simp only [Manifest.kindOf, Manifest.addProxy, find?_putProxy]
  by_cases ha : address = a <;> simp [ha]

-- ---------------------------------------------------------------------------
-- The implementations
-- ---------------------------------------------------------------------------

/-- An entry that the engine could not use is taken out. -/
def Manifest.removed (m : Manifest E) (version : E.Version) : Manifest E :=
  { m with impls := m.impls.erase (E.linkedWithoutMetadata version) }

/-- The engine's merge: the first address, layout and transaction stay. -/
def Manifest.stored (m : Manifest E) (version : E.Version) (layout : E.Layout)
    (deployment : EngineDeployment) : Manifest E :=
  m.recordImpl version layout deployment.address deployment.transactionHash

/-- The layout that a version keeps when a deployment is recorded under it. -/
def Manifest.keptLayout (m : Manifest E) (version : E.Version) (layout : E.Layout) : E.Layout :=
  ((m.impl? (E.linkedWithoutMetadata version)).map (·.layout)).getD layout

/-- Entries that name one address hold one layout. -/
def Manifest.LayoutsAgree (m : Manifest E) : Prop :=
  ∀ key key' entry entry' a, m.impl? key = some entry → m.impl? key' = some entry' →
    a ∈ entry.addresses → a ∈ entry'.addresses → entry.layout = entry'.layout

theorem mem_mergedEntry {existing : Option (ImplEntry E)} {a : String} :
    a ∈ (mergedEntry layout address txHash existing).addresses ↔
      a = address ∨ ∃ entry, existing = some entry ∧ a ∈ entry.addresses := by
  cases existing with
  | none => simp [mergedEntry, ImplEntry.addresses]
  | some entry =>
    simp only [mergedEntry, ImplEntry.addresses, Option.getD_some, List.mem_cons,
      List.mem_eraseDups, Option.some.injEq, exists_eq_left']
    tauto

theorem impl?_removed_self :
    (m.removed version).impl? (E.linkedWithoutMetadata version) = none :=
  OrderedMap.get?_erase_self ..

theorem impl?_removed_of_ne {key : String} (hkey : key ≠ E.linkedWithoutMetadata version) :
    (m.removed version).impl? key = m.impl? key :=
  OrderedMap.get?_erase_of_ne _ hkey

theorem impl?_removed {key : String} {entry : ImplEntry E}
    (h : (m.removed version).impl? key = some entry) : m.impl? key = some entry := by
  by_cases hkey : key = E.linkedWithoutMetadata version
  · rw [hkey, impl?_removed_self] at h
    cases h
  · rwa [impl?_removed_of_ne hkey] at h

theorem layoutsAgree_removed (h : m.LayoutsAgree) : (m.removed version).LayoutsAgree :=
  fun key key' entry entry' a hentry hentry' =>
    h key key' entry entry' a (impl?_removed hentry) (impl?_removed hentry')

/-- A recorded deployment disagrees with the entries of other versions alone. -/
theorem layoutsAgree_recordImpl (h : m.LayoutsAgree) :
    (m.recordImpl version layout address txHash).LayoutsAgree ↔
      ∀ key entry, key ≠ E.linkedWithoutMetadata version → m.impl? key = some entry →
        address ∈ entry.addresses → entry.layout = m.keptLayout version layout := by
  have hself : (m.recordImpl version layout address txHash).impl?
      (E.linkedWithoutMetadata version) = some (mergedEntry layout address txHash
        (m.impl? (E.linkedWithoutMetadata version))) := impl?_recordImpl_self
  have hkept : (mergedEntry layout address txHash
      (m.impl? (E.linkedWithoutMetadata version))).layout = m.keptLayout version layout :=
    mergedEntry_layout _
  constructor
  · intro hagree key entry hkey hentry ha
    have hother : (m.recordImpl version layout address txHash).impl? key = some entry :=
      (impl?_recordImpl_of_ne hkey).trans hentry
    exact (hagree key _ entry _ address hother hself ha (mem_mergedEntry.mpr (.inl rfl))).trans hkept
  · intro hothers
    -- an address of the version's own entry, met in another one
    have met : ∀ key entry a, key ≠ E.linkedWithoutMetadata version → m.impl? key = some entry →
        a ∈ entry.addresses → a ∈ (mergedEntry layout address txHash
          (m.impl? (E.linkedWithoutMetadata version))).addresses →
        entry.layout = m.keptLayout version layout := by
      intro key entry a hkey hentry ha hmerged
      rcases mem_mergedEntry.mp hmerged with rfl | ⟨own, hown, hmem⟩
      · exact hothers key entry hkey hentry ha
      · rw [h key _ entry own a hentry hown ha hmem, Manifest.keptLayout, hown]
        rfl
    intro key key' entry entry' a hentry hentry' ha ha'
    by_cases hkey : key = E.linkedWithoutMetadata version <;>
      by_cases hkey' : key' = E.linkedWithoutMetadata version
    · rw [hkey] at hentry
      rw [hkey'] at hentry'
      cases hentry.symm.trans hentry'
      rfl
    · rw [hkey] at hentry
      rw [impl?_recordImpl_of_ne hkey'] at hentry'
      cases hself.symm.trans hentry
      exact hkept.trans (met key' entry' a hkey' hentry' ha' ha).symm
    · rw [hkey'] at hentry'
      rw [impl?_recordImpl_of_ne hkey] at hentry
      cases hself.symm.trans hentry'
      exact (met key entry a hkey hentry ha ha').trans hkept.symm
    · rw [impl?_recordImpl_of_ne hkey] at hentry
      rw [impl?_recordImpl_of_ne hkey'] at hentry'
      exact h key key' entry entry' a hentry hentry' ha ha'

end

end TronUpgrades.Hardhat

namespace TronUpgrades.Adoption

open Effects Tronbox Hardhat

section
variable {E : Engine}

/-- Whether an operation may change the record. -/
def writesRecord : HostOp E → Bool
  | .engineStart _ _ | .engineSettle _ _ _ | .addProxyRecord _ _ => true
  | _ => false

def engineVersion? : HostOp E → Option E.Version
  | .engineStart version _ | .engineSettle version _ _ => some version
  | _ => none

/-- What the engine does to the record when an implementation is adopted: it
merges what it is given, and it may fail after that; where it says that it has
removed the version's entry, that is gone. -/
inductive RecordStep : Manifest E → (op : HostOp E) → Except Failure op.Reply → Manifest E → Prop
  | proxyRecord {m} {address : String} :
      RecordStep m (.proxyRecord address) (.ok (m.kindOf address)) m
  | addProxyRecord {m} {address : String} {kind : ProxyKind} {r} :
      RecordStep m (.addProxyRecord address kind) r (m.addProxy kind address)
  | started {m} {version : E.Version} {redeploy : Bool} {address : Option String} :
      (redeploy = true → address = none) → RecordStep m (.engineStart version redeploy) (.ok address) m
  | stored {m} {version : E.Version} {layout : E.Layout} {deployment : EngineDeployment} {r} :
      (∀ e, r = .error e → e.isRemoved = false) →
      RecordStep m (.engineSettle version layout (.ok deployment)) r
        (m.stored version layout deployment)
  | removed {m} {op : HostOp E} {version : E.Version} {e : Failure} :
      engineVersion? op = some version → e.isRemoved = true →
      RecordStep m op (.error e) (m.removed version)
  | rejected {m} {op : HostOp E} {e : Failure} : RecordStep m op (.error e) m
  | elsewhere {m} {op : HostOp E} {a} : writesRecord op = false →
      (∀ address, op ≠ .proxyRecord address) → RecordStep m op (.ok a) m

/-- Runs over a record whose other answers satisfy `lawful`. -/
abbrev recordWorld (lawful : Event (hostEffects E) Failure → Prop) :
    World (hostEffects E) Failure (Tracked (Manifest E) (hostEffects E) Failure) :=
  .tracking RecordStep lawful

abbrev Recorded (E : Engine) := Tracked (Manifest E) (hostEffects E) Failure

theorem RecordStep.idle {m m' : Manifest E} {op : HostOp E} {r : Except Failure op.Reply}
    (h : RecordStep m op r m') (hop : writesRecord op = false) : m' = m := by
  cases h with
  | addProxyRecord | started | stored => cases hop
  | removed hversion =>
    cases op with
    | engineStart | engineSettle => cases hop
    | _ => cases hversion
  | _ => rfl

theorem RecordStep.proxies {m m' : Manifest E} {op : HostOp E} {r : Except Failure op.Reply}
    (h : RecordStep m op r m') (hop : ∀ address kind, op ≠ .addProxyRecord address kind) :
    m'.proxies = m.proxies := by
  cases h with
  | addProxyRecord => exact absurd rfl (hop _ _)
  | _ => rfl

/-- The version's entry names the address. -/
def Holds (m : Manifest E) (version : E.Version) (address : String) : Prop :=
  ∃ entry, m.impl? (E.linkedWithoutMetadata version) = some entry ∧ address ∈ entry.addresses

theorem Holds.stored (m : Manifest E) (version : E.Version) (layout : E.Layout)
    (deployment : EngineDeployment) :
    Holds (m.stored version layout deployment) version deployment.address :=
  ⟨_, impl?_recordImpl_self, mem_mergedEntry.mpr (.inl rfl)⟩

theorem Holds.layout {m : Manifest E} {version : E.Version} {address : String}
    (h : Holds m version address) : (m.layoutForAddress address).isSome = true := by
  obtain ⟨entry, hentry, ha⟩ := h
  exact layoutForAddress_isSome hentry (ImplEntry.covers_iff.mpr ha)

end

end TronUpgrades.Adoption
