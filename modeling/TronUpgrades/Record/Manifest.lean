import TronUpgrades.Failure

/-!
# The deployment record

The manifest's data, what it counts as records, and the migration of stored
addresses to the canonical form. `ρ` stands for the fields of an entry that
are carried along and never looked at (a layout, a transaction hash);
`canonicalizeStoredAddresses_payloads` says the migration carries them along.
-/

namespace TronUpgrades.Record

open Address

structure ProxyDeployment (ρ : Type) where
  address : String
  kind : ProxyKind
  rest : ρ

structure ImplDeployment (ρ : Type) where
  address : String
  allAddresses : Option (List String)
  rest : ρ

structure AdminDeployment (ρ : Type) where
  address : String
  rest : ρ

structure ManifestData (ρ : Type) where
  /-- By version. -/
  impls : List (String × ImplDeployment ρ)
  proxies : List (ProxyDeployment ρ)
  admin : Option (AdminDeployment ρ)

/-- What the engine answers for a file that does not exist. -/
def ManifestData.empty {ρ : Type} : ManifestData ρ := ⟨[], [], none⟩

def recordCount (data : ManifestData ρ) : Nat :=
  data.proxies.length + data.impls.length + if data.admin.isNone then 0 else 1

/-- The carried-along part of every entry. -/
def ManifestData.payloads (data : ManifestData ρ) : List ρ :=
  data.impls.map (·.2.rest) ++ data.proxies.map (·.rest) ++ (data.admin.map (·.rest)).toList

-- ---------------------------------------------------------------------------
-- Address migration
-- ---------------------------------------------------------------------------

/-- How many stored strings changed, and how many could not be converted. -/
structure MigrationCount where
  rewritten : Nat
  unmigratable : Nat

structure StoredAddressMigration (ρ : Type) where
  data : ManifestData ρ
  rewritten : Nat
  unmigratable : Nat

section
variable (codec : AddressCodec)

def migrate (value : String) : StateM MigrationCount String := do
  match tryCanonicalizeAddress codec value with
  | none =>
    modify fun c => { c with unmigratable := c.unmigratable + 1 }
    return value
  | some canonical =>
    if canonical ≠ value then
      modify fun c => { c with rewritten := c.rewritten + 1 }
    return canonical

def migrateImpl (impl : ImplDeployment ρ) : StateM MigrationCount (ImplDeployment ρ) := do
  let address ← migrate codec impl.address
  match impl.allAddresses with
  | none => return { impl with address }
  | some entries =>
    let allAddresses ← entries.mapM (migrate codec)
    return { impl with address, allAddresses }

def migrateImpls (impls : List (String × ImplDeployment ρ)) :
    StateM MigrationCount (List (String × ImplDeployment ρ)) :=
  impls.mapM fun entry => do return (entry.1, ← migrateImpl codec entry.2)

def migrateProxies (proxies : List (ProxyDeployment ρ)) :
    StateM MigrationCount (List (ProxyDeployment ρ)) :=
  proxies.mapM fun proxy => do return { proxy with address := ← migrate codec proxy.address }

def migrateAdmin : Option (AdminDeployment ρ) → StateM MigrationCount (Option (AdminDeployment ρ))
  | none => return none
  | some admin => do return some { admin with address := ← migrate codec admin.address }

def migrateData (data : ManifestData ρ) : StateM MigrationCount (ManifestData ρ) := do
  let impls ← migrateImpls codec data.impls
  let proxies ← migrateProxies codec data.proxies
  let admin ← migrateAdmin codec data.admin
  return ⟨impls, proxies, admin⟩

def canonicalizeStoredAddresses (data : ManifestData ρ) : StoredAddressMigration ρ :=
  let (data, count) := (migrateData codec data).run ⟨0, 0⟩
  ⟨data, count.rewritten, count.unmigratable⟩

end

section
variable {codec : AddressCodec} {c : MigrationCount}

/-- A projection that a state action keeps, element by element, it keeps of a
list. -/
theorem mapM_run_map {σ α β γ : Type} {f : α → StateM σ β} {p : α → γ} {q : β → γ}
    (hf : ∀ a s, q ((f a).run s).1 = p a) (xs : List α) (s : σ) :
    ((xs.mapM f).run s).1.map q = xs.map p := by
  induction xs generalizing s with
  | nil => rfl
  | cons x xs ih =>
    have htail := ih ((f x).run s).2
    simp only [List.mapM_cons, StateT.run_bind, StateT.run_pure, List.map_cons] at htail ⊢
    exact congr (congrArg _ (hf x s)) htail

theorem migrateImpl_rest (impl : ImplDeployment ρ) :
    ((migrateImpl codec impl).run c).1.rest = impl.rest := by
  obtain ⟨address, _ | entries, rest⟩ := impl <;> rfl

theorem migrateImpls_rest (impls : List (String × ImplDeployment ρ)) :
    ((migrateImpls codec impls).run c).1.map (·.2.rest) = impls.map (·.2.rest) :=
  mapM_run_map (fun entry _ => migrateImpl_rest entry.2) impls c

theorem migrateProxies_rest (proxies : List (ProxyDeployment ρ)) :
    ((migrateProxies codec proxies).run c).1.map (·.rest) = proxies.map (·.rest) :=
  mapM_run_map (fun _ _ => rfl) proxies c

theorem migrateAdmin_rest (admin : Option (AdminDeployment ρ)) :
    ((migrateAdmin codec admin).run c).1.map (·.rest) = admin.map (·.rest) := by
  cases admin <;> rfl

theorem canonicalizeStoredAddresses_data (data : ManifestData ρ) :
    let impls := (migrateImpls codec data.impls).run ⟨0, 0⟩
    let proxies := (migrateProxies codec data.proxies).run impls.2
    let admin := (migrateAdmin codec data.admin).run proxies.2
    (canonicalizeStoredAddresses codec data).data = ⟨impls.1, proxies.1, admin.1⟩ := rfl

/-- Migration changes no entry's other fields and no entry's place. -/
theorem canonicalizeStoredAddresses_payloads (data : ManifestData ρ) :
    (canonicalizeStoredAddresses codec data).data.payloads = data.payloads := by
  rw [canonicalizeStoredAddresses_data]
  simp only [ManifestData.payloads]
  rw [migrateImpls_rest, migrateProxies_rest, migrateAdmin_rest]

end

theorem payloads_length (data : ManifestData ρ) : data.payloads.length = recordCount data := by
  obtain ⟨impls, proxies, _ | admin⟩ := data <;>
    simp [ManifestData.payloads, recordCount] <;> omega

theorem recordCount_eq_zero {data : ManifestData ρ} :
    recordCount data = 0 ↔ data.payloads = [] := by
  rw [← payloads_length, List.length_eq_zero_iff]

end TronUpgrades.Record
