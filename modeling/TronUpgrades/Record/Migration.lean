import TronUpgrades.Address.Identity
import TronUpgrades.Record.Reconcile

/-!
# What the migration of stored addresses does

`canonicalizeStoredAddresses` rewrites every address string by itself and
touches nothing else (`canonicalizeStoredAddresses_eq`). Where an entry stored
earlier spells the same address, a lookup by that address finds it instead.
-/

namespace TronUpgrades.Record

open Address

variable {ρ : Type}

-- ---------------------------------------------------------------------------
-- The strings of a record
-- ---------------------------------------------------------------------------

section
variable (f : String → String)

def ImplDeployment.mapAddresses (impl : ImplDeployment ρ) : ImplDeployment ρ :=
  { impl with address := f impl.address, allAddresses := impl.allAddresses.map (·.map f) }

def ManifestData.mapAddresses (data : ManifestData ρ) : ManifestData ρ where
  impls := data.impls.map fun entry => (entry.1, entry.2.mapAddresses f)
  proxies := data.proxies.map fun proxy => { proxy with address := f proxy.address }
  admin := data.admin.map fun admin => { admin with address := f admin.address }

end

def ImplDeployment.strings (impl : ImplDeployment ρ) : List String :=
  impl.address :: impl.allAddresses.getD []

/-- Every stored address string, in the order they are migrated. -/
def ManifestData.strings (data : ManifestData ρ) : List String :=
  data.impls.flatMap (·.2.strings) ++ data.proxies.map (·.address) ++
    (data.admin.map (·.address)).toList

theorem ManifestData.mapAddresses_comp (f g : String → String) (data : ManifestData ρ) :
    (data.mapAddresses f).mapAddresses g = data.mapAddresses (g ∘ f) := by
  simp [ManifestData.mapAddresses, ImplDeployment.mapAddresses, Function.comp_def]

theorem ImplDeployment.strings_mapAddresses (f : String → String) (impl : ImplDeployment ρ) :
    (impl.mapAddresses f).strings = impl.strings.map f := by
  obtain ⟨address, _ | entries, rest⟩ := impl <;> rfl

theorem ManifestData.strings_mapAddresses (f : String → String) (data : ManifestData ρ) :
    (data.mapAddresses f).strings = data.strings.map f := by
  obtain ⟨impls, proxies, admin⟩ := data
  have himpls : (impls.map fun entry => (entry.1, entry.2.mapAddresses f)).flatMap (·.2.strings) =
      (impls.flatMap (·.2.strings)).map f := by
    rw [List.flatMap_map, List.map_flatMap]
    exact List.flatMap_congr fun entry _ => entry.2.strings_mapAddresses f
  cases admin <;> simp [ManifestData.mapAddresses, ManifestData.strings, himpls]

-- ---------------------------------------------------------------------------
-- The migration as a function of each string
-- ---------------------------------------------------------------------------

section
variable (codec : AddressCodec)

/-- The canonical form, or the string itself where there is none. -/
def settled (value : String) : String := (tryCanonicalizeAddress codec value).getD value

def changes (value : String) : Bool := settled codec value != value

def unmigratable (value : String) : Bool := (tryCanonicalizeAddress codec value).isNone

def tally (values : List String) (c : MigrationCount) : MigrationCount :=
  ⟨c.rewritten + values.countP (changes codec), c.unmigratable + values.countP (unmigratable codec)⟩

theorem tally_append (xs ys : List String) (c : MigrationCount) :
    tally codec (xs ++ ys) c = tally codec ys (tally codec xs c) := by
  simp [tally, Nat.add_assoc]

theorem migrate_run (value : String) (c : MigrationCount) :
    (migrate codec value).run c = (settled codec value, tally codec [value] c) := by
  cases h : tryCanonicalizeAddress codec value with
  | none =>
    have hrun : (migrate codec value).run c =
        (value, { c with unmigratable := c.unmigratable + 1 }) := by
      rw [migrate, h]
      rfl
    rw [hrun]
    simp [tally, settled, changes, unmigratable, h]
  | some canonical =>
    by_cases hne : canonical = value
    · have hrun : (migrate codec value).run c = (canonical, c) := by
        rw [migrate, h, hne]
        simp only [ne_eq, not_true_eq_false, if_false]
        rfl
      rw [hrun]
      simp [tally, settled, changes, unmigratable, h, hne]
    · have hrun : (migrate codec value).run c =
          (canonical, { c with rewritten := c.rewritten + 1 }) := by
        rw [migrate, h]
        simp only [if_pos hne]
        rfl
      rw [hrun]
      simp [tally, settled, changes, unmigratable, h, hne]

/-- A list migrated element by element. -/
theorem mapM_tally {α β : Type} {f : α → StateM MigrationCount β} {g : α → β} {k : α → List String}
    (hf : ∀ a c, (f a).run c = (g a, tally codec (k a) c)) (xs : List α) (c : MigrationCount) :
    (xs.mapM f).run c = (xs.map g, tally codec (xs.flatMap k) c) := by
  induction xs generalizing c with
  | nil => rfl
  | cons x xs ih =>
    simp only [List.mapM_cons, StateT.run_bind, hf, ih, StateT.run_pure, List.map_cons,
      List.flatMap_cons, tally_append]
    rfl

theorem migrateImpl_run (impl : ImplDeployment ρ) (c : MigrationCount) :
    (migrateImpl codec impl).run c =
      (impl.mapAddresses (settled codec), tally codec impl.strings c) := by
  obtain ⟨address, _ | entries, rest⟩ := impl
  · simp only [migrateImpl, StateT.run_bind, migrate_run]
    rfl
  · simp only [migrateImpl, StateT.run_bind, migrate_run,
      mapM_tally codec (k := fun value => [value]) (migrate_run codec)]
    rw [List.flatMap_singleton']
    exact congrArg (Prod.mk _) (tally_append codec [address] entries c).symm

theorem migrateData_run (data : ManifestData ρ) (c : MigrationCount) :
    (migrateData codec data).run c =
      (data.mapAddresses (settled codec), tally codec data.strings c) := by
  obtain ⟨impls, proxies, admin⟩ := data
  have himpls (c : MigrationCount) : (migrateImpls codec impls).run c =
      (impls.map fun entry => (entry.1, entry.2.mapAddresses (settled codec)),
        tally codec (impls.flatMap (·.2.strings)) c) := by
    refine mapM_tally codec (fun entry c => ?_) impls c
    simp only [StateT.run_bind, migrateImpl_run]
    rfl
  have hproxies (c : MigrationCount) : (migrateProxies codec proxies).run c =
      (proxies.map fun proxy => { proxy with address := settled codec proxy.address },
        tally codec (proxies.map (·.address)) c) := by
    rw [show proxies.map (·.address) = proxies.flatMap ([·.address]) from List.map_eq_flatMap]
    refine mapM_tally codec (fun proxy c => ?_) proxies c
    simp only [StateT.run_bind, migrate_run]
    rfl
  have hadmin (c : MigrationCount) : (migrateAdmin codec admin).run c =
      (admin.map fun admin => { admin with address := settled codec admin.address },
        tally codec (admin.map (·.address)).toList c) := by
    cases admin with
    | none => rfl
    | some admin =>
      simp only [migrateAdmin, StateT.run_bind, migrate_run]
      rfl
  simp only [migrateData, StateT.run_bind, himpls, hproxies, hadmin]
  refine congrArg (Prod.mk _) ?_
  rw [ManifestData.strings, tally_append, tally_append]

theorem canonicalizeStoredAddresses_eq (data : ManifestData ρ) :
    canonicalizeStoredAddresses codec data =
      ⟨data.mapAddresses (settled codec), data.strings.countP (changes codec),
        data.strings.countP (unmigratable codec)⟩ := by
  simp [canonicalizeStoredAddresses, migrateData_run, tally]

end

-- ---------------------------------------------------------------------------
-- Over a correct codec
-- ---------------------------------------------------------------------------

section
variable {codec : AddressCodec} {a value : String}

/-- The text is some spelling of the address. -/
def spells (codec : AddressCodec) (a value : String) : Bool :=
  tryCanonicalizeAddress codec value == some a

theorem tryCanonicalizeAddress_idempotent (correct : CorrectCodec codec)
    (h : tryCanonicalizeAddress codec value = some a) :
    tryCanonicalizeAddress codec a = some a := by
  have identity := one_identity correct
  rw [identity.nonThrowing] at h ⊢
  cases hvalue : canonicalizeAddress codec value with
  | error e =>
    rw [hvalue] at h
    cases h
  | ok canonical =>
    rw [hvalue] at h
    cases h
    rw [identity.idempotent _ _ hvalue]
    rfl

theorem settled_settled (correct : CorrectCodec codec) (value : String) :
    settled codec (settled codec value) = settled codec value := by
  unfold settled
  cases h : tryCanonicalizeAddress codec value with
  | none => simp [h]
  | some canonical => simp [tryCanonicalizeAddress_idempotent correct h]

theorem unmigratable_settled (correct : CorrectCodec codec) (value : String) :
    unmigratable codec (settled codec value) = unmigratable codec value := by
  unfold unmigratable settled
  cases h : tryCanonicalizeAddress codec value with
  | none => simp [h]
  | some canonical => simp [tryCanonicalizeAddress_idempotent correct h]

theorem spells_self (correct : CorrectCodec codec) (ha : isCanonicalAddress codec a = true) :
    spells codec a a = true := by
  have identity := one_identity correct
  obtain ⟨input, hinput⟩ := (identity.canonical a).mp ha
  rw [spells, beq_iff_eq, identity.nonThrowing, identity.idempotent _ _ hinput]
  rfl

/-- What a canonical address is compared with after the migration. -/
theorem settled_eq_iff (correct : CorrectCodec codec) (ha : isCanonicalAddress codec a = true)
    (value : String) : settled codec value = a ↔ spells codec a value = true := by
  have self := spells_self correct ha
  rw [spells, beq_iff_eq] at self
  rw [spells, beq_iff_eq, settled]
  cases h : tryCanonicalizeAddress codec value with
  | none =>
    constructor
    · rintro rfl
      exact absurd (h.symm.trans self) nofun
    · exact nofun
  | some canonical => simp

theorem migration_idempotent (correct : CorrectCodec codec) (data : ManifestData ρ) :
    canonicalizeStoredAddresses codec (canonicalizeStoredAddresses codec data).data =
      ⟨(canonicalizeStoredAddresses codec data).data, 0,
        (canonicalizeStoredAddresses codec data).unmigratable⟩ := by
  have hsettled : settled codec ∘ settled codec = settled codec := by
    funext value
    exact settled_settled correct value
  have hchanges : changes codec ∘ settled codec = fun _ => false := by
    funext value
    simp [changes, settled_settled correct]
  have hunmigratable : unmigratable codec ∘ settled codec = unmigratable codec := by
    funext value
    exact unmigratable_settled correct value
  simp only [canonicalizeStoredAddresses_eq, ManifestData.mapAddresses_comp,
    ManifestData.strings_mapAddresses, List.countP_map, hsettled, hchanges, hunmigratable,
    List.countP_false]
  rfl

theorem zip_map_countP (f : String → String) (xs : List String) :
    (xs.zip (xs.map f)).countP (fun pair => pair.1 != pair.2) = xs.countP fun x => f x != x := by
  induction xs with
  | nil => rfl
  | cons x xs ih =>
    have head : (x != f x) = (f x != x) := by
      rw [bne_comm]
    simp only [List.map_cons, List.zip_cons_cons, List.countP_cons, ih, head]

-- ---------------------------------------------------------------------------
-- Lookups
-- ---------------------------------------------------------------------------

/-- Where the engine's lookups, by exact string and in the order stored, end. -/
def proxyAt (data : ManifestData ρ) (a : String) : Option Nat :=
  data.proxies.findIdx? (·.address == a)

def implAt (data : ManifestData ρ) (a : String) : Option Nat :=
  data.impls.findIdx? (·.2.strings.any (· == a))

theorem proxyAt_migrated (correct : CorrectCodec codec) (ha : isCanonicalAddress codec a = true)
    (data : ManifestData ρ) :
    proxyAt (canonicalizeStoredAddresses codec data).data a =
      data.proxies.findIdx? (spells codec a ·.address) := by
  have hspells : ∀ value, (settled codec value == a) = spells codec a value := fun value => by
    rw [Bool.eq_iff_iff, beq_iff_eq]
    exact settled_eq_iff correct ha value
  simp only [canonicalizeStoredAddresses_eq, proxyAt, ManifestData.mapAddresses,
    List.findIdx?_map, Function.comp_def, hspells]

theorem implAt_migrated (correct : CorrectCodec codec) (ha : isCanonicalAddress codec a = true)
    (data : ManifestData ρ) :
    implAt (canonicalizeStoredAddresses codec data).data a =
      data.impls.findIdx? (·.2.strings.any (spells codec a)) := by
  have hspells : ∀ value, (settled codec value == a) = spells codec a value := fun value => by
    rw [Bool.eq_iff_iff, beq_iff_eq]
    exact settled_eq_iff correct ha value
  simp only [canonicalizeStoredAddresses_eq, implAt, ManifestData.mapAddresses,
    List.findIdx?_map, Function.comp_def, ImplDeployment.strings_mapAddresses, List.any_map, hspells]

/-- A weaker condition is met first where it is met nowhere before. -/
theorem findIdx?_weaken {α : Type} {p q : α → Bool} {xs : List α} {i : Nat}
    (h : xs.findIdx? p = some i) (hpq : ∀ x, p x = true → q x = true)
    (before : ∀ j < i, ∀ x, xs[j]? = some x → q x = false) : xs.findIdx? q = some i := by
  rw [List.findIdx?_eq_some_iff_getElem] at h ⊢
  obtain ⟨hi, hp, -⟩ := h
  refine ⟨hi, hpq _ hp, fun j hj => ?_⟩
  simp [before j hj _ (List.getElem?_eq_getElem (Nat.lt_trans hj hi))]

/-- What the migration keeps of a record, and which entry a lookup finds. -/
structure Migrates (codec : AddressCodec) (data : ManifestData ρ)
    (migration : StoredAddressMigration ρ) : Prop where
  idempotent : canonicalizeStoredAddresses codec migration.data =
    ⟨migration.data, 0, migration.unmigratable⟩
  addressesOnly : migration.data.mapAddresses (fun _ => "") = data.mapAddresses fun _ => ""
  counted : migration.rewritten =
    (data.strings.zip migration.data.strings).countP fun pair => pair.1 != pair.2
  /-- The same entry, unless one before it spells the address otherwise. -/
  proxy : ∀ a i, isCanonicalAddress codec a = true → proxyAt data a = some i →
    (∀ j < i, ∀ entry, data.proxies[j]? = some entry → spells codec a entry.address = false) →
    proxyAt migration.data a = some i
  impl : ∀ a i, isCanonicalAddress codec a = true → implAt data a = some i →
    (∀ j < i, ∀ entry, data.impls[j]? = some entry →
      entry.2.strings.any (spells codec a) = false) →
    implAt migration.data a = some i
  /-- In every case, the first entry that spells the address in any way. -/
  first : ∀ a, isCanonicalAddress codec a = true →
    proxyAt migration.data a = data.proxies.findIdx? (spells codec a ·.address) ∧
      implAt migration.data a = data.impls.findIdx? (·.2.strings.any (spells codec a))

theorem migration_migrates (correct : CorrectCodec codec) (data : ManifestData ρ) :
    Migrates codec data (canonicalizeStoredAddresses codec data) where
  idempotent := migration_idempotent correct data
  addressesOnly := by
    rw [canonicalizeStoredAddresses_eq, ManifestData.mapAddresses_comp]
    rfl
  counted := by
    simp only [canonicalizeStoredAddresses_eq, ManifestData.strings_mapAddresses, zip_map_countP]
    rfl
  proxy a i ha hi before := by
    rw [proxyAt_migrated correct ha]
    refine findIdx?_weaken hi (fun entry heq => ?_) before
    rw [beq_iff_eq.mp heq]
    exact spells_self correct ha
  impl a i ha hi before := by
    rw [implAt_migrated correct ha]
    refine findIdx?_weaken hi (fun entry heq => ?_) before
    rw [List.any_eq_true] at heq ⊢
    obtain ⟨value, hvalue, heq⟩ := heq
    refine ⟨value, hvalue, ?_⟩
    rw [beq_iff_eq.mp heq]
    exact spells_self correct ha
  first a ha := ⟨proxyAt_migrated correct ha data, implAt_migrated correct ha data⟩

end

/-- One address under two spellings, which no checksum letter tells apart. -/
def twiceRecorded : ManifestData Unit where
  impls := []
  proxies := [⟨"411111111111111111111111111111111111111111", .transparent, ()⟩,
    ⟨"0x1111111111111111111111111111111111111111", .uups, ()⟩]
  admin := none

theorem migration_migrates_twiceRecorded :
    Migrates (base58CheckCodec zeroChecksum) twiceRecorded
      (canonicalizeStoredAddresses (base58CheckCodec zeroChecksum) twiceRecorded) :=
  migration_migrates base58CheckCodec_correct twiceRecorded

/-- The canonical address found the UUPS entry before, the transparent one after. -/
theorem migration_changes_lookup :
    let codec := base58CheckCodec zeroChecksum
    let a := "0x1111111111111111111111111111111111111111"
    let migrated := (canonicalizeStoredAddresses codec twiceRecorded).data
    isCanonicalAddress codec a = true ∧
      (storedRecordFor twiceRecorded.proxies a).map (·.kind) = some .uups ∧
      (storedRecordFor migrated.proxies a).map (·.kind) = some .transparent := by
  decide

end TronUpgrades.Record
