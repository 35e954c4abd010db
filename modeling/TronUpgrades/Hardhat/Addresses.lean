import TronUpgrades.Record.Migration

/-!
# Addresses in the Hardhat plugin

The Hardhat plugin's own address boundary and its own migration of the record
both plugins share. Its checksummer refuses hex whose mixed case is not the
checksum, so one mistyped entry makes the whole record unreadable; the other
plugin leaves such an entry alone. Everywhere else the two agree
(`one_record_iff`).
-/

namespace TronUpgrades.Hardhat

open Address Text Record

/-- The libraries as the plugin calls them. -/
structure AddressTools where
  /-- ethers' `getAddress` -/
  getAddress : String → Except Failure String
  /-- `tronWeb.address.toHex` -/
  toHex : String → Except Failure String

/-- `/^41[0-9a-fA-F]{40}$/`, answering what follows the prefix. -/
def tronHexTail? (value : String) : Option (List Char) :=
  (afterTronPrefix value.toList).filter fun tail =>
    tail.all isHexDigit && tail.length == evmHexDigits

/-- `raw.startsWith('0x') || raw.startsWith('0X')`, answering the rest. -/
def afterHexPrefix : List Char → Option (List Char)
  | '0' :: 'x' :: rest | '0' :: 'X' :: rest => some rest
  | _ => none

section
variable (tools : AddressTools)

/-- `resolveAddress` of an address given as text. -/
def resolveAddress (raw : String) : Except Failure String :=
  match afterHexPrefix raw.toList with
  | some rest => tools.getAddress (.ofList ('0' :: 'x' :: rest))
  | none =>
    if raw.toList.all isHexDigit ∧ raw.toList.length = tronHexChars ∧ tronHexTail? raw = none then
      .error (.error ("Invalid TRON address " ++ raw ++
        ": native hex addresses must start with 41"))
    else do
      let hex ← tools.toHex raw
      match tronHexTail? hex with
      | some tail => tools.getAddress (.ofList ('0' :: 'x' :: tail))
      | none => .error (.error ("Invalid TRON address: " ++ raw))

-- ---------------------------------------------------------------------------
-- Stored addresses
-- ---------------------------------------------------------------------------

namespace StoredAddresses

variable {ρ : Type}

/-- Only 0x-hex addresses are touched. -/
def canon (address : String) : Except Failure String :=
  if isEvmHex address then tools.getAddress address else .ok address

/-- The state is whether anything changed. -/
def fixAddress (address : String) : StateT Bool (Except Failure) String := do
  let canonical ← canon tools address
  if canonical ≠ address then set true
  return canonical

def rewriteImpl (impl : ImplDeployment ρ) : StateT Bool (Except Failure) (ImplDeployment ρ) := do
  let address ← fixAddress tools impl.address
  match impl.allAddresses with
  | none => return { impl with address }
  | some entries =>
    let allAddresses ← entries.mapM (fixAddress tools)
    return { impl with address, allAddresses }

def rewriteAdmin :
    Option (AdminDeployment ρ) → StateT Bool (Except Failure) (Option (AdminDeployment ρ))
  | none => return none
  | some admin => do return some { admin with address := ← fixAddress tools admin.address }

def rewrite (data : ManifestData ρ) : StateT Bool (Except Failure) (ManifestData ρ) := do
  let proxies ← data.proxies.mapM fun proxy => do
    return { proxy with address := ← fixAddress tools proxy.address }
  let impls ← data.impls.mapM fun entry => do return (entry.1, ← rewriteImpl tools entry.2)
  let admin ← rewriteAdmin tools data.admin
  return ⟨impls, proxies, admin⟩

/-- What `getManifest` answers, and what it leaves on disk with nobody else
writing. -/
def canonicalizeStoredAddresses (disk : ManifestData ρ) :
    Except Failure Unit × ManifestData ρ :=
  match (rewrite tools disk).run false with
  | .error e => (.error e, disk)
  | .ok (_, false) => (.ok (), disk)
  | .ok (_, true) =>
    -- under the lock, on a fresh read
    match (rewrite tools disk).run false with
    | .error e => (.error e, disk)
    | .ok (data, changed) => (.ok (), if changed then data else disk)

end StoredAddresses

end

-- ---------------------------------------------------------------------------
-- The libraries
-- ---------------------------------------------------------------------------

/-- Mixed-case hex that is not the checksum it claims to be. -/
def Mistyped (codec : AddressCodec) (address : String) : Prop :=
  assertsChecksum (address.toList.drop 2) = true ∧
    address ≠ checksummed codec (address.toList.drop 2)

instance (codec : AddressCodec) (address : String) : Decidable (Mistyped codec address) := by
  unfold Mistyped
  infer_instance

/-- The libraries as their documentation has them, over one codec. -/
structure Documented (codec : AddressCodec) (tools : AddressTools) : Prop where
  checksums : ∀ address, isEvmHex address = true → ¬ Mistyped codec address →
    tools.getAddress address = .ok (checksummed codec (address.toList.drop 2))
  /-- "bad address checksum" -/
  refuses : ∀ address, isEvmHex address = true → Mistyped codec address →
    ∃ e, tools.getAddress address = .error e
  /-- Hex is lower-cased, and otherwise answered as it is. -/
  toHex_hex : ∀ input, (tronHexTail? input).isSome = true →
    tools.toHex input = .ok (.ofList (toLowerCase input.toList))
  toHex_base58 : ∀ input, codec.isAddress input = true → isBase58Shape input.toList = true →
    tools.toHex input = .ok (codec.toHex input)

section
variable {codec : AddressCodec} {tools : AddressTools} {address : String} {tail : List Char}

theorem isEvmHex_iff : isEvmHex address = true ↔
    ∃ tail, address = .ofList ('0' :: 'x' :: tail) ∧ tail.all isHexDigit = true ∧
      tail.length = evmHexDigits := by
  unfold isEvmHex prefixedHex?
  constructor
  · intro h
    split at h
    next digits hdigits =>
      split at hdigits
      next tail hinput =>
        split at hdigits
        next hex =>
          cases hdigits
          exact ⟨digits, by rw [← hinput, String.ofList_toList], hex, by simpa using h⟩
        next => cases hdigits
      next => cases hdigits
    next => cases h
  · rintro ⟨tail, rfl, hex, length⟩
    simp [hex, length]

theorem mistyped_ofList : Mistyped codec (.ofList ('0' :: 'x' :: tail)) ↔
    assertsChecksum tail = true ∧ String.ofList ('0' :: 'x' :: tail) ≠ checksummed codec tail := by
  simp [Mistyped]

/-- The other plugin's verdict on stored hex. -/
theorem tryCanonicalizeAddress_evmHex (hex : tail.all isHexDigit = true)
    (length : tail.length = evmHexDigits) :
    tryCanonicalizeAddress codec (.ofList ('0' :: 'x' :: tail)) =
      if Mistyped codec (.ofList ('0' :: 'x' :: tail)) then none
      else some (checksummed codec tail) := by
  unfold tryCanonicalizeAddress mintFrom
  rw [evmTailOf_evmHex hex length]
  simp only [bind, Except.bind, mistyped_ofList]
  by_cases h : assertsChecksum tail = true ∧
      String.ofList ('0' :: 'x' :: tail) ≠ checksummed codec tail
  · rw [if_pos h, if_pos (by simpa using h)]
    rfl
  · rw [if_neg h, if_neg (by simpa using h)]
    rfl

/-- On hex that is not mistyped both plugins write the same text. -/
theorem canon_eq_settled (documented : Documented codec tools) (hex : isEvmHex address = true)
    (typed : ¬ Mistyped codec address) :
    StoredAddresses.canon tools address = .ok (settled codec address) := by
  unfold StoredAddresses.canon
  rw [if_pos hex, documented.checksums address hex typed]
  obtain ⟨tail, rfl, hex, length⟩ := isEvmHex_iff.mp hex
  rw [settled, tryCanonicalizeAddress_evmHex hex length, if_neg typed]
  simp

theorem canon_refuses (documented : Documented codec tools) (hex : isEvmHex address = true)
    (mistyped : Mistyped codec address) : ∃ e, StoredAddresses.canon tools address = .error e := by
  unfold StoredAddresses.canon
  rw [if_pos hex]
  exact documented.refuses address hex mistyped

end

-- ---------------------------------------------------------------------------
-- One record under both migrations
-- ---------------------------------------------------------------------------

section
variable {α β : Type} {x : StateT Bool (Except Failure) α} {a : α} {k : Bool} {p : Prop}

/-- The outcome of a migration step, whatever changed before it: a failure
where it is `p`, and the value with whether it changed anything elsewhere. -/
structure Fixes (x : StateT Bool (Except Failure) α) (p : Prop) (a : α) (k : Bool) : Prop where
  ok : ¬ p → ∀ changed, x.run changed = .ok (a, changed || k)
  error : p → ∀ changed, ∃ e, x.run changed = .error e

theorem Fixes.pure (a : α) : Fixes (pure a) False a false where
  ok _ changed := by
    rw [StateT.run_pure, Bool.or_false]
    rfl
  error := False.elim

theorem Fixes.iff {q : Prop} {l : Bool} (hx : Fixes x p a k) (h : p ↔ q) (hk : k = l) :
    Fixes x q a l := by
  subst hk
  exact ⟨fun hq => hx.ok (mt h.mp hq), fun hq => hx.error (h.mpr hq)⟩

theorem Fixes.bind {f : α → StateT Bool (Except Failure) β} {q : Prop} {b : β} {l : Bool}
    (hx : Fixes x p a k) (hf : Fixes (f a) q b l) : Fixes (x >>= f) (p ∨ q) b (k || l) where
  ok h changed := by
    rw [StateT.run_bind, hx.ok (fun hp => h (.inl hp))]
    show (f a).run (changed || k) = _
    rw [hf.ok (fun hq => h (.inr hq)), Bool.or_assoc]
  error h changed := by
    rw [StateT.run_bind]
    by_cases hp : p
    · obtain ⟨e, he⟩ := hx.error hp changed
      exact ⟨e, by rw [he]; rfl⟩
    · obtain ⟨e, he⟩ := hf.error (h.resolve_left hp) (changed || k)
      exact ⟨e, by rw [hx.ok hp]; exact he⟩

theorem Fixes.map {g : α → β} (hx : Fixes x p a k) :
    Fixes (do return g (← x)) p (g a) k := by
  have h := hx.bind (f := fun a => Pure.pure (g a)) (Fixes.pure (g a))
  simpa using h

theorem Fixes.mapM {f : α → StateT Bool (Except Failure) β} {p : α → Prop} {g : α → β}
    {k : α → Bool} {xs : List α} (hf : ∀ a ∈ xs, Fixes (f a) (p a) (g a) (k a)) :
    Fixes (xs.mapM f) (∃ a ∈ xs, p a) (xs.map g) (xs.any k) := by
  induction xs with
  | nil => exact (Fixes.pure []).iff (by simp) rfl
  | cons x xs ih =>
    have head := hf x List.mem_cons_self
    have tail := (ih fun a ha => hf a (List.mem_cons_of_mem _ ha)).map (g := (g x :: ·))
    rw [List.mapM_cons]
    exact (head.bind tail).iff (by simp) rfl

variable {codec : AddressCodec} {tools : AddressTools} {ρ : Type}

theorem fixAddress_fixes (documented : Documented codec tools) {address : String}
    (hex : isEvmHex address = true) :
    Fixes (StoredAddresses.fixAddress tools address) (Mistyped codec address)
      (settled codec address) (changes codec address) where
  ok typed changed := by
    unfold StoredAddresses.fixAddress changes
    rw [canon_eq_settled documented hex typed]
    show StateT.run (do
      if settled codec address ≠ address then set true
      return settled codec address : StateT Bool (Except Failure) String) changed = _
    by_cases h : settled codec address = address
    · simp [h]
      rfl
    · have hne : (settled codec address != address) = true := by simpa using h
      rw [hne, Bool.or_true]
      simp [h]
      rfl
  error mistyped changed := by
    obtain ⟨e, he⟩ := canon_refuses documented hex mistyped
    unfold StoredAddresses.fixAddress
    rw [he]
    exact ⟨e, rfl⟩

theorem fixAddresses_fixes (documented : Documented codec tools) (strings : List String)
    (hex : ∀ s ∈ strings, isEvmHex s = true) :
    Fixes (strings.mapM (StoredAddresses.fixAddress tools)) (∃ s ∈ strings, Mistyped codec s)
      (strings.map (settled codec)) (strings.any (changes codec)) :=
  Fixes.mapM fun s hs => fixAddress_fixes documented (hex s hs)

theorem rewriteImpl_fixes (documented : Documented codec tools) {impl : ImplDeployment ρ}
    (hex : ∀ s ∈ impl.strings, isEvmHex s = true) :
    Fixes (StoredAddresses.rewriteImpl tools impl) (∃ s ∈ impl.strings, Mistyped codec s)
      (impl.mapAddresses (settled codec)) (impl.strings.any (changes codec)) := by
  obtain ⟨address, allAddresses, rest⟩ := impl
  have head := fixAddress_fixes documented (hex address List.mem_cons_self)
  cases allAddresses with
  | none =>
    have h := head.map (g := fun address => (⟨address, none, rest⟩ : ImplDeployment ρ))
    simpa [StoredAddresses.rewriteImpl, ImplDeployment.strings, ImplDeployment.mapAddresses] using h
  | some entries =>
    have tail := (fixAddresses_fixes documented entries fun s hs =>
      hex s (List.mem_cons_of_mem _ hs)).map
        (g := fun all => (⟨settled codec address, some all, rest⟩ : ImplDeployment ρ))
    have h := head.bind (f := fun address => do
      return (⟨address, some (← entries.mapM (StoredAddresses.fixAddress tools)), rest⟩ :
        ImplDeployment ρ)) tail
    simpa [StoredAddresses.rewriteImpl, ImplDeployment.strings, ImplDeployment.mapAddresses] using h

theorem rewriteAdmin_fixes (documented : Documented codec tools)
    {admin : Option (AdminDeployment ρ)}
    (hex : ∀ s ∈ (admin.map (·.address)).toList, isEvmHex s = true) :
    Fixes (StoredAddresses.rewriteAdmin tools admin)
      (∃ s ∈ (admin.map (·.address)).toList, Mistyped codec s)
      (admin.map fun admin => { admin with address := settled codec admin.address })
      ((admin.map (·.address)).toList.any (changes codec)) := by
  cases admin with
  | none => exact (Fixes.pure none).iff (by simp) rfl
  | some admin =>
    have head := fixAddress_fixes documented (hex admin.address (by simp))
    have h := head.map (g := fun address => some { admin with address })
    simpa [StoredAddresses.rewriteAdmin] using h

theorem rewrite_fixes (documented : Documented codec tools) {data : ManifestData ρ}
    (hex : ∀ s ∈ data.strings, isEvmHex s = true) :
    Fixes (StoredAddresses.rewrite tools data) (∃ s ∈ data.strings, Mistyped codec s)
      (data.mapAddresses (settled codec)) (data.strings.any (changes codec)) := by
  obtain ⟨impls, proxies, admin⟩ := data
  simp only [ManifestData.strings, List.mem_append] at hex
  have hproxies : Fixes (proxies.mapM fun proxy => do
        return { proxy with address := ← StoredAddresses.fixAddress tools proxy.address })
      (∃ proxy ∈ proxies, Mistyped codec proxy.address)
      (proxies.map fun proxy => { proxy with address := settled codec proxy.address })
      (proxies.any fun proxy => changes codec proxy.address) := by
    apply Fixes.mapM
    intro proxy hproxy
    have hex := hex proxy.address (.inl (.inr (List.mem_map_of_mem hproxy)))
    exact (fixAddress_fixes documented hex).map (g := fun address => { proxy with address })
  have himpls : Fixes (impls.mapM fun entry => do
        return (entry.1, ← StoredAddresses.rewriteImpl tools entry.2))
      (∃ entry ∈ impls, ∃ s ∈ entry.2.strings, Mistyped codec s)
      (impls.map fun entry => (entry.1, entry.2.mapAddresses (settled codec)))
      (impls.any fun entry => entry.2.strings.any (changes codec)) := by
    apply Fixes.mapM
    intro entry hentry
    have hex := fun s hs => hex s (.inl (.inl (List.mem_flatMap.mpr ⟨entry, hentry, hs⟩)))
    exact (rewriteImpl_fixes documented hex).map (g := fun impl => (entry.1, impl))
  have hadmin := rewriteAdmin_fixes documented fun s hs => hex s (.inr hs)
  refine (hproxies.bind (himpls.bind (hadmin.map
    (g := fun admin => ManifestData.mk _ _ admin)))).iff ?_ ?_
  · simp only [ManifestData.strings, List.mem_append, List.mem_flatMap, List.mem_map]
    constructor
    · rintro (⟨proxy, hproxy, h⟩ | ⟨entry, hentry, s, hs, h⟩ | ⟨s, hs, h⟩)
      · exact ⟨_, .inl (.inr ⟨proxy, hproxy, rfl⟩), h⟩
      · exact ⟨s, .inl (.inl ⟨entry, hentry, hs⟩), h⟩
      · exact ⟨s, .inr hs, h⟩
    · rintro ⟨s, (⟨entry, hentry, hs⟩ | ⟨proxy, hproxy, rfl⟩) | hs, h⟩
      · exact .inr (.inl ⟨entry, hentry, s, hs, h⟩)
      · exact .inl ⟨proxy, hproxy, h⟩
      · exact .inr (.inr ⟨s, hs, h⟩)
  · simp only [ManifestData.strings, List.any_append, List.any_flatMap, List.any_map,
      Function.comp_def]
    rw [← Bool.or_assoc, Bool.or_comm (proxies.any _)]

/-- Texts that the map leaves alone leave the record alone. -/
theorem mapAddresses_of_fixed {f : String → String} {data : ManifestData ρ}
    (h : ∀ s ∈ data.strings, f s = s) : data.mapAddresses f = data := by
  obtain ⟨impls, proxies, admin⟩ := data
  simp only [ManifestData.strings, List.mem_append, List.mem_flatMap, List.mem_map] at h
  have himpl : ∀ entry ∈ impls, (entry.1, entry.2.mapAddresses f) = entry := by
    rintro ⟨version, address, _ | entries, rest⟩ hentry
    · have haddress := h address (.inl (.inl ⟨_, hentry, by simp [ImplDeployment.strings]⟩))
      simp [ImplDeployment.mapAddresses, haddress]
    · have haddress := h address (.inl (.inl ⟨_, hentry, by simp [ImplDeployment.strings]⟩))
      have hentries : entries.map f = entries := by
        refine (List.map_congr_left fun s hs => ?_).trans (List.map_id entries)
        exact h s (.inl (.inl ⟨_, hentry, by simp [ImplDeployment.strings, hs]⟩))
      simp [ImplDeployment.mapAddresses, haddress, hentries]
  have hproxy : ∀ proxy ∈ proxies, { proxy with address := f proxy.address } = proxy :=
    fun proxy hproxy => by rw [h proxy.address (.inl (.inr ⟨proxy, hproxy, rfl⟩))]
  have hadmin : (admin.map fun admin => { admin with address := f admin.address }) = admin := by
    cases admin with
    | none => rfl
    | some admin => simp [h admin.address (.inr (by simp))]
  simp only [ManifestData.mapAddresses]
  rw [hadmin, List.map_congr_left himpl, List.map_congr_left hproxy, List.map_id', List.map_id']

/-- With nothing mistyped the record ends as the other plugin's migration has
it; with anything mistyped it cannot be used. -/
theorem canonicalizeStoredAddresses_agrees_iff (documented : Documented codec tools)
    {data : ManifestData ρ} (hex : ∀ s ∈ data.strings, isEvmHex s = true) :
    StoredAddresses.canonicalizeStoredAddresses tools data =
        (.ok (), (Record.canonicalizeStoredAddresses codec data).data) ↔
      ∀ s ∈ data.strings, ¬ Mistyped codec s := by
  have fixes := rewrite_fixes documented hex
  rw [canonicalizeStoredAddresses_eq]
  unfold StoredAddresses.canonicalizeStoredAddresses
  by_cases h : ∃ s ∈ data.strings, Mistyped codec s
  · obtain ⟨e, he⟩ := fixes.error h false
    obtain ⟨s, hs, hmistyped⟩ := h
    rw [he]
    exact ⟨nofun, fun typed => absurd hmistyped (typed s hs)⟩
  · rw [fixes.ok h, Bool.false_or]
    refine iff_of_true ?_ fun s hs hmistyped => h ⟨s, hs, hmistyped⟩
    cases hany : data.strings.any (changes codec) with
    | true => rfl
    | false =>
      rw [List.any_eq_false] at hany
      rw [mapAddresses_of_fixed fun s hs => by simpa [changes] using hany s hs]

end

-- ---------------------------------------------------------------------------
-- One address under both boundaries
-- ---------------------------------------------------------------------------

section
variable {codec : AddressCodec} {tools : AddressTools} {body : AddressBody} {input : String}
  {tail : List Char}

theorem getAddress_tail (documented : Documented codec tools) (ht : Tail codec body tail) :
    tools.getAddress (.ofList ('0' :: 'x' :: tail)) = .ok (body.eip55 codec) := by
  have hex : isEvmHex (.ofList ('0' :: 'x' :: tail)) = true :=
    isEvmHex_iff.mpr ⟨tail, rfl, ht.hex, ht.length⟩
  have typed : ¬ Mistyped codec (.ofList ('0' :: 'x' :: tail)) := by
    rintro ⟨claims, hne⟩
    rw [String.toList_ofList] at claims hne
    exact hne ((ht.sound claims).trans (checksummed_lower body ht.digits).symm)
  rw [documented.checksums _ hex typed, String.toList_ofList]
  exact congrArg _ (checksummed_lower body ht.digits)

theorem tronHexTail?_ofList (hex : tail.all isHexDigit = true)
    (length : tail.length = evmHexDigits) :
    tronHexTail? (.ofList ('4' :: '1' :: tail)) = some tail := by
  simp [tronHexTail?, afterTronPrefix, hex, length]

/-- What the other plugin accepts, this one accepts as the same address. -/
theorem resolveAddress_of_canonicalizeAddress (correct : CorrectCodec codec)
    (documented : Documented codec tools) {a : String}
    (h : canonicalizeAddress codec input = .ok a) : resolveAddress tools input = .ok a := by
  obtain ⟨body, tail, ht, rfl, hinput⟩ := canonicalizeAddress_ok correct h
  rcases hinput with rfl | rfl | rfl
  · simp only [resolveAddress, String.toList_ofList, afterHexPrefix]
    exact getAddress_tail documented ht
  · have htail := tronHexTail?_ofList ht.hex ht.length
    have hlower : toLowerCase ('4' :: '1' :: tail) = '4' :: '1' :: body.digits := by
      rw [← ht.digits]
      rfl
    have hhex := documented.toHex_hex (.ofList ('4' :: '1' :: tail)) (by rw [htail]; rfl)
    rw [String.toList_ofList, hlower] at hhex
    simp only [resolveAddress, String.toList_ofList, afterHexPrefix, htail, hhex]
    rw [if_neg (by simp)]
    show (match tronHexTail? (.ofList ('4' :: '1' :: body.digits)) with
      | some tail => tools.getAddress (.ofList ('0' :: 'x' :: tail))
      | none => _) = _
    rw [tronHexTail?_ofList body.hex body.length_eq]
    exact getAddress_tail documented (.lower codec body)
  · obtain ⟨rest, hrest⟩ := isBase58Shape_cons (correct.base58_shape body)
    have hhex := documented.toHex_base58 _ (correct.isAddress body) (correct.base58_shape body)
    rw [correct.toHex] at hhex
    have unhex : (body.base58 codec).toList.all isHexDigit = false := by
      have letter : isHexDigit 'T' = false := by decide
      simp [hrest, letter]
    have unprefixed : afterHexPrefix (body.base58 codec).toList = none := by
      rw [hrest]
      rfl
    simp only [resolveAddress, unprefixed, unhex, hhex]
    rw [if_neg (by simp)]
    show (match tronHexTail? (.ofList ('4' :: '1' :: body.digits)) with
      | some tail => tools.getAddress (.ofList ('0' :: 'x' :: tail))
      | none => _) = _
    rw [tronHexTail?_ofList body.hex body.length_eq]
    exact getAddress_tail documented (.lower codec body)

end

/-- One record, one spelling of each address: where nothing stored is mistyped,
and only there, both migrations leave the same record; an address that both
boundaries accept is the same address to both. -/
theorem one_record_iff {codec : AddressCodec} {tools : AddressTools}
    (correct : CorrectCodec codec) (documented : Documented codec tools) {ρ : Type} :
    (∀ data : ManifestData ρ, (∀ s ∈ data.strings, isEvmHex s = true) →
      (StoredAddresses.canonicalizeStoredAddresses tools data =
          (.ok (), (Record.canonicalizeStoredAddresses codec data).data) ↔
        ∀ s ∈ data.strings, ¬ Mistyped codec s)) ∧
    ∀ input a b, resolveAddress tools input = .ok a → canonicalizeAddress codec input = .ok b →
      a = b := by
  refine ⟨fun data hex => canonicalizeStoredAddresses_agrees_iff documented hex, ?_⟩
  intro input a b ha hb
  rw [resolveAddress_of_canonicalizeAddress correct documented hb] at ha
  exact (Except.ok.inj ha).symm

-- ---------------------------------------------------------------------------
-- A mistyped entry
-- ---------------------------------------------------------------------------

/-- An address with letters, in the checksum casing. -/
def casedAddress : String := "0x5aAeb6053F3E94C9b9A09f33669435E7Ef1BeAed"

/-- One letter in the wrong case. -/
def mistypedAddress : String := "0x5AAeb6053F3E94C9b9A09f33669435E7Ef1BeAed"

/-- A codec that knows one address's checksum casing. -/
def casedCodec : AddressCodec :=
  { base58CheckCodec zeroChecksum with
    getAddress := fun input =>
      if input = .ofList (toLowerCase casedAddress.toList) then casedAddress else input }

def casedTools : AddressTools where
  getAddress address :=
    if !isEvmHex address then .error (.error "invalid address")
    else if Mistyped casedCodec address then .error (.error "bad address checksum")
    else .ok (checksummed casedCodec (address.toList.drop 2))
  toHex input :=
    .ok (if (tronHexTail? input).isSome then .ofList (toLowerCase input.toList)
      else casedCodec.toHex input)

theorem cased_checksum (body : AddressBody) : ∃ tail, tail.all isHexDigit = true ∧
    toLowerCase tail = body.digits ∧ body.eip55 casedCodec = .ofList ('0' :: 'x' :: tail) := by
  have known : casedAddress.toList = '0' :: 'x' :: casedAddress.toList.drop 2 := by decide
  by_cases h : body.lowerHex = .ofList (toLowerCase casedAddress.toList)
  · have hdigits : body.digits = toLowerCase (casedAddress.toList.drop 2) := by
      have hlist := congrArg String.toList h
      rw [AddressBody.lowerHex, String.toList_ofList, String.toList_ofList, known] at hlist
      exact (List.cons.inj (List.cons.inj hlist).2).2
    refine ⟨casedAddress.toList.drop 2, by decide, hdigits.symm, ?_⟩
    rw [← known, String.ofList_toList]
    exact if_pos h
  · exact ⟨body.digits, body.hex, toLowerCase_lowerHex body.lower, if_neg h⟩

/-- The checksummer is the codec's own affair. -/
theorem correct_withChecksum {codec : AddressCodec} (correct : CorrectCodec codec)
    {getAddress : String → String}
    (h : ∀ body : AddressBody, ∃ tail, tail.all isHexDigit = true ∧
      toLowerCase tail = body.digits ∧ getAddress body.lowerHex = .ofList ('0' :: 'x' :: tail)) :
    CorrectCodec { codec with getAddress } where
  getAddress := h
  fromHex := correct.fromHex
  base58_shape := correct.base58_shape
  base58_length := correct.base58_length
  isAddress := correct.isAddress
  toHex := correct.toHex
  decodes := correct.decodes

theorem casedCodec_correct : CorrectCodec casedCodec :=
  correct_withChecksum base58CheckCodec_correct cased_checksum

theorem casedTools_documented : Documented casedCodec casedTools where
  checksums address hex typed := by simp [casedTools, hex, typed]
  refuses address hex mistyped := ⟨.error "bad address checksum", by simp [casedTools, hex, mistyped]⟩
  toHex_hex input hex := by simp [casedTools, hex]
  toHex_base58 input _ shape := by
    have untron : (tronHexTail? input).isSome = false := by
      obtain ⟨rest, hrest⟩ := isBase58Shape_cons shape
      simp [tronHexTail?, hrest, afterTronPrefix]
    simp [casedTools, untron]

/-- A record with one proxy. -/
def recordOf (address : String) : ManifestData Unit := ⟨[], [⟨address, .uups, ()⟩], none⟩

/-- An entry in lower case is rewritten alike. -/
theorem one_record_lowerCase :
    StoredAddresses.canonicalizeStoredAddresses casedTools
        (recordOf "0x5aaeb6053f3e94c9b9a09f33669435e7ef1beaed") =
      (.ok (), (Record.canonicalizeStoredAddresses casedCodec
        (recordOf "0x5aaeb6053f3e94c9b9a09f33669435e7ef1beaed")).data) := by
  apply ((one_record_iff casedCodec_correct casedTools_documented).1 _ ?_).mpr
  · decide
  · decide

/-- One letter in the wrong case: the one plugin counts the entry, the other
refuses the record. -/
theorem mistyped_entry_unreadable :
    (recordOf mistypedAddress).strings.all isEvmHex = true ∧
      (Record.canonicalizeStoredAddresses casedCodec (recordOf mistypedAddress)).unmigratable = 1 ∧
      (StoredAddresses.canonicalizeStoredAddresses casedTools (recordOf mistypedAddress)).1 =
        .error (.error "bad address checksum") :=
  ⟨by decide, by decide, rfl⟩

end TronUpgrades.Hardhat
