import TronUpgrades.Adoption.Record

/-!
# What an adoption writes

`runForceImport` over a record, on a chain that answers alike for as long as it
runs. Any of its steps may fail.
-/

namespace TronUpgrades.Adoption

open Effects Tronbox Record Address
open Hardhat (Manifest)

/-- What an adoption reads of its surroundings. -/
structure Situation where
  slots : String → ProxySlotsRead
  beacon : String → BeaconRead
  code : String → String
  /-- The artifact's `transactionHash`; the getter may throw. -/
  slot : Except Failure (Option String)

/-- The kind that the slots show, and the implementation they lead to. -/
def Situation.found (situation : Situation) (address : String) : Option (AdoptedKind × String) :=
  match situation.slots address with
  | .noCode => none
  | .code _ _ (some beacon) =>
    match situation.beacon beacon with
    | .implementation implementation => some (.proxy .beacon, implementation)
    | _ => none
  | .code (some implementation) admin none =>
    some (.proxy (if admin.isNone then .uups else .transparent), implementation)
  | .code none _ none =>
    match situation.beacon address with
    | .implementation implementation => some (.proxy .beacon, implementation)
    | _ => some (.implementation, address)

def Situation.slotHash (situation : Situation) : Option String :=
  match situation.slot with
  | .ok hash => hash.filter (· ≠ "")
  | .error _ => none

section
variable {E : Engine}

/-- The reads answer what there is to read, or fail. -/
def Situation.Answers (situation : Situation) (contract : ContractAbstraction E) :
    Event (hostEffects E) Failure → Prop
  | ⟨.readProxySlots address, .ok slots⟩ => slots = situation.slots address
  | ⟨.readBeaconImplementation beacon, .ok read⟩ => read = situation.beacon beacon
  | ⟨.getCode address, .ok code⟩ => code = situation.code address
  | ⟨.entry .transactionHash contract', r⟩ => contract' = contract → r = situation.slot
  | _ => True

abbrev Situation.world (situation : Situation) (contract : ContractAbstraction E) :
    World (hostEffects E) Failure (Recorded E) :=
  recordWorld (situation.Answers contract)

/-- The code behind the address is the artifact's, and the kind is neither
another than the one asked for nor, where the adoption records it, another than
the one on record. -/
structure Verified (situation : Situation) (resolved : ResolvedForProxyOps E)
    (contract : ContractAbstraction E) (m : Manifest E) (address : String) (found : AdoptedKind)
    (implementation : String) : Prop where
  shown : situation.found address = some (found, implementation)
  code : ∃ expected, contract.deployedBytecode = some expected ∧
    E.hashBytecodeWithoutMetadata expected =
      E.hashBytecodeWithoutMetadata (situation.code implementation)
  requested : ∀ kind, resolved.kind = some kind → found = .proxy kind
  recorded : ∀ kind, found.recordedAs = some kind →
    m.kindOf address = none ∨ m.kindOf address = some kind

variable {env : Environment} {situation : Situation} {resolved : ResolvedForProxyOps E}
  {contract : ContractAbstraction E} {m : Manifest E} {input address : String}
  {c c' : Recorded E}

/-- What an adoption may ask for, and when. -/
structure Adopts (env : Environment) (situation : Situation) (resolved : ResolvedForProxyOps E)
    (contract : ContractAbstraction E) (m : Manifest E) (input : String) (c : Recorded E)
    (op : HostOp E) : Prop where
  unspent : op.spends = false
  verified : writesRecord op = true → ∃ address found implementation,
    canonicalizeAddress env.codec input = .ok address ∧
      Verified situation resolved contract m address found implementation
  engine : (engineVersion? op).isSome = true → c.state.proxies = m.proxies
  settles : ∀ version layout deployment, op = .engineSettle version layout (.ok deployment) →
    deployment.transactionHash = situation.slotHash
  records : ∀ address kind, op = .addProxyRecord address kind →
    ∃ found implementation canonical, situation.found address = some (found, implementation) ∧
      canonicalizeAddress env.codec implementation = .ok canonical ∧
      (c.state.layoutForAddress canonical).isSome = true

def idles (op : HostOp E) : Prop := writesRecord op = false ∧ op.spends = false

theorem Adopts.idle {op : HostOp E} (hop : idles op) :
    Adopts env situation resolved contract m input c op where
  unspent := hop.2
  verified h := by
    rw [hop.1] at h
    cases h
  engine h := by
    cases op with
    | engineStart | engineSettle => cases hop.1
    | _ => cases h
  settles := by
    rintro version layout deployment rfl
    cases hop.1
  records := by
    rintro address kind rfl
    cases hop.1

theorem idle_moves : Moves (situation.world contract)
    (Adopts env situation resolved contract m input) (idles (E := E)) Tracked.Still :=
  still_moves (fun _ _ hop => .idle hop) fun _ _ _ _ hop hstep => hstep.idle hop.1

theorem hostCall_idles {op : HostOp E} (hop : idles op) : (hostCall op).Asks idles :=
  Script.Asks.perform hop

theorem validateImplementation_idles (name : String) (resolved : ResolvedForProxyOps E) :
    (validateImplementation name resolved).Asks idles :=
  validateImplementation_asks (fun _ => ⟨rfl, rfl⟩) (fun _ => ⟨rfl, rfl⟩) (fun _ => ⟨rfl, rfl⟩)
    fun _ => ⟨rfl, rfl⟩

theorem contractAt_idles (contract : ContractAbstraction E) (address : String) :
    (contractAt contract address).Asks idles := by
  refine Script.Asks.ofExcept.bind fun _ => ?_
  exact (hostCall_idles ⟨rfl, rfl⟩).bind fun _ => trivial

/-- An idle operation, its answer and what follows it. -/
theorem idle_track {β : Type} {op : HostOp E} {f : op.Reply → HostTask E β}
    {Q : Except Failure β → Recorded E → Prop} (hop : idles op)
    (ok : ∀ a c', c.Still c' → situation.Answers contract ⟨op, .ok a⟩ →
      wp (situation.world contract) (Adopts env situation resolved contract m input) (f a) Q c')
    (error : ∀ e c', c.Still c' → Q (.error e) c') :
    wp (situation.world contract) (Adopts env situation resolved contract m input)
      ((hostCall op).bind f) Q c := by
  refine wp.track (.idle hop) (fun a s' hstep hlawful => ?_) fun e s' hstep => ?_
  · exact ok a _ ⟨hstep.idle hop.1, List.suffix_cons ..⟩ hlawful
  · exact error e _ ⟨hstep.idle hop.1, List.suffix_cons ..⟩

theorem classify_found : wp (situation.world contract)
    (Adopts env situation resolved contract m input)
    (classify (productionToolkit (E := E) env) address (situation.slots address))
    (fun o c' => c.Still c' ∧ ∀ r, o = .ok r → situation.found address = some r) c := by
  unfold classify Situation.found
  rcases situation.slots address with _ | ⟨implementation, admin, _ | beacon⟩
  · exact ⟨.refl c, nofun⟩
  · cases implementation with
    | some implementation => exact ⟨.refl c, fun _ h => by cases h; rfl⟩
    | none =>
      refine idle_track ⟨rfl, rfl⟩ (fun read c' still hread => ?_) fun _ _ still => ⟨still, nofun⟩
      obtain rfl : read = situation.beacon address := hread
      cases situation.beacon address <;> exact ⟨still, fun _ h => by cases h; rfl⟩
  · refine idle_track ⟨rfl, rfl⟩ (fun read c' still hread => ?_) fun _ _ still => ⟨still, nofun⟩
    obtain rfl : read = situation.beacon beacon := hread
    cases hbeacon : situation.beacon beacon with
    | implementation target => exact ⟨still, fun _ h => by cases h; simp [hbeacon]⟩
    | _ => exact ⟨still, nofun⟩

/-- The callback sends nothing and reports what the artifact's slot holds. -/
theorem simulatedDeploy_reports {implementation : String} : wp (situation.world contract)
    (Adopts env situation resolved contract m input)
    (simulatedDeploy (productionToolkit env) contract implementation)
    (fun o c' => c.Still c' ∧ o = .ok ⟨implementation, situation.slotHash⟩) c := by
  unfold simulatedDeploy readWriteBackHash Situation.slotHash
  refine wp.bind (R := fun o c' => c.Still c' ∧ o = .ok situation.slotHash)
    (wp_catching.mpr ?_) ?_ ?_
  · refine ⟨.idle ⟨rfl, rfl⟩, ?_⟩
    rintro r ⟨s', _⟩ ⟨hstep, hslot, rfl⟩
    have still : c.Still ⟨s', ⟨.entry .transactionHash contract, r⟩ :: c.history⟩ :=
      ⟨hstep.idle rfl, List.suffix_cons ..⟩
    have hslot : r = situation.slot := hslot rfl
    unfold Situation.slotHash
    rw [← hslot]
    cases r <;> exact ⟨still, rfl⟩
  · rintro _ c' ⟨still, ⟨⟩⟩
    exact ⟨still, rfl⟩
  · rintro _ _ ⟨-, ⟨⟩⟩

-- ---------------------------------------------------------------------------
-- The engine
-- ---------------------------------------------------------------------------

section
variable {validated : ValidatedImplementation E} {found : AdoptedKind}
  {implementation canonical : String}

/-- The engine may be asked while the proxies are as they were. -/
theorem Adopts.ofEngine {op : HostOp E} (hop : (engineVersion? op).isSome = true)
    (haddress : canonicalizeAddress env.codec input = .ok address)
    (hverified : Verified situation resolved contract m address found implementation)
    (hproxies : c.state.proxies = m.proxies)
    (hsettles : ∀ version layout deployment, op = .engineSettle version layout (.ok deployment) →
      deployment.transactionHash = situation.slotHash) :
    Adopts env situation resolved contract m input c op where
  unspent := by
    cases op with
    | engineStart | engineSettle => rfl
    | _ => cases hop
  verified _ := ⟨address, found, implementation, haddress, hverified⟩
  engine _ := hproxies
  settles := hsettles
  records := by
    rintro address kind rfl
    cases hop

theorem engineCall_adopts (haddress : canonicalizeAddress env.codec input = .ok address)
    (hverified : Verified situation resolved contract m address found implementation)
    (hproxies : c.state.proxies = m.proxies) :
    wp (situation.world contract) (Adopts env situation resolved contract m input)
      (engineCall validated { resolved with redeployImplementation := .always } id
        (simulatedDeploy (productionToolkit env) contract canonical))
      (fun o c' => c'.state.proxies = m.proxies ∧ ∃ r, o = .ok r ∧
        ∀ a, r.1 = .ok a → Holds c'.state validated.version canonical) c := by
  unfold engineCall
  simp only [Script.bind_eq, Script.pure_eq]
  refine wp.trackAttempt (.ofEngine rfl haddress hverified hproxies nofun)
    fun started s' hstep _ => ?_
  have hproxies' : s'.proxies = m.proxies := (hstep.proxies nofun).trans hproxies
  rcases started with e | _ | a
  · exact ⟨hproxies', _, rfl, nofun⟩
  · refine wp.bind (R := fun o c' => c'.state.proxies = m.proxies ∧
      o = .ok (.ok ⟨canonical, situation.slotHash⟩)) (wp_attempt.mpr ?_) ?_ ?_
    · refine wp_mono ?_ simulatedDeploy_reports
      rintro _ c' ⟨still, rfl⟩
      exact ⟨(congrArg _ still.state).trans hproxies', rfl⟩
    · rintro _ c' ⟨hproxies', ⟨⟩⟩
      refine wp.trackAttempt (.ofEngine rfl haddress hverified hproxies' ?_)
        fun settled s'' hstep _ => ?_
      · rintro version layout deployment ⟨⟩
        rfl
      · refine ⟨(hstep.proxies nofun).trans hproxies', _, rfl, ?_⟩
        rintro a ⟨⟩
        cases hstep with
        | stored => exact .stored ..
        | elsewhere hop => cases hop
    · rintro _ _ ⟨-, ⟨⟩⟩
  · cases hstep with
    | started hredeploy => cases hredeploy rfl
    | elsewhere hop => cases hop

/-- One call, or two where the engine has removed an entry. -/
theorem fetch_adopts (haddress : canonicalizeAddress env.codec input = .ok address)
    (hverified : Verified situation resolved contract m address found implementation)
    (hproxies : c.state.proxies = m.proxies) :
    wp (situation.world contract) (Adopts env situation resolved contract m input)
      (fetchOrDeployImplementation env validated
        { resolved with redeployImplementation := .always } id
        (simulatedDeploy (productionToolkit env) contract canonical))
      (fun o c' => c'.state.proxies = m.proxies ∧
        ∀ fetched, o = .ok fetched → Holds c'.state validated.version canonical) c := by
  unfold fetchOrDeployImplementation throughRecordLock
  simp only [Script.bind_eq, Script.pure_eq]
  refine wp.catching (R := fun o c' => c'.state.proxies = m.proxies ∧
    ∀ fetched, o = .ok fetched → Holds c'.state validated.version canonical) ?_
    (fun _ _ h => h) ?_
  · refine wp.bind (engineCall_adopts haddress hverified hproxies) ?_ ?_
    · rintro _ c' ⟨hproxies', ⟨first, deployed⟩, ⟨⟩, hfirst⟩
      cases first with
      | ok a => exact ⟨hproxies', fun _ _ => hfirst a rfl⟩
      | error e =>
        dsimp only
        split
        · exact ⟨hproxies', nofun⟩
        · refine wp.bind (engineCall_adopts haddress hverified hproxies') ?_ ?_
          · rintro _ c'' ⟨hproxies'', ⟨second, redeployed⟩, ⟨⟩, hsecond⟩
            cases second with
            | ok a => exact ⟨hproxies'', fun _ _ => hsecond a rfl⟩
            | error e => exact ⟨hproxies'', nofun⟩
          · rintro e c'' ⟨-, _, ⟨⟩, -⟩
    · rintro e c' ⟨-, _, ⟨⟩, -⟩
  · rintro e c' ⟨hproxies', -⟩
    split <;> exact ⟨hproxies', nofun⟩

end

-- ---------------------------------------------------------------------------
-- The proxy's own record
-- ---------------------------------------------------------------------------

section
variable {found : AdoptedKind} {implementation canonical : String}

theorem proxyRecordAbsent_reads (again : canonicalizeAddress env.codec address = .ok address) :
    wp (situation.world contract) (Adopts env situation resolved contract m input)
      (proxyRecordAbsent (productionToolkit (E := E) env) address found found.recordedAs)
      (fun o c' => c.Still c' ∧ ∀ absent, o = .ok absent → ∀ kind, found.recordedAs = some kind →
        c.state.kindOf address = if absent then none else some kind) c := by
  cases hrecorded : found.recordedAs with
  | none => exact ⟨.refl c, nofun⟩
  | some kind =>
    have lookup : wp (situation.world contract) (Adopts env situation resolved contract m input)
        (sessionProxyRecord (E := E) env address)
        (fun o c' => c.Still c' ∧ ∀ a, o = .ok a → a = c.state.kindOf address) c := by
      unfold sessionProxyRecord throughRecordRead
      simp only [again, Script.bind_eq, Script.ofExcept_ok, Script.bind_pure]
      refine wp.catching (R := fun o c' => c.Still c' ∧ ∀ a, o = .ok a →
        a = c.state.kindOf address) ?_ (fun _ _ h => h) ?_
      · refine wp_perform.mpr ⟨.idle ⟨rfl, rfl⟩, ?_⟩
        rintro r ⟨s', _⟩ ⟨hstep, -, rfl⟩
        refine ⟨⟨hstep.idle rfl, List.suffix_cons ..⟩, ?_⟩
        rintro a rfl
        cases hstep with
        | proxyRecord => rfl
        | elsewhere _ hop => exact absurd rfl (hop address)
      · rintro e c' ⟨still, -⟩
        split <;> exact ⟨still, nofun⟩
    refine wp.bind lookup ?_ fun _ _ h => ⟨h.1, nofun⟩
    rintro existing c' ⟨still, hexisting⟩
    obtain rfl := hexisting existing rfl
    cases hkind : c.state.kindOf address with
    | none =>
      refine ⟨still, ?_⟩
      rintro _ ⟨⟩ _ ⟨⟩
      rfl
    | some recorded =>
      refine wp.ofExcept_bind (fun _ hsame => ⟨still, ?_⟩) fun _ _ => ⟨still, nofun⟩
      rintro _ ⟨⟩ _ ⟨⟩
      exact congrArg some (Decidable.not_not.mp (refuseIf_ok hsame))

/-- The proxy is recorded last, over the layout that is stored by then. -/
theorem recordAdopted_adopts (haddress : canonicalizeAddress env.codec input = .ok address)
    (again : canonicalizeAddress env.codec address = .ok address)
    (hverified : Verified situation resolved contract m address found implementation)
    (hcanonical : canonicalizeAddress env.codec implementation = .ok canonical)
    {version : E.Version} (hholds : Holds c.state version canonical) {absent : Bool}
    (habsent : ∀ kind, found.recordedAs = some kind →
      c.state.kindOf address = if absent then none else some kind) :
    wp (situation.world contract) (Adopts env situation resolved contract m input)
      (recordAdopted (productionToolkit (E := E) env) address absent found.recordedAs)
      (fun o c' => ∀ u, o = .ok u → Holds c'.state version canonical ∧
        ∀ a, c'.state.kindOf a =
          if address = a then found.recordedAs.or (c.state.kindOf a) else c.state.kindOf a) c := by
  cases hrecorded : found.recordedAs with
  | none =>
    rintro _ ⟨⟩
    exact ⟨hholds, fun a => by simp⟩
  | some kind =>
    refine wp.when (fun habs => ?_) fun hpresent => ?_
    · show wp _ _ (sessionAddProxyRecord (E := E) env address kind) _ _
      unfold sessionAddProxyRecord throughRecordRead
      simp only [again, Script.bind_eq, Script.ofExcept_ok, Script.bind_pure]
      refine wp_catching.mpr (wp_perform.mpr ⟨⟨rfl, fun _ => ⟨address, found, implementation, haddress,
        hverified⟩, nofun, nofun, ?_⟩, ?_⟩)
      · rintro _ _ ⟨⟩
        exact ⟨found, implementation, canonical, hverified.shown, hcanonical, hholds.layout⟩
      · rintro (e | _) ⟨s', _⟩ ⟨hstep, -, rfl⟩
        · dsimp only
          split <;> exact nofun
        · rintro _ ⟨⟩
          cases hstep with
          | addProxyRecord =>
            exact ⟨hholds, fun a => (Hardhat.kindOf_addProxy kind a).trans rfl⟩
          | elsewhere hop => cases hop
    · rintro _ ⟨⟩
      refine ⟨hholds, fun a => ?_⟩
      split
      · next heq =>
        subst heq
        rw [habsent kind hrecorded, if_neg hpresent]
        rfl
      · rfl

end

/-- What an adoption that returns leaves on record. -/
def Adopted (env : Environment) (situation : Situation) (resolved : ResolvedForProxyOps E)
    (contract : ContractAbstraction E) (m : Manifest E) (input : String) (m' : Manifest E) : Prop :=
  ∃ address found implementation canonical version,
    canonicalizeAddress env.codec input = .ok address ∧
      Verified situation resolved contract m address found implementation ∧
      canonicalizeAddress env.codec implementation = .ok canonical ∧ Holds m' version canonical ∧
      ∀ a, m'.kindOf a = if address = a then found.recordedAs.or (m.kindOf a) else m.kindOf a

theorem assertExpectedKind_ok {found : AdoptedKind} {option : Option ProxyKind} {u : Unit}
    (h : assertExpectedKind address found option = .ok u) :
    ∀ kind, option = some kind → found = .proxy kind := by
  rintro kind rfl
  exact Decidable.not_not.mp (refuseIf_ok h)

variable (situation resolved contract m) in
theorem runForceImport_adopts
    (again : ∀ a, canonicalizeAddress env.codec input = .ok a →
      canonicalizeAddress env.codec a = .ok a) :
    wp (situation.world contract) (Adopts env situation resolved contract m input)
      (runForceImport ⟨productionToolkit env, resolved⟩ input contract)
      (fun o c => ∀ outcome, o = .ok outcome →
        Adopted env situation resolved contract m input c.state) ⟨m, []⟩ := by
  have idle : Moves (situation.world contract)
      (Adopts env situation resolved contract m input) (idles (E := E)) Tracked.Still := idle_moves
  unfold runForceImport
  simp only [Script.bind_eq, Script.pure_eq]
  refine wp.ofExcept_bind (fun address haddress => ?_) fun _ _ => error_returns
  have again := again address haddress
  refine idle_track ⟨rfl, rfl⟩ (fun slots c₁ still₁ hslots => ?_) fun _ _ _ => error_returns
  obtain rfl : slots = situation.slots address := hslots
  refine wp.bind classify_found ?_ fun _ _ _ => error_returns
  rintro ⟨found, implementation⟩ c₂ ⟨still₂, hfound⟩
  dsimp only
  have hfound := hfound _ rfl
  refine wp.ofExcept_bind (fun _ hkind => ?_) fun _ _ => error_returns
  refine wp.ofExcept_bind (fun name _ => ?_) fun _ _ => error_returns
  refine wp.still idle (validateImplementation_idles name _) (fun validated c₃ still₃ => ?_)
    fun _ _ _ => error_returns
  refine wp.ofExcept_bind (fun expected hexpected => ?_) fun _ _ => error_returns
  refine idle_track ⟨rfl, rfl⟩ (fun code c₄ still₄ hcode => ?_) fun _ _ _ => error_returns
  obtain rfl : code = situation.code implementation := hcode
  refine wp.ofExcept_bind (fun _ hsame => ?_) fun _ _ => error_returns
  have hsame := Decidable.not_not.mp (refuseIf_ok hsame)
  refine wp.bind (proxyRecordAbsent_reads again) ?_ fun _ _ _ => error_returns
  rintro absent c₅ ⟨still₅, habsent⟩
  have hstate₄ : c₄.state = m :=
    (((still₁.trans still₂).trans still₃).trans still₄).state
  have habsent := habsent absent rfl
  rw [hstate₄] at habsent
  have hverified : Verified situation resolved contract m address found implementation := by
    refine ⟨hfound, ⟨expected, expectedBytecode_ok hexpected, hsame⟩,
      assertExpectedKind_ok hkind, fun kind hrecorded => ?_⟩
    rw [habsent kind hrecorded]
    cases absent
    · exact .inr rfl
    · exact .inl rfl
  refine wp.ofExcept_bind (fun _ _ => ?_) fun _ _ => error_returns
  refine wp.ofExcept_bind (fun canonical hcanonical => ?_) fun _ _ => error_returns
  have hproxies : c₅.state.proxies = m.proxies := by rw [still₅.state, hstate₄]
  refine wp.bind (fetch_adopts haddress hverified hproxies) ?_ fun _ _ _ => error_returns
  rintro fetched c₆ ⟨hproxies₆, hholds⟩
  have hkinds : ∀ a, c₆.state.kindOf a = m.kindOf a := fun a => by
    simp only [Manifest.kindOf, hproxies₆]
  have habsent₆ : ∀ kind, found.recordedAs = some kind →
      c₆.state.kindOf address = if absent then none else some kind :=
    fun kind hrecorded => (hkinds address).trans (habsent kind hrecorded)
  refine wp.bind (recordAdopted_adopts haddress again hverified hcanonical (hholds _ rfl) habsent₆)
    ?_ fun _ _ _ => error_returns
  rintro _ c₇ hrecorded
  obtain ⟨hholds, hkinds₇⟩ := hrecorded () rfl
  simp only [hkinds] at hkinds₇
  refine wp.still idle (contractAt_idles contract address) (fun handle c₈ still₈ => ?_)
    fun _ _ _ => error_returns
  refine wp.ofExcept_bind (fun _ _ => ?_) fun _ _ => error_returns
  rintro outcome ⟨⟩
  refine ⟨address, found, implementation, canonical, validated.version, haddress, hverified,
    hcanonical, ?_, ?_⟩
  · rw [still₈.state]
    exact hholds
  · rw [still₈.state]
    exact hkinds₇

end

end TronUpgrades.Adoption
