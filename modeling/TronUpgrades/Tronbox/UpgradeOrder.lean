import TronUpgrades.Tronbox.AnyToolkit

/-!
# The order of an upgrade

Under a toolkit that may do anything, `runUpgradeProxy` and `runUpgradeBeacon`
spend only after the candidate was validated and compared with the layout of
the implementation read from the chain, send one transaction at most, and
return success only on what the chain and the record answered after it.
-/

namespace TronUpgrades.Tronbox

open Effects Address

def ToolkitOp.sends {E : Engine} : ToolkitOp E → Bool
  | .send _ => true
  | _ => false

/-- A deployment by the host, or a transaction. -/
def ToolkitOp.spends {E : Engine} : ToolkitOp E → Bool
  | .hostDeploy _ _ => true
  | op => op.sends

section
variable {E : Engine}

/-- How many transactions the run has sent. -/
def sendCount (h : ToolkitHistory E) : Nat := asked (S := toolkitEffects E) ToolkitOp.sends h

theorem ToolkitOp.sends_of_spends_eq_false {op : ToolkitOp E} (h : op.spends = false) :
    op.sends = false := by
  cases op <;> first | rfl | cases h

/-- Later in the same run, with nothing sent in between. -/
def Unsent (h h' : ToolkitHistory E) : Prop := h <:+ h' ∧ sendCount h' = sendCount h

theorem Unsent.refl (h : ToolkitHistory E) : Unsent h h := ⟨List.suffix_rfl, rfl⟩

theorem Unsent.trans {h h' h'' : ToolkitHistory E} (a : Unsent h h') (b : Unsent h' h'') :
    Unsent h h'' := ⟨a.1.trans b.1, b.2.trans a.2⟩

theorem Unsent.cons {h h' : ToolkitHistory E} (a : Unsent h h') {op : ToolkitOp E}
    {r : Except Failure op.Reply} (hop : op.sends = false) : Unsent h (⟨op, r⟩ :: h') := by
  refine ⟨a.1.trans (List.suffix_cons ..), ?_⟩
  rw [← a.2]
  exact asked_cons_of_neg hop

/-- A guard on what spends only. -/
def spendingOnly (P : ToolkitHistory E → ToolkitOp E → Prop) :
    ToolkitHistory E → (toolkitEffects E).Op → Prop :=
  fun h op => ToolkitOp.spends op → P h op

variable {P : ToolkitHistory E → ToolkitOp E → Prop} {h : ToolkitHistory E}

theorem unspent_moves : Moves .free (spendingOnly P) (fun op => ToolkitOp.spends op = false)
    Unsent where
  refl := Unsent.refl
  trans _ _ _ := Unsent.trans
  guard h op hop hspends := by
    rw [hop] at hspends
    cases hspends
  step := by
    rintro h op r h' hop ⟨-, rfl⟩
    exact (Unsent.refl h).cons (ToolkitOp.sends_of_spends_eq_false hop)

/-- One operation that does not spend, and what follows it. -/
theorem wp.askUnspent {h₀ : ToolkitHistory E} {op : ToolkitOp E} {α : Type}
    {f : op.Reply → Task (toolkitEffects E) α} {Q : Except Failure α → ToolkitHistory E → Prop}
    (stay : Unsent h₀ h) (hop : op.spends = false)
    (failed : ∀ e h', Unsent h₀ h' → Q (.error e) h')
    (ok : ∀ a, Unsent h₀ (⟨op, .ok a⟩ :: h) →
      wp .free (spendingOnly P) (f a) Q (⟨op, .ok a⟩ :: h)) :
    wp .free (spendingOnly P) ((toolkitCall op).bind f) Q h := by
  have hsends := ToolkitOp.sends_of_spends_eq_false hop
  apply wp.askFree
  · intro hspends
    rw [hop] at hspends
    cases hspends
  · exact fun a => ok a (stay.cons hsends)
  · exact fun e => failed e _ (stay.cons hsends)

theorem anyEntry_asks :
    (anyEntry (E := E)).Asks fun op => ToolkitOp.spends op = false := by
  constructor <;> intros <;> exact Script.Asks.perform rfl

/-- The fetch spends through its callback alone, which sends nothing. -/
theorem callBack_wp {contract : ContractAbstraction E} {args : List Json}
    (guard : ∀ h', Unsent h h' → P h' (.hostDeploy contract args)) (turns : Nat)
    (last : Option WriteBack) :
    wp .free (spendingOnly P) (callBack (toolkitCall (.hostDeploy contract args)) turns last)
      (fun _ h' => Unsent h h') h := by
  induction turns generalizing h last with
  | zero => exact Unsent.refl h
  | succ turns ih =>
    have one : wp .free (spendingOnly P) (toolkitCall (.hostDeploy contract args)).attempt
        (fun _ h' => Unsent h h') h := by
      apply wp_attempt.mpr
      apply wp_perform.mpr
      refine ⟨fun _ => guard h (Unsent.refl h), ?_⟩
      rintro r h' ⟨-, rfl⟩
      exact (Unsent.refl h).cons rfl
    apply wp.bind one
    · intro outcome h' hh
      refine wp_mono (fun _ h'' hh' => hh.trans hh') (ih ?_ _)
      exact fun h'' hh' => guard h'' (hh.trans hh')
    · exact fun _ h' hh => hh

theorem fetchOrDeployThrough_wp {codec : AddressCodec} {wildcard : Bool}
    {resolved : ResolvedForProxyOps E} {contract : ContractAbstraction E}
    {validated : ValidatedImplementation E}
    (guard : ∀ h', Unsent h h' → P h' (.hostDeploy contract resolved.constructorArgs)) :
    wp .free (spendingOnly P)
      (fetchOrDeployThrough ⟨anyToolkit codec wildcard, resolved⟩ contract validated)
      (fun o h' => Unsent h h' ∧ ∀ fetched, o = .ok fetched →
        Answered h' (.fetchSettles validated resolved) fetched.address) h := by
  apply wp.askFree nofun
  · intro turns
    have hstart : Unsent h (⟨.fetchStarts validated resolved, .ok turns⟩ :: h) :=
      (Unsent.refl h).cons rfl
    apply wp.bind (callBack_wp (fun h' hh => guard h' (hstart.trans hh)) turns none)
    · intro deployed h' hh
      apply wp.askFree nofun
      · intro address
        refine ⟨(hstart.trans hh).cons rfl, ?_⟩
        rintro _ ⟨⟩
        exact .head
      · exact fun e => ⟨(hstart.trans hh).cons rfl, error_returns⟩
    · exact fun e h' hh => ⟨hstart.trans hh, error_returns⟩
  · exact fun e => ⟨(Unsent.refl h).cons rfl, error_returns⟩

-- ---------------------------------------------------------------------------
-- upgradeProxy
-- ---------------------------------------------------------------------------

/-- What the run has been answered about a planned upgrade: the candidate
validated, its layout held against that of the implementation in the slot, the
beacon slot empty, and the dispatch planned from the admin's or the proxy's own
interface version. -/
structure ProxyUpgradeCleared (codec : AddressCodec) (resolved : ResolvedForProxyOps E)
    (proxy : String) (contract : ContractAbstraction E) (plan : ProxyUpgradePlan E)
    (h : ToolkitHistory E) : Prop where
  candidate : plan.contract = contract
  target : canonicalizeAddress codec proxy = .ok plan.proxyAddress
  validated : ∃ name, nameOf E contract "upgradeProxy" = .ok name ∧
    Answered h (.validateImplementation name resolved) plan.validated
  compared : ∃ implementation admin layout,
    Answered h (.proxySlots plan.proxyAddress) (.code (some implementation) admin none) ∧
    Answered h (.storedLayoutFor implementation) layout ∧
    Answered h (.assertStorageCompatible layout plan.validated resolved) () ∧
    upgradeAdmin plan.proxyAddress plan.kind admin = .ok plan.adminAddress
  kind : Answered h (.processProxyKind plan.proxyAddress plan.validated resolved) plan.kind
  callData : encodeCall contract.abi resolved.call = .ok plan.callData
  dispatch : ∃ version,
    Answered h (.readUpgradeInterfaceVersion (plan.adminAddress.getD plan.proxyAddress)) version ∧
    planUpgradeDispatch plan.kind version (plan.callData ≠ "0x") = .ok plan.dispatch

theorem ProxyUpgradeCleared.later {codec : AddressCodec} {resolved : ResolvedForProxyOps E}
    {proxy : String} {contract : ContractAbstraction E} {plan : ProxyUpgradePlan E}
    {h h' : ToolkitHistory E} (c : ProxyUpgradeCleared codec resolved proxy contract plan h)
    (hh : h <:+ h') : ProxyUpgradeCleared codec resolved proxy contract plan h' := by
  obtain ⟨name, hname, hvalidated⟩ := c.validated
  obtain ⟨implementation, admin, layout, hslots, hlayout, hcompatible, hadmin⟩ := c.compared
  obtain ⟨version, hversion, hdispatch⟩ := c.dispatch
  exact {
    candidate := c.candidate
    target := c.target
    validated := ⟨name, hname, hvalidated.later hh⟩
    compared := ⟨implementation, admin, layout, hslots.later hh, hlayout.later hh,
      hcompatible.later hh, hadmin⟩
    kind := c.kind.later hh
    callData := c.callData
    dispatch := ⟨version, hversion.later hh, hdispatch⟩ }

/-- What holds wherever the run spends: the upgrade is cleared, and a
transaction is the first, the planned one, and carries the call data. -/
def ProxyUpgradeSpends (codec : AddressCodec) (resolved : ResolvedForProxyOps E) (proxy : String)
    (contract : ContractAbstraction E) (h : ToolkitHistory E) (op : ToolkitOp E) : Prop :=
  ∃ plan, ProxyUpgradeCleared codec resolved proxy contract plan h ∧
    ∀ request, op = .send request → sendCount h = 0 ∧ ∃ implementation,
      Answered h (.fetchSettles plan.validated resolved) implementation ∧
      request = (plan.request implementation).toFacade ∧
      (plan.callData ≠ "0x" → request.args.getLast? = some (.str plan.callData))

/-- Since `sent`, the slot was read and denotes the implementation, and the
record holds the proxy. -/
def ProxyUpgradeObserved (codec : AddressCodec) (sent h : ToolkitHistory E)
    (address implementation : String) : Prop :=
  (∃ observed, AnsweredSince sent h (.readImplementationAddress address) observed ∧
    isAlreadyCurrent codec observed implementation = .ok true) ∧
  ((∃ kind, AnsweredSince sent h (.getProxyRecord address) (some kind)) ∨
    ∃ kind, AnsweredSince sent h (.recordProxy address kind) ())

theorem ProxyUpgradeObserved.later {codec : AddressCodec} {sent h h' : ToolkitHistory E}
    {address implementation : String}
    (o : ProxyUpgradeObserved codec sent h address implementation) (hh : h <:+ h') :
    ProxyUpgradeObserved codec sent h' address implementation := by
  obtain ⟨⟨observed, hread, hcurrent⟩, hrecord⟩ := o
  refine ⟨⟨observed, hread.later hh, hcurrent⟩, ?_⟩
  rcases hrecord with ⟨kind, h⟩ | ⟨kind, h⟩
  · exact .inl ⟨kind, h.later hh⟩
  · exact .inr ⟨kind, h.later hh⟩

/-- The same, since the transaction of the run. -/
def ProxyUpgradeDone (codec : AddressCodec) (h : ToolkitHistory E) (result : UpgradedProxy) :
    Prop :=
  ∃ before request reply,
    ProxyUpgradeObserved codec (⟨.send request, .ok reply⟩ :: before) h result.address
      result.implementation

/-- Call data that a plan was made for reaches the transaction unchanged. -/
theorem ProxyUpgradePlan.request_data {plan : ProxyUpgradePlan E} {version : Option String}
    (hplan : planUpgradeDispatch plan.kind version (plan.callData ≠ "0x") = .ok plan.dispatch)
    (hdata : plan.callData ≠ "0x") (implementation : String) :
    (plan.request implementation).toFacade.args.getLast? = some (.str plan.callData) := by
  have hcarries : plan.dispatch.carriesData = true := by
    rcases planUpgradeDispatch_data hplan with h | h
    · exact h
    · simp [hdata] at h
  obtain ⟨hupgrade, hupgradeTo⟩ := planUpgradeDispatch_call hplan hcarries
  cases hroute : plan.dispatch.route <;>
    simp [UpgradeCallRequest.toFacade, UpgradeCallRequest.callArgs, ProxyUpgradePlan.request,
      hroute, hcarries, hupgrade, hupgradeTo]

section
variable {codec : AddressCodec} {wildcard : Bool} {resolved : ResolvedForProxyOps E}
  {proxy : String} {contract : ContractAbstraction E} {plan : ProxyUpgradePlan E}

/-- Planning asks for nothing that spends, and what it ends with is cleared. -/
theorem planProxyUpgrade_wp :
    wp .free (spendingOnly P)
      (planProxyUpgrade ⟨anyToolkit codec wildcard, resolved⟩ proxy contract)
      (fun o h' => Unsent h h' ∧ ∀ plan, o = .ok plan →
        ProxyUpgradeCleared codec resolved proxy contract plan h') h := by
  have failed : ∀ (e : Failure) h', Unsent h h' → Unsent h h' ∧
      ∀ plan, (.error e : Except Failure (ProxyUpgradePlan E)) = .ok plan →
        ProxyUpgradeCleared codec resolved proxy contract plan h' :=
    fun e h' stay => ⟨stay, error_returns⟩
  have stay : Unsent h h := Unsent.refl h
  unfold planProxyUpgrade
  simp only [Script.bind_eq, Script.pure_eq, anyToolkit]
  refine wp.ofExcept_bind (fun name hname => ?_) fun e _ => failed e _ stay
  refine wp.ofExcept_bind (fun proxyAddress hproxy => ?_) fun e _ => failed e _ stay
  refine wp.askUnspent stay rfl failed fun validated stay => ?_
  refine wp.ofExcept_bind (fun _ _ => ?_) fun e _ => failed e _ stay
  refine wp.askUnspent stay rfl failed fun _ stay => ?_
  refine wp.askUnspent stay rfl failed fun slots stay => ?_
  refine wp.ofExcept_bind ?_ fun e _ => failed e _ stay
  rintro ⟨implementation, admin⟩ hslots
  refine wp.askUnspent stay rfl failed fun kind stay => ?_
  refine wp.askUnspent stay rfl failed fun layout stay => ?_
  refine wp.askUnspent stay rfl failed fun _ stay => ?_
  refine wp.ofExcept_bind (fun callData hdata => ?_) fun e _ => failed e _ stay
  refine wp.ofExcept_bind (fun adminAddress hadmin => ?_) fun e _ => failed e _ stay
  refine wp.askUnspent stay rfl failed fun version stay => ?_
  refine wp.ofExcept_bind (fun dispatch hdispatch => ?_) fun e _ => failed e _ stay
  refine ⟨stay, ?_⟩
  rintro plan ⟨⟩
  obtain rfl := upgradeableSlots_ok hslots
  exact {
    candidate := rfl
    target := hproxy
    validated := ⟨name, hname, by simp [Answered]⟩
    compared := ⟨implementation, admin, layout, by simp [Answered], by simp [Answered],
      by simp [Answered], hadmin⟩
    kind := by simp [Answered]
    callData := hdata
    dispatch := ⟨version, by simp [Answered], hdispatch⟩ }

theorem confirmUpgrade_wp {hash : String} :
    wp .free (spendingOnly P) (confirmUpgrade (anyToolkit (E := E) codec wildcard) hash)
      (fun _ h' => Unsent h h') h := by
  unfold confirmUpgrade
  refine wp.askUnspent (.refl h) rfl (fun _ _ stay => stay) fun verdict stay => ?_
  cases verdict <;> exact stay

/-- A write under the live proxy's name fails or has written. -/
theorem recordingLiveProxy_wp {h₀ : ToolkitHistory E} {live : SpentDeployment} {address : String}
    {kind : ProxyKind} {Q : Except Failure Unit → ToolkitHistory E → Prop} (stay : Unsent h₀ h)
    (failed : ∀ e h', Unsent h₀ h' → Q (.error e) h')
    (written : Unsent h₀ (⟨.recordProxy address kind, .ok ()⟩ :: h) →
      Q (.ok ()) (⟨.recordProxy address kind, .ok ()⟩ :: h)) :
    wp .free (spendingOnly P)
      (recordingLiveProxy live (toolkitCall (E := E) (.recordProxy address kind))) Q h := by
  refine ⟨nofun, ?_⟩
  rintro (e | ⟨⟩) _ ⟨-, rfl⟩
  · exact failed _ _ (stay.cons rfl)
  · exact written (stay.cons rfl)

/-- From the transaction on: success only on what is read and recorded after
it. -/
theorem settleUpgradedProxy_wp {implementation : String} {writeBack : WriteBack} :
    wp .free (spendingOnly P)
      (settleUpgradedProxy (anyToolkit codec wildcard) plan implementation writeBack)
      (fun o h' => ∀ out, o = .ok out →
        ProxyUpgradeObserved codec h h' plan.proxyAddress out.2) h := by
  have failed : ∀ (e : Failure) h', Unsent h h' → ∀ out,
      (.error e : Except Failure (WriteBack × String)) = .ok out →
        ProxyUpgradeObserved codec h h' plan.proxyAddress out.2 :=
    fun e h' _ => error_returns
  unfold settleUpgradedProxy
  simp only [Script.bind_eq, Script.pure_eq]
  refine wp.bind confirmUpgrade_wp ?_ fun e _ stay => failed e _ stay
  intro _ h₁ stay₁
  refine wp.askUnspent stay₁ rfl failed fun observed stay => ?_
  refine wp.ofExcept_bind (fun current hcurrent => ?_) fun e _ => failed e _ stay
  refine wp.ofExcept_bind (fun _ hrefuse => ?_) fun e _ => failed e _ stay
  have hcurrent' : isAlreadyCurrent codec observed implementation = .ok true := by
    cases current with
    | true => exact hcurrent
    | false => cases hrefuse
  have hread : AnsweredSince h (⟨.readImplementationAddress plan.proxyAddress, .ok observed⟩ :: h₁)
      (.readImplementationAddress plan.proxyAddress) observed := .head stay₁.1
  refine wp.askUnspent stay rfl failed fun existing stay₂ => ?_
  have hafter := hread.later (List.suffix_cons
    (⟨.getProxyRecord plan.proxyAddress, .ok existing⟩ : Event (toolkitEffects E) Failure) _)
  rw [wp_bind]
  apply wp.when
  · intro _
    refine recordingLiveProxy_wp stay₂ failed fun stay₃ => ?_
    rintro out ⟨⟩
    exact ⟨⟨observed, hafter.later (List.suffix_cons ..), hcurrent'⟩,
      .inr ⟨plan.kind, .head stay₂.1⟩⟩
  · intro hexisting out hout
    cases hout
    cases existing with
    | none => exact absurd rfl hexisting
    | some kind => exact ⟨⟨observed, hafter, hcurrent'⟩, .inl ⟨kind, .head stay.1⟩⟩

/-- A facade call that succeeds ends with its one transaction. -/
theorem callThroughFacade_wp {request : FacadeRequest}
    (guard : ∀ h', Unsent h h' → P h' (.send request)) :
    wp .free (spendingOnly P) (callThroughFacade (anyFacadeHost (E := E)) request)
      (fun o h' => ∀ writeBack, o = .ok writeBack →
        ∃ before reply, h' = ⟨.send request, .ok reply⟩ :: before) h := by
  have failed : ∀ (e : Failure) h', Unsent h h' → ∀ writeBack,
      (.error e : Except Failure WriteBack) = .ok writeBack →
        ∃ before reply, h' = ⟨.send request, .ok reply⟩ :: before :=
    fun e h' _ => error_returns
  unfold callThroughFacade
  simp only [Script.bind_eq, Script.pure_eq, anyFacadeHost]
  refine wp.askUnspent (.refl h) rfl failed fun facade stay => ?_
  split
  · exact error_returns
  · refine wp.askUnspent stay rfl failed fun attached stay => ?_
    split
    · exact error_returns
    · refine wp.askFree (fun _ => guard _ stay) (fun reply => ?_) fun e => error_returns
      cases callTransactionHash reply with
      | none => exact error_returns
      | some hash => exact fun _ _ => ⟨_, reply, rfl⟩

theorem upgradeProxyStep_wp (hc : ∀ h', Unsent h h' →
      ProxyUpgradeCleared codec resolved proxy contract plan h') (h0 : sendCount h = 0) :
    wp .free (spendingOnly (ProxyUpgradeSpends codec resolved proxy contract))
      (upgradeProxyStep ⟨anyToolkit codec wildcard, resolved⟩ plan)
      (fun o h' => ∀ out, o = .ok out → ∃ before request reply,
        ProxyUpgradeObserved codec (⟨.send request, .ok reply⟩ :: before) h' plan.proxyAddress
          out.2) h := by
  unfold upgradeProxyStep
  simp only [Script.bind_eq]
  apply wp.bind (fetchOrDeployThrough_wp fun h' stay => ⟨plan, hc h' stay, nofun⟩) ?_
    fun e _ _ => error_returns
  rintro fetched h₁ ⟨stay₁, hfetched⟩
  have hsettled := hfetched fetched rfl
  have hguard : ∀ h', Unsent h₁ h' → ProxyUpgradeSpends codec resolved proxy contract h'
      (.send (plan.request fetched.address).toFacade) := by
    intro h' stay
    refine ⟨plan, hc h' (stay₁.trans stay), ?_⟩
    rintro request ⟨⟩
    obtain ⟨version, -, hdispatch⟩ := (hc h' (stay₁.trans stay)).dispatch
    refine ⟨(stay₁.trans stay).2.trans h0, fetched.address, hsettled.later stay.1, rfl, ?_⟩
    exact fun hdata => ProxyUpgradePlan.request_data hdispatch hdata _
  apply wp.bind (R := fun o h' => ∀ writeBack, o = .ok writeBack → ∃ before reply,
    h' = ⟨.send (plan.request fetched.address).toFacade, .ok reply⟩ :: before) ?_ ?_
    fun e _ _ => error_returns
  · apply wp.bind (callThroughFacade_wp hguard)
    · exact fun writeBack h' hsent _ _ => hsent writeBack rfl
    · exact fun _ _ _ => error_returns
  · intro writeBack h' hsent
    obtain ⟨before, reply, rfl⟩ := hsent writeBack rfl
    refine wp_mono (fun o h' hdone out ho => ?_) settleUpgradedProxy_wp
    exact ⟨before, _, reply, hdone out ho⟩

theorem wildcardNote_wp :
    wp .free (spendingOnly P) (wildcardNote (anyToolkit (E := E) codec wildcard))
      (fun _ h' => Unsent h h') h := by
  apply wp.when
  · intro _
    refine ⟨nofun, ?_⟩
    rintro (e | ⟨⟩) _ ⟨-, rfl⟩ <;> exact (Unsent.refl h).cons rfl
  · exact fun _ => Unsent.refl h

theorem runUpgradeProxy_wp :
    wp .free (spendingOnly (ProxyUpgradeSpends codec resolved proxy contract))
      (runUpgradeProxy (E := E) ⟨anyToolkit codec wildcard, resolved⟩ proxy contract)
      (fun o h' => ∀ result, o = .ok result → ProxyUpgradeDone codec h' result) [] := by
  have failed : ∀ (e : Failure) (h' : ToolkitHistory E), ∀ result,
      (.error e : Except Failure UpgradedProxy) = .ok result → ProxyUpgradeDone codec h' result :=
    fun e h' => error_returns
  unfold runUpgradeProxy
  simp only [Script.bind_eq, Script.pure_eq]
  refine wp.bind planProxyUpgrade_wp ?_ fun e h' _ => failed e h'
  rintro plan h₁ ⟨stay₁, hplan⟩
  have hc := hplan plan rfl
  apply wp.bind (R := fun o h' => ∀ out, o = .ok out → ∃ before request reply,
    ProxyUpgradeObserved codec (⟨.send request, .ok reply⟩ :: before) h' plan.proxyAddress out.2)
    ?_ ?_ fun e h' _ => failed e h'
  · refine wp.askUnspent (.refl h₁) rfl (fun _ _ _ => error_returns) fun _ stay₂ => ?_
    apply restoringWriteBackOnFailure_wp anyEntry_asks unspent_moves
    · intro h₂ stay₃
      have stay := stay₂.trans stay₃
      apply upgradeProxyStep_wp fun h' stay' => hc.later (stay.trans stay').1
      exact (stay₁.trans stay).2
    · exact fun _ _ _ _ _ => error_returns
  · rintro ⟨writeBack, implementation⟩ h₂ hstep
    obtain ⟨before, request, reply, hobserved⟩ := hstep _ rfl
    apply wp.bind (R := fun _ h' => Unsent h₂ h') wildcardNote_wp ?_ fun e h' _ => failed e h'
    intro _ h₃ stay
    refine wp.askUnspent stay rfl (fun _ _ _ => error_returns) fun handle stay => ?_
    refine wp.ofExcept_bind (fun _ _ => ?_) fun e _ => failed e _
    refine wp.ofExcept_bind (fun _ _ => ?_) fun e _ => failed e _
    rintro result ⟨⟩
    exact ⟨before, request, reply, hobserved.later stay.1⟩

end

-- ---------------------------------------------------------------------------
-- upgradeBeacon
-- ---------------------------------------------------------------------------

/-- What the run has been answered about a beacon's upgrade: the beacon's own
implementation, the candidate validated as a beacon's, and its layout held
against that implementation's. -/
structure BeaconUpgradeCleared (codec : AddressCodec) (resolved : ResolvedForProxyOps E)
    (beaconAddress : String) (contract : ContractAbstraction E) (beacon : String)
    (validated : ValidatedImplementation E) (h : ToolkitHistory E) : Prop where
  target : canonicalizeAddress codec beaconAddress = .ok beacon
  judged : ∃ name, nameOf E contract "upgradeBeacon" = .ok name ∧
    Answered h (.validateImplementation name { resolved with kind := some .beacon }) validated
  compared : ∃ implementation layout,
    Answered h (.readBeaconImplementation beacon) (.implementation implementation) ∧
    Answered h (.storedLayoutFor implementation) layout ∧
    Answered h (.assertStorageCompatible layout validated resolved) ()

theorem BeaconUpgradeCleared.later {codec : AddressCodec} {resolved : ResolvedForProxyOps E}
    {beaconAddress beacon : String} {contract : ContractAbstraction E}
    {validated : ValidatedImplementation E} {h h' : ToolkitHistory E}
    (c : BeaconUpgradeCleared codec resolved beaconAddress contract beacon validated h)
    (hh : h <:+ h') :
    BeaconUpgradeCleared codec resolved beaconAddress contract beacon validated h' := by
  obtain ⟨name, hname, hvalidated⟩ := c.judged
  obtain ⟨implementation, layout, hread, hlayout, hcompatible⟩ := c.compared
  exact {
    target := c.target
    judged := ⟨name, hname, hvalidated.later hh⟩
    compared := ⟨implementation, layout, hread.later hh, hlayout.later hh, hcompatible.later hh⟩ }

def BeaconUpgradeSpends (codec : AddressCodec) (resolved : ResolvedForProxyOps E)
    (beaconAddress : String) (contract : ContractAbstraction E) (h : ToolkitHistory E)
    (op : ToolkitOp E) : Prop :=
  ∃ beacon validated,
    BeaconUpgradeCleared codec resolved beaconAddress contract beacon validated h ∧
    ∀ request, op = .send request → sendCount h = 0 ∧ ∃ implementation,
      Answered h (.fetchSettles validated resolved) implementation ∧
      request = upgradeBeaconRequest beacon implementation

/-- Since `sent`, the beacon answered an implementation that is the one
reported. -/
def BeaconUpgradeObserved (codec : AddressCodec) (sent h : ToolkitHistory E)
    (address implementation : String) : Prop :=
  ∃ observed, AnsweredSince sent h (.readBeaconImplementation address)
    (.implementation observed) ∧ isAlreadyCurrent codec observed implementation = .ok true

def BeaconUpgradeDone (codec : AddressCodec) (h : ToolkitHistory E) (result : UpgradedProxy) :
    Prop :=
  ∃ before request reply,
    BeaconUpgradeObserved codec (⟨.send request, .ok reply⟩ :: before) h result.address
      result.implementation

section
variable {codec : AddressCodec} {wildcard : Bool} {resolved : ResolvedForProxyOps E}
  {beaconAddress beacon : String} {contract : ContractAbstraction E}
  {validated : ValidatedImplementation E}

theorem requireBeacon_wp :
    wp .free (spendingOnly P) (requireBeacon (anyToolkit (E := E) codec wildcard) beacon)
      (fun o h' => Unsent h h' ∧ ∀ implementation, o = .ok implementation →
        AnsweredSince h h' (.readBeaconImplementation beacon) (.implementation implementation))
      h := by
  unfold requireBeacon
  refine wp.askUnspent (.refl h) rfl (fun _ _ stay => ⟨stay, error_returns⟩) fun read stay => ?_
  cases read with
  | implementation implementation =>
    refine ⟨stay, ?_⟩
    rintro _ ⟨⟩
    exact .head List.suffix_rfl
  | noCodeAtBeacon => exact ⟨stay, error_returns⟩
  | notABeacon => exact ⟨stay, error_returns⟩

theorem confirmOrRefuse_wp {hash : String} :
    wp .free (spendingOnly P) (confirmOrRefuse (anyToolkit (E := E) codec wildcard) hash none)
      (fun _ h' => Unsent h h') h := by
  unfold confirmOrRefuse
  refine wp.askUnspent (.refl h) rfl (fun _ _ stay => stay) fun verdict stay => ?_
  cases verdict <;> exact stay

theorem settleUpgradedBeacon_wp {implementation : String} {writeBack : WriteBack} :
    wp .free (spendingOnly P)
      (settleUpgradedBeacon (anyToolkit (E := E) codec wildcard) beacon implementation writeBack)
      (fun o h' => ∀ out, o = .ok out → BeaconUpgradeObserved codec h h' beacon out.2) h := by
  have failed : ∀ (e : Failure) (h' : ToolkitHistory E), ∀ out,
      (.error e : Except Failure (WriteBack × String)) = .ok out →
        BeaconUpgradeObserved codec h h' beacon out.2 :=
    fun e h' => error_returns
  unfold settleUpgradedBeacon
  simp only [Script.bind_eq, Script.pure_eq]
  refine wp.bind confirmOrRefuse_wp ?_ fun e h' _ => failed e h'
  intro _ h₁ stay₁
  refine wp.bind requireBeacon_wp ?_ fun e h' _ => failed e h'
  rintro observed h₂ ⟨stay₂, hread⟩
  obtain ⟨h₃, hsince, hread⟩ := hread observed rfl
  refine wp.ofExcept_bind (fun current hcurrent => ?_) fun e _ => failed e _
  refine wp.ofExcept_bind (fun _ hrefuse => ?_) fun e _ => failed e _
  have hcurrent' : isAlreadyCurrent codec observed implementation = .ok true := by
    cases current with
    | true => exact hcurrent
    | false => cases hrefuse
  rintro out ⟨⟩
  exact ⟨observed, ⟨h₃, stay₁.1.trans hsince, hread⟩, hcurrent'⟩

theorem upgradeBeaconStep_wp (hc : ∀ h', Unsent h h' →
      BeaconUpgradeCleared codec resolved beaconAddress contract beacon validated h')
    (h0 : sendCount h = 0) :
    wp .free (spendingOnly (BeaconUpgradeSpends codec resolved beaconAddress contract))
      (upgradeBeaconStep ⟨anyToolkit codec wildcard, resolved⟩ contract validated beacon)
      (fun o h' => ∀ out, o = .ok out → ∃ before request reply,
        BeaconUpgradeObserved codec (⟨.send request, .ok reply⟩ :: before) h' beacon out.2) h := by
  unfold upgradeBeaconStep
  simp only [Script.bind_eq]
  apply wp.bind (fetchOrDeployThrough_wp fun h' stay => ⟨beacon, validated, hc h' stay, nofun⟩) ?_
    fun e _ _ => error_returns
  rintro fetched h₁ ⟨stay₁, hfetched⟩
  have hsettled := hfetched fetched rfl
  have hguard : ∀ h', Unsent h₁ h' → BeaconUpgradeSpends codec resolved beaconAddress contract h'
      (.send (upgradeBeaconRequest beacon fetched.address)) := by
    intro h' stay
    refine ⟨beacon, validated, hc h' (stay₁.trans stay), ?_⟩
    rintro request ⟨⟩
    exact ⟨(stay₁.trans stay).2.trans h0, fetched.address, hsettled.later stay.1, rfl⟩
  apply wp.bind (callThroughFacade_wp hguard) ?_ fun e _ _ => error_returns
  intro writeBack h' hsent
  obtain ⟨before, reply, rfl⟩ := hsent writeBack rfl
  refine wp_mono (fun o h' hdone out ho => ?_) settleUpgradedBeacon_wp
  exact ⟨before, _, reply, hdone out ho⟩

theorem runUpgradeBeacon_wp :
    wp .free (spendingOnly (BeaconUpgradeSpends codec resolved beaconAddress contract))
      (runUpgradeBeacon (E := E) ⟨anyToolkit codec wildcard, resolved⟩ beaconAddress contract)
      (fun o h' => ∀ result, o = .ok result → BeaconUpgradeDone codec h' result) [] := by
  have failed : ∀ (e : Failure) (h' : ToolkitHistory E), ∀ result,
      (.error e : Except Failure UpgradedProxy) = .ok result → BeaconUpgradeDone codec h' result :=
    fun e h' => error_returns
  unfold runUpgradeBeacon
  simp only [Script.bind_eq, Script.pure_eq]
  refine wp.ofExcept_bind (fun beacon hbeacon => ?_) fun e _ => failed e _
  refine wp.bind requireBeacon_wp ?_ fun e h' _ => failed e h'
  rintro implementation h₁ ⟨stay₁, hread⟩
  have hread := (hread implementation rfl).answered
  refine wp.ofExcept_bind (fun name hname => ?_) fun e _ => failed e _
  have failedAt : ∀ (e : Failure) (h' : ToolkitHistory E), Unsent h₁ h' → ∀ result,
      (.error e : Except Failure UpgradedProxy) = .ok result → BeaconUpgradeDone codec h' result :=
    fun e h' _ => failed e h'
  refine wp.askUnspent (.refl h₁) rfl failedAt fun validated stay => ?_
  refine wp.askUnspent stay rfl failedAt fun layout stay => ?_
  refine wp.askUnspent stay rfl failedAt fun _ stay => ?_
  refine wp.askUnspent stay rfl failedAt fun _ stay₂ => ?_
  have hc : ∀ h', Unsent _ h' →
      BeaconUpgradeCleared codec resolved beaconAddress contract beacon validated h' :=
    fun h' stay' => BeaconUpgradeCleared.later {
      target := hbeacon
      judged := ⟨name, hname, by simp [Answered]⟩
      compared := ⟨implementation, layout, hread.later stay₂.1, by simp [Answered],
        by simp [Answered]⟩ } stay'.1
  apply wp.bind (R := fun o h' => ∀ out, o = .ok out → ∃ before request reply,
    BeaconUpgradeObserved codec (⟨.send request, .ok reply⟩ :: before) h' beacon out.2)
    ?_ ?_ fun e h' _ => failed e h'
  · refine wp.askUnspent (.refl _) rfl (fun _ _ _ => error_returns) fun _ stay₃ => ?_
    apply restoringWriteBackOnFailure_wp anyEntry_asks unspent_moves
    · intro h₂ stay₄
      have stay := stay₃.trans stay₄
      apply upgradeBeaconStep_wp fun h' stay' => hc _ (stay.trans stay')
      exact ((stay₁.trans stay₂).trans stay).2
    · exact fun _ _ _ _ _ => error_returns
  · rintro ⟨writeBack, implementation⟩ h₂ hstep
    obtain ⟨before, request, reply, observed, hsince, hcurrent⟩ := hstep _ rfl
    refine wp.askFree nofun (fun handle => ?_) fun e => failed e _
    refine wp.ofExcept_bind (fun _ _ => ?_) fun e _ => failed e _
    refine wp.ofExcept_bind (fun _ _ => ?_) fun e _ => failed e _
    rintro result ⟨⟩
    exact ⟨before, request, reply, observed, hsince.later (List.suffix_cons ..), hcurrent⟩

end

-- ---------------------------------------------------------------------------
-- Every run
-- ---------------------------------------------------------------------------

/-- The law over the runs of one upgrade: `spends` wherever the host deploys or
a transaction is sent, one transaction at most, `done` on success. -/
structure UpgradeOrdered (x : Task (toolkitEffects E) UpgradedProxy)
    (spends : ToolkitHistory E → ToolkitOp E → Prop)
    (done : ToolkitHistory E → UpgradedProxy → Prop) : Prop where
  cleared : ∀ op next h, Script.Reaches .free (x, []) (.call op next, h) →
    ToolkitOp.spends op → spends h op
  once : ∀ y h, Script.Reaches .free (x, []) (y, h) → sendCount h ≤ 1
  observed : ∀ result h, Script.Reaches .free (x, []) (.pure result, h) → done h result

theorem UpgradeOrdered.of_wp {x : Task (toolkitEffects E) UpgradedProxy}
    {done : ToolkitHistory E → UpgradedProxy → Prop}
    (h : wp .free (spendingOnly P) x (fun o h' => ∀ result, o = .ok result → done h' result) [])
    (first : ∀ h op, P h op → ToolkitOp.sends op = true → sendCount h = 0) :
    UpgradeOrdered x P done where
  cleared _ _ _ hr hop := h.calls hr hop
  once _ _ hr := by
    refine h.atMost (fun h' op hP hsends => ?_) (Nat.zero_le 1) hr
    have hspends : ToolkitOp.spends op = true := by
      cases op <;> first | rfl | cases hsends
    exact Nat.lt_one_iff.mpr (first h' op (hP hspends) hsends)
  observed result _ hr := h.returns hr result rfl

theorem upgrades_ordered (codec : AddressCodec) (wildcard : Bool) (resolved : ResolvedForProxyOps E)
    (target : String) (contract : ContractAbstraction E) :
    UpgradeOrdered (runUpgradeProxy ⟨anyToolkit codec wildcard, resolved⟩ target contract)
      (ProxyUpgradeSpends codec resolved target contract) (ProxyUpgradeDone codec) ∧
    UpgradeOrdered (runUpgradeBeacon ⟨anyToolkit codec wildcard, resolved⟩ target contract)
      (BeaconUpgradeSpends codec resolved target contract) (BeaconUpgradeDone codec) := by
  constructor
  · apply UpgradeOrdered.of_wp runUpgradeProxy_wp
    rintro h op ⟨plan, -, hsend⟩ hop
    cases op with
    | send request => exact (hsend request rfl).1
    | _ => cases hop
  · apply UpgradeOrdered.of_wp runUpgradeBeacon_wp
    rintro h op ⟨beacon, validated, -, hsend⟩ hop
    cases op with
    | send request => exact (hsend request rfl).1
    | _ => cases hop

end

end TronUpgrades.Tronbox
