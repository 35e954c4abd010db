import TronUpgrades.Address.Identity
import TronUpgrades.Chain.ProxySlots
import TronUpgrades.Tronbox.Runs

/-!
# Who owns an admin contract

The toolkit decodes a reply to `owner()` with a shape test of its own, beside
the probe that judges the same reply. They agree on an owner word, on zeros and
on what is too short; `ownerDecoders_agree_iff` says that they agree on nothing
else, and what a transfer of ownership can rely on.
-/

namespace TronUpgrades.Tronbox

open Effects Address Chain Text

-- ---------------------------------------------------------------------------
-- Replies
-- ---------------------------------------------------------------------------

/-- A word of 32 bytes that is not zero and holds this owner, in canonical
form, in its last twenty. -/
def OwnerWord (codec : AddressCodec) (data owner : String) : Prop :=
  isEmptySlotWord data = false ∧
    ∃ body : AddressBody, slotToAddress data = .ok body.lowerHex ∧ owner = body.eip55 codec

/-- What the toolkit makes of a reply agrees with the probe's verdict on it. -/
structure OwnerDecodersAgree (codec : AddressCodec) (data : String) (probe : Bool) : Prop where
  owner : probe = true → isEmptySlotWord data = false →
    ∃ owner, OwnerWord codec data owner ∧ ownerOfWord codec (some data) = .ok (some owner)
  zero : probe = true → isEmptySlotWord data = true → ownerOfWord codec (some data) = .ok none
  other : probe = false → ownerOfWord codec (some data) = .ok none

/-- The spelling is in one case, or the checksum it claims is its own. -/
def KeepsChecksum (codec : AddressCodec) (digits : List Char) : Prop :=
  assertsChecksum digits = true → .ofList ('0' :: 'x' :: digits) = checksummed codec digits

/-- Zeros, or fewer digits than an address has, or an owner word whose owner
claims no checksum but its own. -/
def OwnerReply (codec : AddressCodec) (data : String) : Prop :=
  let digits := stripHexPrefix data.toList
  isZeros digits = true ∨ digits.length < evmHexDigits ∨
    looksLikeSlotAddressWord data = true ∧ KeepsChecksum codec (digits.drop addressPadHexChars)

section
variable {codec : AddressCodec} {data : String} {digits : List Char}

theorem map_some_ok {ε α : Type} {x : Except ε α} {a : α} : x.map some = .ok (some a) ↔ x = .ok a := by
  cases x <;> simp [Except.map]

theorem map_error {ε α β : Type} {x : Except ε α} {f : α → β} {e : ε} (h : x.map f = .error e) :
    x = .error e := by
  cases x with
  | error e' =>
    cases h
    rfl
  | ok a => cases h

theorem map_some_ne_none {ε α : Type} {x : Except ε α} : x.map some ≠ .ok none := by
  cases x <;> simp [Except.map]

theorem ownerOfWord_none (codec : AddressCodec) (hdata : data.toList = '0' :: 'x' :: digits)
    (h : digits.length < evmHexDigits ∨ isZeros digits = true) :
    ownerOfWord codec (some data) = .ok none := by
  simp only [ownerOfWord, hdata, stripLowerHexPrefix]
  exact if_pos h

theorem ownerOfWord_last (hdata : data.toList = '0' :: 'x' :: digits)
    (hlength : ¬ digits.length < evmHexDigits) (hzeros : ¬ isZeros digits = true) :
    ownerOfWord codec (some data) = (canonicalizeAddress codec
      (.ofList ('0' :: 'x' :: digits.drop (digits.length - evmHexDigits)))).map some := by
  simp only [ownerOfWord, hdata, stripLowerHexPrefix]
  exact if_neg (not_or.mpr ⟨hlength, hzeros⟩)

/-- Forty digits are an address unless they claim a checksum that is not theirs. -/
theorem canonicalizeAddress_digits (codec : AddressCodec) (hhex : digits.all isHexDigit = true)
    (hlength : digits.length = evmHexDigits) (owner : String) :
    canonicalizeAddress codec (.ofList ('0' :: 'x' :: digits)) = .ok owner ↔
      KeepsChecksum codec digits ∧ owner = checksummed codec digits := by
  have htail : evmTailOf codec (.ofList ('0' :: 'x' :: digits)) = .ok digits :=
    evmTailOf_evmHex hhex hlength
  rw [canonicalizeAddress_eq_ok]
  constructor
  · intro h
    obtain ⟨tail, htail', howner, hkeeps⟩ := mintFrom_ok h
    cases htail.symm.trans htail'
    exact ⟨fun hclaims => (hkeeps hclaims).trans howner, howner⟩
  · rintro ⟨hkeeps, rfl⟩
    exact mintFrom_of_tail htail hkeeps

theorem isEmptySlotWord_digits (hdata : data.toList = '0' :: 'x' :: digits)
    (hhex : digits.all isHexDigit = true) : isEmptySlotWord data = isZeros digits := by
  simp [isEmptySlotWord, hdata, stripHexPrefix, hhex]

theorem looksLikeSlotAddressWord_length (hdata : data.toList = '0' :: 'x' :: digits)
    (hword : looksLikeSlotAddressWord data = true) : digits.length = slotWordHexChars := by
  simp only [looksLikeSlotAddressWord, hdata, stripHexPrefix, Bool.and_eq_true, beq_iff_eq] at hword
  exact hword.1.1

/-- Of an owner word the last forty digits are read. -/
theorem ownerOfWord_word (codec : AddressCodec) (hdata : data.toList = '0' :: 'x' :: digits)
    (hhex : digits.all isHexDigit = true) (hword : looksLikeSlotAddressWord data = true)
    (hzeros : ¬ isZeros digits = true) :
    ∃ body : AddressBody, slotToAddress data = .ok body.lowerHex ∧ ∀ owner,
      ownerOfWord codec (some data) = .ok (some owner) ↔
        KeepsChecksum codec (digits.drop addressPadHexChars) ∧ owner = body.eip55 codec := by
  have hlength := looksLikeSlotAddressWord_length hdata hword
  have hlast : ¬ digits.length < evmHexDigits := by
    rw [hlength]
    decide
  have htailHex : (digits.drop addressPadHexChars).all isHexDigit = true :=
    List.all_eq_true.mpr fun c hc => List.all_eq_true.mp hhex c (List.mem_of_mem_drop hc)
  have htailLength : (digits.drop addressPadHexChars).length = evmHexDigits := by
    rw [List.length_drop, hlength]
    rfl
  let body := AddressBody.ofTail _ htailHex htailLength
  refine ⟨body, slotToAddress_iff.mpr ⟨hword, by rw [hdata]; rfl⟩, fun owner => ?_⟩
  have hminted := canonicalizeAddress_digits codec htailHex htailLength owner
  rw [checksummed_lower body rfl] at hminted
  rw [← hminted, ownerOfWord_last hdata hlast hzeros, hlength]
  exact map_some_ok

/-- The two readers of a reply agree exactly on these. -/
theorem ownerDecoders_agree (hhex : isHexData data = true) :
    OwnerDecodersAgree codec data (looksLikeSlotAddressWord data) ↔ OwnerReply codec data := by
  obtain ⟨digits, hdata, hhex⟩ := isHexData_iff.mp hhex
  have hempty := isEmptySlotWord_digits hdata hhex
  unfold OwnerReply
  rw [hdata, stripHexPrefix_cons]
  by_cases hzeros : isZeros digits = true
  · have hnone := ownerOfWord_none codec hdata (.inr hzeros)
    refine ⟨fun _ => .inl hzeros, fun _ => ⟨fun _ h => ?_, fun _ _ => hnone, fun _ => hnone⟩⟩
    cases (hempty.trans hzeros).symm.trans h
  by_cases hlength : digits.length < evmHexDigits
  · have hnone := ownerOfWord_none codec hdata (.inl hlength)
    refine ⟨fun _ => .inr (.inl hlength), fun _ => ⟨fun hword => ?_, fun _ _ => hnone, fun _ => hnone⟩⟩
    rw [looksLikeSlotAddressWord_length hdata hword] at hlength
    exact absurd hlength (by decide)
  simp only [hzeros, hlength, false_or, Bool.false_eq_true]
  have hfull : isEmptySlotWord data = false := hempty.trans (by simpa using hzeros)
  cases hword : looksLikeSlotAddressWord data with
  | true =>
    obtain ⟨body, hslot, howner⟩ := ownerOfWord_word codec hdata hhex hword hzeros
    constructor
    · intro h
      obtain ⟨owner, -, hread⟩ := h.owner rfl hfull
      exact ⟨rfl, ((howner owner).mp hread).1⟩
    · rintro ⟨-, hkeeps⟩
      have hread := (howner _).mpr ⟨hkeeps, rfl⟩
      refine ⟨fun _ _ => ⟨_, ⟨hfull, body, hslot, rfl⟩, hread⟩, fun _ hzero => ?_, by rintro ⟨⟩⟩
      cases hfull.symm.trans hzero
  | false =>
    refine ⟨fun h => ?_, by rintro ⟨⟨⟩, -⟩⟩
    have hread := h.other rfl
    rw [ownerOfWord_last hdata hlength hzeros] at hread
    exact absurd hread map_some_ne_none

theorem OwnerDecodersAgree.word {probe : Bool} (h : OwnerDecodersAgree codec data probe)
    {owner : String} (hread : ownerOfWord codec (some data) = .ok (some owner)) :
    OwnerWord codec data owner := by
  cases probe with
  | false => cases (h.other rfl).symm.trans hread
  | true =>
    cases hempty : isEmptySlotWord data with
    | true => cases (h.zero rfl hempty).symm.trans hread
    | false =>
      obtain ⟨_, hword, hread'⟩ := h.owner rfl hempty
      cases hread'.symm.trans hread
      exact hword

end

-- ---------------------------------------------------------------------------
-- Transfers
-- ---------------------------------------------------------------------------

/-- The account an error names as the holder. -/
def holder? : Failure → Option String
  | .authorityAlreadyTransferred _ owner _ => some owner
  | _ => none

section
variable {E : Engine}

/-- A reply to `owner()` is hex and one that the decoders agree on; what rejects
is not the operation itself. -/
structure OwnerEvent (codec : AddressCodec) (event : Event (hostEffects E) Failure) : Prop where
  reply : ∀ admin data, event = ⟨.callOwner admin, .ok (some data)⟩ →
    isHexData data = true ∧ OwnerReply codec data
  error : ∀ e, event.reply = .error e → holder? e = none

/-- An owner word with this owner has been read since. -/
def OwnerReadSince (codec : AddressCodec) (admin : String) (before h : HostHistory E)
    (owner : String) : Prop :=
  ∃ data, AnsweredSince before h (.callOwner admin) (some data) ∧ OwnerWord codec data owner

def transferRequest (admin newOwner : String) : FacadeRequest :=
  ⟨"ProxyAdmin", admin, "transferOwnership", [.str newOwner]⟩

/-- Whom a transfer takes for the present owner, and for the new one, is in an
owner word that the admin contract answered. -/
structure OwnersKnown (codec : AddressCodec) (admin : String) (h : HostHistory E)
    (o : Except Failure AuthorityTransfer) : Prop where
  previous : ∀ transfer owner, o = .ok transfer → transfer.previousOwner = some owner →
    OwnerReadSince codec admin [] h owner
  held : ∀ transfer, o = .ok transfer → transfer.alreadyHeld = true →
    OwnerReadSince codec admin [] h transfer.newOwner
  moved : ∀ transfer, o = .ok transfer → transfer.alreadyHeld = false →
    ∃ before : HostHistory E, ∃ reply,
      Answered before (.send (transferRequest admin transfer.newOwner)) reply ∧
      OwnerReadSince codec admin before h transfer.newOwner
  refused : ∀ e owner, o = .error e → holder? e = some owner →
    OwnerReadSince codec admin [] h owner

/-- From this history on, where the surroundings answer so; no failure names a
holder. -/
abbrev LearnsOwner (codec : AddressCodec) (h : HostHistory E) (x : HostTask E α)
    (C : α → HostHistory E → Prop) : Prop :=
  Finds (fun _ => OwnerEvent codec) (fun e => holder? e = none) h x C

variable {env : Environment} {h : HostHistory E}

theorem canonicalizeAddress_holder {codec : AddressCodec} {input : String} {e : Failure}
    (h : canonicalizeAddress codec input = .error e) : holder? e = none := by
  unfold canonicalizeAddress at h
  cases hmint : mintFrom codec input <;> rw [hmint] at h <;> cases h
  rfl

theorem ownerOfWord_holder {codec : AddressCodec} {word : Option String} {e : Failure}
    (h : ownerOfWord codec word = .error e) : holder? e = none := by
  unfold ownerOfWord at h
  split at h
  · cases h
  · simp only at h
    split at h
    · cases h
    · obtain hminted := map_error h
      exact canonicalizeAddress_holder hminted

theorem refuseIf_error {condition : Prop} [Decidable condition] {error e : Failure}
    (h : refuseIf condition error = .error e) : e = error := by
  unfold refuseIf at h
  split at h <;> cases h
  rfl

theorem ownerEvent_holder {codec : AddressCodec} (_ : HostHistory E) (op : HostOp E) (e : Failure)
    (h : OwnerEvent codec ⟨op, .error e⟩) : holder? e = none :=
  h.error e rfl

theorem ownerOf_learns (admin : String) :
    LearnsOwner env.codec h ((productionToolkit env).ownerOf admin) fun read t =>
      ∀ owner, read = some owner → OwnerReadSince env.codec admin h t owner := by
  refine Finds.ask ownerEvent_holder fun word hword => ?_
  refine .ofExcept (fun _ he => ownerOfWord_holder he) fun read hread owner howner => ?_
  subst howner
  cases word with
  | none => cases hread
  | some data =>
    obtain ⟨hhex, hreply⟩ := hword.reply admin data rfl
    exact ⟨data, .head List.suffix_rfl, ((ownerDecoders_agree hhex).mpr hreply).word hread⟩

theorem requireProxyArtifact_raises (name : String) :
    (requireProxyArtifact (E := E) name).Raises fun e => holder? e = none := by
  refine Script.Raises.bind (Script.Raises.catching .perform fun _ _ => rfl) fun resolution => ?_
  cases resolution with
  | unique contract => trivial
  | ambiguous contract candidates =>
    dsimp only
    split
    · trivial
    · rfl
  | indeterminate contract => rfl

theorem confirmUpgrade_raises (hash : String) :
    (confirmUpgrade (productionToolkit (E := E) env) hash).Raises fun e => holder? e = none := by
  refine Script.Raises.bind ?_ fun verdict => ?_
  · refine Script.Raises.bind (Script.Raises.attempt .perform) fun info => ?_
    cases info <;> trivial
  · cases verdict with
    | confirmedSuccessful hash => trivial
    | reverted verdict => rfl
    | indeterminate verdict => rfl

/-- A facade call that returns has sent its request. -/
theorem callThroughFacade_sent (codec : AddressCodec) (request : FacadeRequest) :
    LearnsOwner codec h (callThroughFacade (hostFacade (E := E)) request) fun _ t =>
      ∃ reply, Answered t (.send request) reply := by
  refine Finds.bind (.raises ownerEvent_holder (requireProxyArtifact_raises _)) fun facade t _ _ => ?_
  dsimp only
  split
  · exact .throw rfl
  refine Finds.ask ownerEvent_holder fun attached _ => ?_
  dsimp only
  split
  · exact .throw rfl
  refine Finds.ask ownerEvent_holder fun reply _ => ?_
  dsimp only
  split
  · exact .pure ⟨reply, .head⟩
  · exact .throw rfl

theorem settleTransfer_learns (proxy admin owner : String) (writeBack : WriteBack) :
    LearnsOwner env.codec h (settleTransfer (productionToolkit env) proxy admin owner writeBack) fun _ t =>
      OwnerReadSince env.codec admin h t owner := by
  refine Finds.bind (.raises ownerEvent_holder (confirmUpgrade_raises _)) fun _ t hsuffix _ => ?_
  refine (ownerOf_learns admin).bind fun observed t' _ hobserved => ?_
  refine .ofExcept_bind (fun e he => ?_) fun _ hsame => ?_
  · rw [refuseIf_error he]
    rfl
  · have hsame : observed = some owner := by simpa using refuseIf_ok hsame
    obtain ⟨data, hanswered, hword⟩ := hobserved owner hsame
    exact .pure ⟨data, hanswered.earlier hsuffix, hword⟩

/-- The owner it takes for the new one was read after its transaction. -/
theorem transferStep_learns (env : Environment) (proxy admin owner : String) :
    LearnsOwner env.codec h (transferStep (productionToolkit env) proxy admin owner) fun _ t =>
      ∃ before : HostHistory E, ∃ reply, Answered before (.send (transferRequest admin owner)) reply ∧
        OwnerReadSince env.codec admin before t owner := by
  refine (callThroughFacade_sent env.codec _).bind fun writeBack before _ hsent => ?_
  obtain ⟨reply, hsent⟩ := hsent
  exact (settleTransfer_learns proxy admin owner writeBack).mono (fun _ he => he)
    fun _ _ _ hread => ⟨before, reply, hsent, hread⟩

theorem resolveEffectiveSender_holder {codec : AddressCodec} {configured : Option String}
    {e : Failure} (h : resolveEffectiveSender codec configured = .error e) : holder? e = none := by
  cases configured with
  | none => cases h
  | some address => exact canonicalizeAddress_holder (map_error h)

/-- The holder that is named is the present owner. -/
theorem assertHolds_holder {codec : AddressCodec} {proxy target owner : String}
    {current : Option String} {sender : EffectiveSender} {e : Failure}
    (h : assertHolds codec proxy target current sender = .error e) (hholder : holder? e = some owner) :
    current = some owner := by
  unfold assertHolds at h
  split at h
  next owner' address =>
    cases hcanonical : canonicalizeAddress codec address with
    | error e' =>
      rw [hcanonical] at h
      cases h
      cases (canonicalizeAddress_holder hcanonical).symm.trans hholder
    | ok canonical =>
      rw [hcanonical] at h
      cases refuseIf_error h
      exact hholder
  next => cases h

theorem transactionIdentity_holder {hash : Option String} {operation : String} {e : Failure}
    (h : transactionIdentity hash operation = .error e) : holder? e = none := by
  unfold transactionIdentity at h
  split at h
  · split at h
    · cases h
      rfl
    · cases h
  · cases h
    rfl

theorem sendTransfer_learns (proxy admin owner : String) (current : Option String) :
    Finds (fun _ => OwnerEvent env.codec) (fun e => ∀ owner, holder? e = some owner → current = some owner)
      h (sendTransfer (productionToolkit (E := E) env) proxy admin owner current) fun transfer t =>
        transfer.previousOwner = current ∧ transfer.alreadyHeld = false ∧
          ∃ before : HostHistory E, ∃ reply,
            Answered before (.send (transferRequest admin transfer.newOwner)) reply ∧
              OwnerReadSince env.codec admin before t transfer.newOwner := by
  have hnames : ∀ e : Failure, holder? e = none →
      ∀ owner, holder? e = some owner → current = some owner := by
    intro e hnone owner hsome
    cases hnone.symm.trans hsome
  refine .ofExcept_bind (fun e he => hnames e (resolveEffectiveSender_holder he)) fun sender _ => ?_
  refine .ofExcept_bind (fun e he owner => assertHolds_holder he) fun _ _ => ?_
  refine .ofExcept_bind (fun e he => hnames e (by rw [refuseIf_error he]; rfl)) fun _ _ => ?_
  have hqueued : Finds (fun _ => OwnerEvent env.codec)
      (fun e => ∀ owner, holder? e = some owner → current = some owner) h
      ((productionToolkit (E := E) env).queue (transferStep (productionToolkit env) proxy admin owner))
      fun _ t => ∃ before : HostHistory E, ∃ reply,
        Answered before (.send (transferRequest admin owner)) reply ∧
          OwnerReadSince env.codec admin before t owner :=
    Finds.ask (fun t op e he => hnames e (ownerEvent_holder t op e he)) fun _ _ =>
      (transferStep_learns env proxy admin owner).mono hnames fun _ _ _ hmoved => hmoved
  refine hqueued.bind fun outcome t _ hmoved => ?_
  exact .ofExcept_bind (fun e he => hnames e (transactionIdentity_holder he)) fun _ _ =>
    .pure ⟨rfl, rfl, hmoved⟩

theorem adminOf_holder {proxy : String} {slots : ProxySlotsRead} {e : Failure}
    (h : adminOf proxy slots = .error e) : holder? e = none := by
  unfold adminOf at h
  split at h <;> cases h
  rfl

/-- Whatever the surroundings answer, as long as the decoders agree on it. -/
theorem runTransferProxyAdminOwnership_learns (resolved : ResolvedForProxyOps E) (proxy owner : String) :
    wp (.recorded fun _ => OwnerEvent env.codec) (fun _ _ => True)
      (runTransferProxyAdminOwnership ⟨productionToolkit env, resolved⟩ proxy owner)
      (fun o t => ∃ admin, OwnersKnown env.codec admin t o) [] := by
  have failed : ∀ (e : Failure) (t : HostHistory E), holder? e = none →
      ∃ admin, OwnersKnown env.codec admin t (.error e) := by
    intro e t hnone
    refine ⟨"", by rintro _ _ ⟨⟩, by rintro _ ⟨⟩, by rintro _ ⟨⟩, ?_⟩
    rintro _ owner ⟨⟩ hsome
    cases hnone.symm.trans hsome
  refine wp.ofExcept_bind (fun proxyAddress _ => ?_) fun e he =>
    failed e _ (canonicalizeAddress_holder he)
  refine wp.ofExcept_bind (fun targetOwner _ => ?_) fun e he =>
    failed e _ (canonicalizeAddress_holder he)
  refine wp.ask trivial (fun slots _ => ?_) fun e he => failed e _ (he.error e rfl)
  refine wp.ofExcept_bind (fun slot _ => ?_) fun e he => failed e _ (adminOf_holder he)
  refine wp.ofExcept_bind (fun admin _ => ?_) fun e he => failed e _ (canonicalizeAddress_holder he)
  refine wp.bind (ownerOf_learns admin) ?_ ?_
  rotate_left
  · rintro e t ⟨-, herror, -⟩
    exact failed e t (herror e rfl)
  rintro current t ⟨-, -, hread⟩
  have hpresent : ∀ t' owner, t <:+ t' → current = some owner →
      OwnerReadSince env.codec admin [] t' owner := by
    intro t' owner hsuffix howner
    obtain ⟨data, hanswered, hword⟩ := hread current rfl owner howner
    exact ⟨data, (hanswered.later hsuffix).earlier List.nil_suffix, hword⟩
  dsimp only
  split
  next hheld =>
    refine ⟨admin, ?_, ?_, ?_, by rintro _ _ ⟨⟩⟩
    · rintro _ owner ⟨⟩ howner
      exact hpresent t owner List.suffix_rfl howner
    · rintro _ ⟨⟩ -
      exact hpresent t targetOwner List.suffix_rfl hheld
    · rintro _ ⟨⟩ ⟨⟩
  next =>
    refine wp_mono ?_ (sendTransfer_learns proxyAddress admin targetOwner current)
    rintro o t' ⟨hsuffix, herror, hok⟩
    refine ⟨admin, ?_, ?_, ?_, ?_⟩
    · rintro transfer owner rfl howner
      obtain ⟨hcurrent, -, -⟩ := hok transfer rfl
      exact hpresent t' owner hsuffix (hcurrent.symm.trans howner)
    · rintro transfer rfl hheld
      obtain ⟨-, hmoved, -⟩ := hok transfer rfl
      cases hmoved.symm.trans hheld
    · rintro transfer rfl -
      exact (hok transfer rfl).2.2
    · rintro e owner rfl hholder
      exact hpresent t' owner hsuffix (herror e rfl owner hholder)

/-- The two readers of a reply agree exactly on owner words, on zeros and on
what is too short; where every reply is one of these, a transfer takes no other
for an owner. -/
theorem ownerDecoders_agree_iff (env : Environment) :
    (∀ (channel : RpcChannel) (id : Nat) (admin data : String),
      channel.tvmCallOptional id admin ownerSelector = .ok (.answered data) →
      ∃ probe, channel.looksLikeProxyAdmin id admin = .ok probe ∧
        (OwnerDecodersAgree env.codec data probe ↔ OwnerReply env.codec data)) ∧
    ∀ (resolved : ResolvedForProxyOps E) (proxy owner : String) (o : Except Failure AuthorityTransfer)
      (h : HostHistory E),
      Script.Reaches (.recorded fun _ => OwnerEvent env.codec)
        (runTransferProxyAdminOwnership ⟨productionToolkit env, resolved⟩ proxy owner, [])
        (.ofExcept o, h) →
      ∃ admin, OwnersKnown env.codec admin h o := by
  refine ⟨fun channel id admin data hanswered => ?_, fun resolved proxy owner o h hreaches => ?_⟩
  · refine ⟨looksLikeSlotAddressWord data, ?_, ownerDecoders_agree (RpcChannel.tvmCallOptional_hex hanswered)⟩
    rw [RpcChannel.looksLikeProxyAdmin, hanswered]
    rfl
  · exact (runTransferProxyAdminOwnership_learns resolved proxy owner).ends hreaches

end

/-- An owner behind upper bytes that are not zero. -/
def dirtyOwnerWord : String :=
  "0xffffffffffffffffffffffff0000000000000000000000000000000000000011"

def ownerChannel (word : String) : RpcChannel :=
  ⟨"http://127.0.0.1:9090", fun _ _ => .ok (resultBody word)⟩

def ownerAnswer (word : String) (_ : HostHistory sampleEngine) (op : HostOp sampleEngine) :
    Except Failure op.Reply :=
  match op with
  | .readProxySlots _ => .ok (.code none (some "0x0000000000000000000000000000000000000022") none)
  | .callOwner _ => .ok (some word)
  | _ => .error (.error "the host is not asked for this")

/-- The probe refuses the word, and a transfer takes it for a proof that the new
owner holds the authority already. -/
theorem dirtyOwnerWord_believed :
    (ownerChannel dirtyOwnerWord).looksLikeProxyAdmin 0
        "0x0000000000000000000000000000000000000022" = .ok false ∧
      ownerOfWord sampleEnvironment.codec (some dirtyOwnerWord) =
        .ok (some "0x0000000000000000000000000000000000000011") ∧
      ((runTransferProxyAdminOwnership ⟨productionToolkit sampleEnvironment, sampleOptions⟩
        "0x0000000000000000000000000000000000000033"
        "0x0000000000000000000000000000000000000011").run (answering (ownerAnswer dirtyOwnerWord)) []).1 =
          .ok ⟨"0x0000000000000000000000000000000000000033",
            some "0x0000000000000000000000000000000000000011",
            "0x0000000000000000000000000000000000000011", none, true⟩ := by
  refine ⟨rfl, rfl, rfl⟩

def cleanOwnerWord : String :=
  "0x0000000000000000000000000000000000000000000000000000000000000011"

theorem cleanOwner_event (h : HostHistory sampleEngine) (op : HostOp sampleEngine) :
    OwnerEvent sampleEnvironment.codec ⟨op, ownerAnswer cleanOwnerWord h op⟩ := by
  have hreply : OwnerReply sampleEnvironment.codec cleanOwnerWord := by
    refine .inr (.inr ⟨by decide, fun hclaims => ?_⟩)
    exact absurd hclaims (by decide)
  refine ⟨fun admin data heq => ?_, fun e he => ?_⟩
  · cases op <;> cases heq
    exact ⟨by decide, hreply⟩
  · cases op <;> cases he <;> rfl

/-- On an owner word they agree, and the transfer that finds it is held by
whom the word names. -/
theorem cleanOwnerWord_agreed :
    (∃ probe, (ownerChannel cleanOwnerWord).looksLikeProxyAdmin 0
        "0x0000000000000000000000000000000000000022" = .ok probe ∧
      OwnerDecodersAgree sampleEnvironment.codec cleanOwnerWord probe) ∧
    ∃ h admin, OwnersKnown (E := sampleEngine) sampleEnvironment.codec admin h
      (.ok ⟨"0x0000000000000000000000000000000000000033",
        some "0x0000000000000000000000000000000000000011",
        "0x0000000000000000000000000000000000000011", none, true⟩) := by
  have hboth := ownerDecoders_agree_iff (E := sampleEngine) sampleEnvironment
  constructor
  · obtain ⟨probe, hprobe, hagree⟩ := hboth.1 (ownerChannel cleanOwnerWord) 0
      "0x0000000000000000000000000000000000000022" cleanOwnerWord rfl
    have hevent := cleanOwner_event [] (.callOwner "")
    exact ⟨probe, hprobe, hagree.mpr (hevent.reply "" cleanOwnerWord rfl).2⟩
  · exact ⟨_, hboth.2 sampleOptions "0x0000000000000000000000000000000000000033"
      "0x0000000000000000000000000000000000000011" _ _
      (reaches_answering (ownerAnswer cleanOwnerWord) cleanOwner_event _ _)⟩

end TronUpgrades.Tronbox
