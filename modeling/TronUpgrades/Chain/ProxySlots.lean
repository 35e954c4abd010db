import TronUpgrades.Chain.Read

/-!
# The slots of a proxy

The three readers of one slot each, and `readProxySlots` that reads all of them.
`readProxySlots_agrees`: over one storage they tell the same, slot by slot.
-/

namespace TronUpgrades.Chain

open Checks Text

inductive SlotLabel
  | implementation | admin | beacon
  deriving DecidableEq, Repr

def slotLabels : List SlotLabel := [.implementation, .admin, .beacon]

def eip1967Slots : SlotLabel → String
  | .implementation => "0x360894a13ba1a3210667c828492db98dca3e2076cc3735a920a3ca505d382bbc"
  | .admin => "0xb53127684a568b3173ae13b9f8a6016e243e63b6e8ee1178d6a717850b5d6103"
  | .beacon => "0xa3f0ad74e5423aebfd80d3ef4346578335a9a72aeaee59ff6cb3582b35133d50"

/-- There is no legacy slot for a beacon. -/
def legacyEip1967Slots : SlotLabel → Option String
  | .implementation => some "0x7050c9e0f4ca769c69bd3a8ef740bc37934f8e2c036e5a723fd8ee048ed3f8c3"
  | .admin => some "0x10d6a54a4754c8869d6886b5f5d7fbfa5b4522237ea5c60d11bc4e7a1ff9390b"
  | .beacon => none

def slotsFor (label : SlotLabel) : List String :=
  eip1967Slots label :: (legacyEip1967Slots label).toList

/-- A word that is no hex is not empty. -/
def isEmptySlotWord (word : String) : Bool :=
  let digits := stripHexPrefix word.toList
  digits.all isHexDigit && isZeros digits

def zeroSlotWord : String := .ofList ('0' :: 'x' :: List.replicate slotWordHexChars '0')

def zeroChainAddress : String := .ofList ('0' :: 'x' :: List.replicate 40 '0')

/-- What a reader of one slot raises. -/
inductive SlotFailure
  | chain (cause : ChainFailure)
  | implementationNotFound (proxy : String)
  | beaconNotFound (proxy : String)

structure SlotRead where
  word : String
  empty : Bool
  deriving DecidableEq, Repr

/-- What each requested slot holds, where it is not empty. -/
structure FoundSlots where
  implementation : Option String
  admin : Option String
  beacon : Option String
  deriving DecidableEq, Repr

def FoundSlots.set (found : FoundSlots) (label : SlotLabel) (address : Option String) : FoundSlots :=
  match label with
  | .implementation => { found with implementation := address }
  | .admin => { found with admin := address }
  | .beacon => { found with beacon := address }

inductive ProxySlotsRead
  | noCode
  | code (found : FoundSlots)
  deriving DecidableEq, Repr

namespace RpcChannel

variable (channel : RpcChannel)

def getStorageAt (id : Nat) (address slot : String) : Except ChainFailure String := do
  let target ← (toRpcAddress address).mapError .addressUnusable
  let word ← channel.send id "eth_getStorageAt"
    [.string target, .string slot, .string acceptedBlockTag]
  requireResultShape "eth_getStorageAt" word

/-- The first word that is not empty, or the last one read, with the number of
the next request. -/
def readSlotWithFallback (address : String) : Nat → List String → String →
    Except ChainFailure (SlotRead × Nat)
  | id, [], word => .ok (⟨word, true⟩, id)
  | id, slot :: slots, _ => do
    let word ← channel.getStorageAt id address slot
    if !isEmptySlotWord word then return (⟨word, false⟩, id + 1)
    else readSlotWithFallback address (id + 1) slots word

def readSlot (id : Nat) (proxy : String) (label : SlotLabel) :
    Except SlotFailure (SlotRead × Nat) :=
  (channel.readSlotWithFallback proxy id (slotsFor label) "").mapError .chain

def addressOf (read : SlotRead) : Except SlotFailure String :=
  (slotToAddress read.word).mapError fun error => .chain (.slotMalformed error)

def notFound (failure : String → SlotFailure) (proxy : String) : Except SlotFailure String := do
  let target ← (toRpcAddress proxy).mapError fun error => .chain (.addressUnusable error)
  .error (failure target)

def readImplementationAddress (id : Nat) (proxy : String) : Except SlotFailure String := do
  let (read, _) ← channel.readSlot id proxy .implementation
  if read.empty then notFound .implementationNotFound proxy else addressOf read

/-- The zero address for an empty slot. -/
def readAdminAddress (id : Nat) (proxy : String) : Except SlotFailure String := do
  let (read, _) ← channel.readSlot id proxy .admin
  if read.empty then return zeroChainAddress else addressOf read

def readBeaconAddress (id : Nat) (proxy : String) : Except SlotFailure String := do
  let (read, _) ← channel.readSlot id proxy .beacon
  if read.empty then notFound .beaconNotFound proxy else addressOf read

def readRequested (address : String) : Nat → List SlotLabel → FoundSlots →
    Except SlotFailure FoundSlots
  | _, [], found => .ok found
  | id, label :: labels, found => do
    let (read, id) ← channel.readSlot id address label
    let holds ← if read.empty then pure none else (addressOf read).map some
    readRequested address id labels (found.set label holds)

def readProxySlots (id : Nat) (address : String) (slots : List SlotLabel) :
    Except SlotFailure ProxySlotsRead := do
  let code ← (channel.getCode id address).mapError .chain
  if isEmptyCode code then return .noCode
  else
    let found ← channel.readRequested address (id + 1) slots.eraseDups ⟨none, none, none⟩
    return .code found

end RpcChannel

-- ---------------------------------------------------------------------------
-- One storage
-- ---------------------------------------------------------------------------

/-- A contract with code at the address, and what the node answers for each slot
of it, whenever it is asked. -/
structure Stores (channel : RpcChannel) (address : String)
    (reply : String → Except ChainFailure String) : Prop where
  code : ∀ id, ∃ code, channel.getCode id address = .ok code ∧ isEmptyCode code = false
  storage : ∀ id slot, channel.getStorageAt id address slot = reply slot

/-- The slot is read and has nothing in it. -/
def Vacant (reply : String → Except ChainFailure String) (slot : String) : Prop :=
  ∃ word, reply slot = .ok word ∧ isEmptySlotWord word = true

/-- The first slot that is not empty has this word; those behind it have no say. -/
def Occupies (reply : String → Except ChainFailure String) (slots : List String)
    (word : String) : Prop :=
  ∃ slot, UpTo (Vacant reply) slots slot ∧ reply slot = .ok word ∧ isEmptySlotWord word = false

/-- What the slots come to: nothing, an address, or a failure. -/
def settle (reply : String → Except ChainFailure String) : List String →
    Except ChainFailure (Option String)
  | [] => .ok none
  | slot :: slots => do
    let word ← reply slot
    if !isEmptySlotWord word then
      ((slotToAddress word).map some).mapError .slotMalformed
    else settle reply slots

def FoundSlots.get (found : FoundSlots) : SlotLabel → Option String
  | .implementation => found.implementation
  | .admin => found.admin
  | .beacon => found.beacon

namespace RpcChannel

variable (channel : RpcChannel) (id : Nat) (proxy : String)

/-- The reader of the slot. -/
def readLabel : SlotLabel → Except SlotFailure String
  | .implementation => channel.readImplementationAddress id proxy
  | .admin => channel.readAdminAddress id proxy
  | .beacon => channel.readBeaconAddress id proxy

/-- The reader of the slot says, in its own way, that it is empty. -/
def ReportsEmpty (label : SlotLabel) : Prop :=
  match label with
  | .implementation => ∃ target, channel.readLabel id proxy label = .error (.implementationNotFound target)
  | .admin => channel.readLabel id proxy label = .ok zeroChainAddress
  | .beacon => ∃ target, channel.readLabel id proxy label = .error (.beaconNotFound target)

/-- The reader of the slot raises something else. -/
def Raises (label : SlotLabel) : Prop :=
  ∃ failure, channel.readLabel id proxy label = .error failure ∧ ¬ channel.ReportsEmpty id proxy label

/-- The reader of the slot answers this address, for one that is not empty. -/
def Reports (label : SlotLabel) (address : String) : Prop :=
  channel.readLabel id proxy label = .ok address ∧ ¬ channel.ReportsEmpty id proxy label

end RpcChannel

-- ---------------------------------------------------------------------------
-- Words
-- ---------------------------------------------------------------------------

theorem eq_zero_of_toLower {c : Char} (h : isHexDigit c = true) (hc : c.toLower = '0') : c = '0' := by
  have hall : ∀ c ∈ hexDigits, c.toLower = '0' → c = '0' := forall_mem_of_all (by decide)
  exact hall c (mem_hexDigits h) hc

/-- A word that is not empty carries no zero address. -/
theorem slotToAddress_ne_zero {word address : String} (hempty : isEmptySlotWord word = false)
    (h : slotToAddress word = .ok address) : address ≠ zeroChainAddress := by
  rintro rfl
  obtain ⟨hlook, haddress⟩ := slotToAddress_iff.mp h
  simp only [looksLikeSlotAddressWord, Bool.and_eq_true, beq_iff_eq] at hlook
  obtain ⟨⟨-, hhex⟩, hpad⟩ := hlook
  have hlast := (List.cons.inj (List.cons.inj (String.ofList_injective haddress)).2).2
  have hzeros : isZeros (stripHexPrefix word.toList) = true := by
    rw [← List.take_append_drop addressPadHexChars (stripHexPrefix word.toList), isZeros,
      List.all_append, Bool.and_eq_true]
    refine ⟨hpad, List.all_eq_true.mpr fun c hc => ?_⟩
    have hlower : c.toLower ∈ List.replicate 40 '0' := hlast ▸ List.mem_map.mpr ⟨c, hc, rfl⟩
    have hdigit := List.all_eq_true.mp hhex c (List.mem_of_mem_drop hc)
    exact beq_iff_eq.mpr (eq_zero_of_toLower hdigit (List.eq_of_mem_replicate hlower))
  simp [isEmptySlotWord, hhex, hzeros] at hempty

section
variable {reply : String → Except ChainFailure String} {slots : List String}
  {slot address word : String} {cause : ChainFailure}

theorem settle_fail (h : reply slot = .error cause) : settle reply (slot :: slots) = .error cause := by
  rw [settle, h]
  rfl

theorem settle_vacant (h : Vacant reply slot) : settle reply (slot :: slots) = settle reply slots := by
  obtain ⟨word, hword, hempty⟩ := h
  rw [settle, hword]
  simp [bind, Except.bind, hempty]

theorem settle_word (h : reply slot = .ok word) (hempty : isEmptySlotWord word = false) :
    settle reply (slot :: slots) = ((slotToAddress word).map some).mapError .slotMalformed := by
  rw [settle, h]
  simp [bind, Except.bind, hempty]

theorem settle_none : settle reply slots = .ok none ↔ ∀ slot ∈ slots, Vacant reply slot := by
  induction slots with
  | nil => simp [settle]
  | cons slot slots ih =>
    rw [List.forall_mem_cons]
    constructor
    · intro h
      cases hreply : reply slot with
      | error cause =>
        rw [settle_fail hreply] at h
        cases h
      | ok word =>
        cases hempty : isEmptySlotWord word with
        | true =>
          have hvacant : Vacant reply slot := ⟨word, hreply, hempty⟩
          rw [settle_vacant hvacant] at h
          exact ⟨hvacant, ih.mp h⟩
        | false =>
          rw [settle_word hreply hempty] at h
          cases haddress : slotToAddress word <;> rw [haddress] at h <;> cases h
    · rintro ⟨hvacant, hslots⟩
      rw [settle_vacant hvacant]
      exact ih.mpr hslots

theorem settle_some : settle reply slots = .ok (some address) ↔
    ∃ word, Occupies reply slots word ∧ slotToAddress word = .ok address := by
  induction slots with
  | nil =>
    refine ⟨by rintro ⟨⟩, ?_⟩
    rintro ⟨_, ⟨_, hupTo, -⟩, -⟩
    exact hupTo.not_nil.elim
  | cons slot slots ih =>
    constructor
    · intro h
      cases hreply : reply slot with
      | error cause =>
        rw [settle_fail hreply] at h
        cases h
      | ok word =>
        cases hempty : isEmptySlotWord word with
        | true =>
          have hvacant : Vacant reply slot := ⟨word, hreply, hempty⟩
          rw [settle_vacant hvacant] at h
          obtain ⟨word, ⟨slot, hupTo, hslot⟩, haddress⟩ := ih.mp h
          exact ⟨word, ⟨slot, hupTo.cons hvacant, hslot⟩, haddress⟩
        | false =>
          rw [settle_word hreply hempty] at h
          cases haddress : slotToAddress word with
          | error error =>
            rw [haddress] at h
            cases h
          | ok found =>
            rw [haddress] at h
            cases h
            exact ⟨word, ⟨slot, .head, hreply, hempty⟩, haddress⟩
    · rintro ⟨word, ⟨chosen, hupTo, hreply, hempty⟩, haddress⟩
      rcases hupTo.of_cons with rfl | ⟨hvacant, hupTo⟩
      · rw [settle_word hreply hempty, haddress]
        rfl
      · rw [settle_vacant hvacant]
        exact ih.mpr ⟨word, ⟨chosen, hupTo, hreply, hempty⟩, haddress⟩

end

-- ---------------------------------------------------------------------------
-- The readers
-- ---------------------------------------------------------------------------

section
variable {channel : RpcChannel} {reply : String → Except ChainFailure String} {proxy : String}

/-- A read of some slots, as it settles. -/
inductive Settles (result : Except ChainFailure (SlotRead × Nat)) :
    Except ChainFailure (Option String) → Prop
  | failed {cause} (h : result = .error cause) : Settles result (.error cause)
  | malformed {read id error} (h : result = .ok (read, id)) (hempty : read.empty = false)
    (haddress : slotToAddress read.word = .error error) : Settles result (.error (.slotMalformed error))
  | empty {read id} (h : result = .ok (read, id)) (hempty : read.empty = true) :
    Settles result (.ok none)
  | full {read id address} (h : result = .ok (read, id)) (hempty : read.empty = false)
    (haddress : slotToAddress read.word = .ok address) : Settles result (.ok (some address))

theorem readSlotWithFallback_settles (h : Stores channel proxy reply) (id : Nat) (slots : List String)
    (word : String) :
    Settles (channel.readSlotWithFallback proxy id slots word) (settle reply slots) := by
  induction slots generalizing id word with
  | nil => exact .empty rfl rfl
  | cons slot slots ih =>
    rw [RpcChannel.readSlotWithFallback, h.storage]
    cases hreply : reply slot with
    | error cause =>
      rw [settle_fail hreply]
      exact .failed rfl
    | ok word =>
      cases hempty : isEmptySlotWord word with
      | true =>
        rw [settle_vacant ⟨word, hreply, hempty⟩]
        simpa [bind, Except.bind, hempty] using ih (id + 1) word
      | false =>
        rw [settle_word hreply hempty]
        have hread : (Except.ok word >>= fun word =>
            if !isEmptySlotWord word then pure (⟨word, false⟩, id + 1)
            else channel.readSlotWithFallback proxy (id + 1) slots word) =
            (.ok (⟨word, false⟩, id + 1) : Except ChainFailure (SlotRead × Nat)) := by
          simp [bind, Except.bind, hempty, pure, Except.pure]
        rw [hread]
        cases haddress : slotToAddress word with
        | error error => exact .malformed rfl rfl haddress
        | ok found => exact .full rfl rfl haddress

theorem Stores.target (h : Stores channel proxy reply) : ∃ target, toRpcAddress proxy = .ok target := by
  obtain ⟨code, hcode, -⟩ := h.code 0
  cases htarget : toRpcAddress proxy with
  | ok target => exact ⟨target, rfl⟩
  | error error =>
    rw [RpcChannel.getCode, htarget] at hcode
    cases hcode

theorem notFound_eq (h : Stores channel proxy reply) : ∃ target, ∀ failure,
    RpcChannel.notFound failure proxy = .error (failure target) := by
  obtain ⟨target, htarget⟩ := h.target
  refine ⟨target, fun failure => ?_⟩
  rw [RpcChannel.notFound, htarget]
  rfl

section
variable {id : Nat} {label : SlotLabel}

theorem readSlot_error {cause : ChainFailure}
    (h : channel.readSlotWithFallback proxy id (slotsFor label) "" = .error cause) :
    channel.readSlot id proxy label = .error (.chain cause) := by
  rw [RpcChannel.readSlot, h]
  rfl

theorem readSlot_ok {read : SlotRead × Nat}
    (h : channel.readSlotWithFallback proxy id (slotsFor label) "" = .ok read) :
    channel.readSlot id proxy label = .ok read := by
  rw [RpcChannel.readSlot, h]
  rfl

theorem readLabel_error {failure : SlotFailure} (h : channel.readSlot id proxy label = .error failure) :
    channel.readLabel id proxy label = .error failure := by
  cases label <;> simp [RpcChannel.readLabel, RpcChannel.readImplementationAddress,
    RpcChannel.readAdminAddress, RpcChannel.readBeaconAddress, h, bind, Except.bind]

theorem readLabel_full {read : SlotRead × Nat} (h : channel.readSlot id proxy label = .ok read)
    (hempty : read.1.empty = false) :
    channel.readLabel id proxy label = RpcChannel.addressOf read.1 := by
  cases label <;> simp [RpcChannel.readLabel, RpcChannel.readImplementationAddress,
    RpcChannel.readAdminAddress, RpcChannel.readBeaconAddress, h, bind, Except.bind, hempty]

theorem readLabel_empty (hstores : Stores channel proxy reply) {read : SlotRead × Nat}
    (h : channel.readSlot id proxy label = .ok read) (hempty : read.1.empty = true) :
    channel.ReportsEmpty id proxy label := by
  obtain ⟨target, hnotFound⟩ := notFound_eq hstores
  cases label with
  | implementation =>
    refine ⟨target, ?_⟩
    simp [RpcChannel.readLabel, RpcChannel.readImplementationAddress, h, bind, Except.bind, hempty,
      hnotFound]
  | admin =>
    simp [RpcChannel.ReportsEmpty, RpcChannel.readLabel, RpcChannel.readAdminAddress, h, bind,
      Except.bind, hempty, pure, Except.pure]
  | beacon =>
    refine ⟨target, ?_⟩
    simp [RpcChannel.readLabel, RpcChannel.readBeaconAddress, h, bind, Except.bind, hempty, hnotFound]

end

/-- What the reader of a slot and the whole reader's loop make of a read that
settles so. -/
structure Outcome (channel : RpcChannel) (id : Nat) (proxy : String) (label : SlotLabel)
    (outcome : Except ChainFailure (Option String)) : Prop where
  failed : ∀ cause, outcome = .error cause →
    channel.readLabel id proxy label = .error (.chain cause) ∧
      ∀ labels found, channel.readRequested proxy id (label :: labels) found = .error (.chain cause)
  empty : outcome = .ok none → channel.ReportsEmpty id proxy label ∧ ∀ labels found, ∃ id',
    channel.readRequested proxy id (label :: labels) found =
      channel.readRequested proxy id' labels (found.set label none)
  full : ∀ address, outcome = .ok (some address) →
    channel.readLabel id proxy label = .ok address ∧ ∀ labels found, ∃ id',
      channel.readRequested proxy id (label :: labels) found =
        channel.readRequested proxy id' labels (found.set label (some address))

theorem addressOf_error {read : SlotRead} {error : ChainSlotMalformed}
    (h : slotToAddress read.word = .error error) :
    RpcChannel.addressOf read = .error (.chain (.slotMalformed error)) := by
  rw [RpcChannel.addressOf, h]
  rfl

theorem addressOf_ok {read : SlotRead} {address : String} (h : slotToAddress read.word = .ok address) :
    RpcChannel.addressOf read = .ok address := by
  rw [RpcChannel.addressOf, h]
  rfl

theorem outcome_settles (h : Stores channel proxy reply) (id : Nat) (label : SlotLabel) :
    Outcome channel id proxy label (settle reply (slotsFor label)) := by
  have hsettles := readSlotWithFallback_settles h id (slotsFor label) ""
  generalize settle reply (slotsFor label) = outcome at hsettles
  cases hsettles with
  | failed hread =>
    have hslot := readSlot_error hread
    refine ⟨?_, by rintro ⟨⟩, by rintro _ ⟨⟩⟩
    rintro _ ⟨⟩
    refine ⟨readLabel_error hslot, fun labels found => ?_⟩
    rw [RpcChannel.readRequested, hslot]
    rfl
  | @malformed read id' error hread hempty haddress =>
    have hslot := readSlot_ok hread
    refine ⟨?_, by rintro ⟨⟩, by rintro _ ⟨⟩⟩
    rintro _ ⟨⟩
    refine ⟨(readLabel_full hslot hempty).trans (addressOf_error haddress), fun labels found => ?_⟩
    rw [RpcChannel.readRequested, hslot]
    simp [bind, Except.bind, hempty, addressOf_error haddress, Except.map]
  | @empty read id' hread hempty =>
    have hslot := readSlot_ok hread
    refine ⟨by rintro _ ⟨⟩, fun _ => ⟨readLabel_empty h hslot hempty, fun labels found => ⟨id', ?_⟩⟩,
      by rintro _ ⟨⟩⟩
    rw [RpcChannel.readRequested, hslot]
    simp [bind, Except.bind, hempty, pure, Except.pure]
  | @full read id' address hread hempty haddress =>
    have hslot := readSlot_ok hread
    refine ⟨by rintro _ ⟨⟩, by rintro ⟨⟩, ?_⟩
    rintro _ ⟨⟩
    refine ⟨(readLabel_full hslot hempty).trans (addressOf_ok haddress), fun labels found => ⟨id', ?_⟩⟩
    rw [RpcChannel.readRequested, hslot]
    simp [bind, Except.bind, hempty, addressOf_ok haddress, Except.map]

section
variable {id : Nat} {label : SlotLabel}

theorem not_reportsEmpty {cause : ChainFailure}
    (h : channel.readLabel id proxy label = .error (.chain cause)) :
    ¬ channel.ReportsEmpty id proxy label := by
  intro hempty
  cases label with
  | implementation | beacon =>
    obtain ⟨target, htarget⟩ := hempty
    cases h.symm.trans htarget
  | admin => cases h.symm.trans hempty

theorem not_reportsEmpty_ok {address : String} (hne : address ≠ zeroChainAddress)
    (h : channel.readLabel id proxy label = .ok address) : ¬ channel.ReportsEmpty id proxy label := by
  intro hempty
  cases label with
  | implementation | beacon =>
    obtain ⟨target, htarget⟩ := hempty
    cases h.symm.trans htarget
  | admin =>
    cases h.symm.trans hempty
    exact hne rfl

theorem settle_ne_zero {slots : List String} {address : String}
    (h : settle reply slots = .ok (some address)) : address ≠ zeroChainAddress := by
  obtain ⟨word, ⟨slot, -, -, hempty⟩, haddress⟩ := settle_some.mp h
  exact slotToAddress_ne_zero hempty haddress

theorem mem_slotLabels (label : SlotLabel) : label ∈ slotLabels := by cases label <;> decide

variable (h : Stores channel proxy reply)
include h

theorem raises_iff : channel.Raises id proxy label ↔
    ∃ cause, settle reply (slotsFor label) = .error cause := by
  have houtcome := outcome_settles h id label
  constructor
  · rintro ⟨failure, hfailure, hempty⟩
    cases hsettle : settle reply (slotsFor label) with
    | error cause => exact ⟨cause, rfl⟩
    | ok holds =>
      cases holds with
      | none => exact absurd (houtcome.empty hsettle).1 hempty
      | some address => cases hfailure.symm.trans (houtcome.full address hsettle).1
  · rintro ⟨cause, hsettle⟩
    have hread := (houtcome.failed cause hsettle).1
    exact ⟨_, hread, not_reportsEmpty hread⟩

theorem reportsEmpty_iff : channel.ReportsEmpty id proxy label ↔
    settle reply (slotsFor label) = .ok none := by
  have houtcome := outcome_settles h id label
  refine ⟨fun hempty => ?_, fun hsettle => (houtcome.empty hsettle).1⟩
  cases hsettle : settle reply (slotsFor label) with
  | error cause => exact absurd hempty (not_reportsEmpty (houtcome.failed cause hsettle).1)
  | ok holds =>
    cases holds with
    | none => rfl
    | some address =>
      exact absurd hempty
        (not_reportsEmpty_ok (settle_ne_zero hsettle) (houtcome.full address hsettle).1)

theorem reports_iff {address : String} : channel.Reports id proxy label address ↔
    settle reply (slotsFor label) = .ok (some address) := by
  have houtcome := outcome_settles h id label
  constructor
  · rintro ⟨hread, hempty⟩
    cases hsettle : settle reply (slotsFor label) with
    | error cause => cases hread.symm.trans (houtcome.failed cause hsettle).1
    | ok holds =>
      cases holds with
      | none => exact absurd (houtcome.empty hsettle).1 hempty
      | some found =>
        cases hread.symm.trans (houtcome.full found hsettle).1
        rfl
  · intro hsettle
    have hread := (houtcome.full address hsettle).1
    exact ⟨hread, not_reportsEmpty_ok (settle_ne_zero hsettle) hread⟩

theorem readRequested_step {holds : Option String} (hsettle : settle reply (slotsFor label) = .ok holds)
    (labels : List SlotLabel) (found : FoundSlots) : ∃ id',
    channel.readRequested proxy id (label :: labels) found =
      channel.readRequested proxy id' labels (found.set label holds) := by
  have houtcome := outcome_settles h id label
  cases holds with
  | none => exact (houtcome.empty hsettle).2 labels found
  | some address => exact (houtcome.full address hsettle).2 labels found

theorem readRequested_error (id : Nat) {labels : List SlotLabel} {cause : ChainFailure}
    (hmem : label ∈ labels) (hsettle : settle reply (slotsFor label) = .error cause) (found : FoundSlots) :
    ∃ failure, channel.readRequested proxy id labels found = .error failure := by
  induction labels generalizing id found with
  | nil => cases hmem
  | cons first labels ih =>
    cases hfirst : settle reply (slotsFor first) with
    | error cause' => exact ⟨_, ((outcome_settles h id first).failed cause' hfirst).2 labels found⟩
    | ok holds =>
      obtain ⟨id', hstep⟩ := readRequested_step h hfirst labels found
      rw [hstep]
      rcases List.mem_cons.mp hmem with rfl | hmem
      · cases hfirst.symm.trans hsettle
      · exact ih _ hmem _

theorem readRequested_ok {labels : List SlotLabel} {holds : SlotLabel → Option String}
    (hsettle : ∀ label ∈ labels, settle reply (slotsFor label) = .ok (holds label))
    (found : FoundSlots) : channel.readRequested proxy id labels found =
      .ok (labels.foldl (fun found label => found.set label (holds label)) found) := by
  induction labels generalizing id found with
  | nil => rfl
  | cons first labels ih =>
    obtain ⟨hfirst, hlabels⟩ := List.forall_mem_cons.mp hsettle
    obtain ⟨id', hstep⟩ := readRequested_step h hfirst labels found
    rw [hstep, ih hlabels]
    rfl

theorem readProxySlots_code (id : Nat) : ∃ id', channel.readProxySlots id proxy slotLabels =
    (channel.readRequested proxy id' slotLabels ⟨none, none, none⟩).map .code := by
  obtain ⟨code, hcode, hempty⟩ := h.code id
  refine ⟨id + 1, ?_⟩
  have hmapped : (Except.ok code).mapError SlotFailure.chain = .ok code := rfl
  have hlabels : slotLabels.eraseDups = slotLabels := by decide
  rw [RpcChannel.readProxySlots, hcode, hmapped, hlabels]
  simp only [bind, Except.bind, hempty, Bool.false_eq_true, if_false]
  cases channel.readRequested proxy (id + 1) slotLabels ⟨none, none, none⟩ <;> rfl

theorem readProxySlots_failed {cause : ChainFailure}
    (hsettle : settle reply (slotsFor label) = .error cause) :
    ∃ failure, channel.readProxySlots id proxy slotLabels = .error failure := by
  obtain ⟨id', hwhole⟩ := readProxySlots_code h id
  obtain ⟨failure, hfailure⟩ := readRequested_error h id' (mem_slotLabels label) hsettle
    ⟨none, none, none⟩
  refine ⟨failure, ?_⟩
  rw [hwhole, hfailure]
  rfl

theorem readProxySlots_found {holds : SlotLabel → Option String}
    (hsettle : ∀ label, settle reply (slotsFor label) = .ok (holds label)) :
    channel.readProxySlots id proxy slotLabels =
      .ok (.code ⟨holds .implementation, holds .admin, holds .beacon⟩) := by
  obtain ⟨id', hwhole⟩ := readProxySlots_code h id
  rw [hwhole, readRequested_ok h fun label _ => hsettle label]
  rfl

/-- The whole reader fails where a slot does, and else finds what each comes to. -/
theorem readProxySlots_cases (id : Nat) :
    (∃ label cause, settle reply (slotsFor label) = .error cause ∧
      ∃ failure, channel.readProxySlots id proxy slotLabels = .error failure) ∨
    ∃ found, channel.readProxySlots id proxy slotLabels = .ok (.code found) ∧
      ∀ label, settle reply (slotsFor label) = .ok (found.get label) := by
  by_cases hfails : ∃ label cause, settle reply (slotsFor label) = .error cause
  · obtain ⟨label, cause, hsettle⟩ := hfails
    exact .inl ⟨label, cause, hsettle, readProxySlots_failed h hsettle⟩
  · have hholds : ∀ label, ∃ holds, settle reply (slotsFor label) = .ok holds := by
      intro label
      cases hsettle : settle reply (slotsFor label) with
      | error cause => exact absurd ⟨label, cause, hsettle⟩ hfails
      | ok holds => exact ⟨holds, rfl⟩
    obtain ⟨implementation, himplementation⟩ := hholds .implementation
    obtain ⟨admin, hadmin⟩ := hholds .admin
    obtain ⟨beacon, hbeacon⟩ := hholds .beacon
    let found : FoundSlots := ⟨implementation, admin, beacon⟩
    have hfound : ∀ label, settle reply (slotsFor label) = .ok (found.get label) := by
      intro label
      cases label with
      | implementation => exact himplementation
      | admin => exact hadmin
      | beacon => exact hbeacon
    exact .inr ⟨found, readProxySlots_found h hfound, hfound⟩

end

/-- The whole reader and the readers of one slot tell the same of one storage. -/
theorem readProxySlots_agrees (h : Stores channel proxy reply) (id : Nat) (ids : SlotLabel → Nat) :
    ((∃ failure, channel.readProxySlots id proxy slotLabels = .error failure) ↔
      ∃ label, channel.Raises (ids label) proxy label) ∧
    (∀ read, channel.readProxySlots id proxy slotLabels = .ok read → ∃ found, read = .code found ∧
      ∀ label, (found.get label = none ↔ channel.ReportsEmpty (ids label) proxy label) ∧
        ∀ address, found.get label = some address ↔
          channel.Reports (ids label) proxy label address) ∧
    ∀ label, (channel.ReportsEmpty (ids label) proxy label ↔
        ∀ slot ∈ slotsFor label, Vacant reply slot) ∧
      ∀ address, channel.Reports (ids label) proxy label address ↔
        ∃ word, Occupies reply (slotsFor label) word ∧ slotToAddress word = .ok address := by
  refine ⟨?_, fun read hread => ?_, fun label => ⟨?_, fun address => ?_⟩⟩
  · simp only [raises_iff h]
    constructor
    · rintro ⟨failure, hfailure⟩
      rcases readProxySlots_cases h id with ⟨label, cause, hsettle, -⟩ | ⟨found, hfound, -⟩
      · exact ⟨label, cause, hsettle⟩
      · cases hfound.symm.trans hfailure
    · rintro ⟨label, cause, hsettle⟩
      exact readProxySlots_failed h hsettle
  · rcases readProxySlots_cases h id with ⟨_, _, _, failure, hfailure⟩ | ⟨found, hfound, hsettle⟩
    · cases hfailure.symm.trans hread
    cases hfound.symm.trans hread
    refine ⟨found, rfl, fun label => ⟨?_, fun address => ?_⟩⟩
    · rw [reportsEmpty_iff h, hsettle label]
      exact ⟨fun hnone => by rw [hnone], fun hnone => Except.ok.inj hnone⟩
    · rw [reports_iff h, hsettle label]
      exact ⟨fun hsome => by rw [hsome], fun hsome => Except.ok.inj hsome⟩
  · rw [reportsEmpty_iff h, settle_none]
  · rw [reports_iff h, settle_some]

end

def resultBody (text : String) : Value :=
  .object false none (fun key => .ok (key == "result")) fun key =>
    .ok (if key = "result" then .string text else .undefined)

def legacyAdminWord : String :=
  "0x000000000000000000000000aB7c8803962c0f2F5BBBe3FA8bf41cd82AA1923C"

/-- Code, an administrator in its legacy slot, and nothing else. -/
def legacyAdminChannel : RpcChannel :=
  ⟨"http://127.0.0.1:9090", fun _ request => .ok (resultBody (
    if request.method = "eth_getCode" then "0x60"
    else match request.params with
      | [_, .string slot, _] =>
        if some slot = legacyEip1967Slots .admin then legacyAdminWord else zeroSlotWord
      | _ => zeroSlotWord))⟩

def legacyAdminProxy : String := "0x0000000000000000000000000000000000000001"

theorem legacyAdmin_stores : Stores legacyAdminChannel legacyAdminProxy
    (legacyAdminChannel.getStorageAt 0 legacyAdminProxy) where
  code _ := ⟨"0x60", rfl, rfl⟩
  storage _ _ := rfl

theorem legacyAdmin_target : toRpcAddress legacyAdminProxy = .ok legacyAdminProxy := by
  have hproxy : legacyAdminProxy = String.ofList _ := rfl
  simp only [toRpcAddress, looksLikeBase58Address, toList_literal hproxy]
  rfl

theorem legacyAdmin_storage (slot : String) :
    legacyAdminChannel.getStorageAt 0 legacyAdminProxy slot =
      .ok (if some slot = legacyEip1967Slots .admin then legacyAdminWord else zeroSlotWord) := by
  have hforwarded : Forwarded "eth_getStorageAt"
      [.string legacyAdminProxy, .string slot, .string acceptedBlockTag]
      ⟨"a 0x-prefixed hex storage word", isHexData⟩ := ⟨by decide, rfl, rfl⟩
  have hword : isHexData legacyAdminWord = true := by
    have hliteral : legacyAdminWord = String.ofList _ := rfl
    rw [isHexData, toList_literal hliteral]
    decide
  have hzero : isHexData zeroSlotWord = true := by
    rw [isHexData, zeroSlotWord, String.toList_ofList]
    decide
  rw [RpcChannel.getStorageAt, legacyAdmin_target]
  refine (RpcChannel.shaped_ok hforwarded).mpr ⟨?_, ?_⟩
  · exact ⟨_, rfl, .mk rfl ⟨_, rfl⟩ ⟨_, rfl, rfl⟩ rfl rfl⟩
  · have haccepts (c : Prop) [Decidable c] :
        isHexData (if c then legacyAdminWord else zeroSlotWord) = true := by
      split
      · exact hword
      · exact hzero
    exact haccepts _

/-- The reader of one slot knows what the whole reader found. -/
theorem legacyAdmin_reported : ∃ address,
    legacyAdminChannel.readProxySlots 0 legacyAdminProxy slotLabels =
      .ok (.code ⟨none, some address, none⟩) ∧
    legacyAdminChannel.Reports 0 legacyAdminProxy .admin address := by
  have hread : legacyAdminChannel.readProxySlots 0 legacyAdminProxy slotLabels =
      .ok (.code ⟨none, some "0xab7c8803962c0f2f5bbbe3fa8bf41cd82aa1923c", none⟩) := by
    have hzero : isEmptySlotWord zeroSlotWord = true := by
      rw [isEmptySlotWord, zeroSlotWord, String.toList_ofList]
      decide
    have hliteral : legacyAdminWord = String.ofList _ := rfl
    have hword : isEmptySlotWord legacyAdminWord = false := by
      rw [isEmptySlotWord, toList_literal hliteral]
      decide
    have haddress : slotToAddress legacyAdminWord =
        .ok "0xab7c8803962c0f2f5bbbe3fa8bf41cd82aa1923c" := by
      rw [slotToAddress, toList_literal hliteral]
      rfl
    have hvacant (slot : String) (h : some slot ≠ legacyEip1967Slots .admin) :
        Vacant (legacyAdminChannel.getStorageAt 0 legacyAdminProxy) slot :=
      ⟨zeroSlotWord, by rw [legacyAdmin_storage, if_neg h], hzero⟩
    let found : FoundSlots := ⟨none, some "0xab7c8803962c0f2f5bbbe3fa8bf41cd82aa1923c", none⟩
    have hfound : ∀ label, settle (legacyAdminChannel.getStorageAt 0 legacyAdminProxy)
        (slotsFor label) = .ok (found.get label) := by
      intro label
      cases label with
      | implementation =>
        refine settle_none.mpr fun slot hslot => hvacant slot ?_
        rcases List.mem_cons.mp hslot with rfl | hslot
        · simp [eip1967Slots, legacyEip1967Slots]
        · rw [List.mem_singleton.mp hslot]
          simp [legacyEip1967Slots]
      | admin =>
        have hstored : legacyAdminChannel.getStorageAt 0 legacyAdminProxy
            "0x10d6a54a4754c8869d6886b5f5d7fbfa5b4522237ea5c60d11bc4e7a1ff9390b" =
            .ok legacyAdminWord := by
          rw [legacyAdmin_storage, legacyEip1967Slots, if_pos rfl]
        have hcurrent := hvacant (eip1967Slots .admin) (by simp [eip1967Slots, legacyEip1967Slots])
        refine (settle_vacant hcurrent).trans ?_
        refine (settle_word hstored hword).trans ?_
        rw [haddress]
        rfl
      | beacon =>
        refine settle_none.mpr fun slot hslot => hvacant slot ?_
        rw [List.mem_singleton.mp hslot]
        simp [eip1967Slots, legacyEip1967Slots]
    exact readProxySlots_found legacyAdmin_stores hfound
  obtain ⟨found, hfound, hagrees⟩ :=
    (readProxySlots_agrees legacyAdmin_stores 0 fun _ => 0).2.1 _ hread
  cases hfound
  exact ⟨_, hread, ((hagrees .admin).2 _).mp rfl⟩

end TronUpgrades.Chain
