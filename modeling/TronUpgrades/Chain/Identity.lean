import TronUpgrades.Chain.Instance
import TronUpgrades.Chain.Read
import TronUpgrades.Js.Number
import TronUpgrades.Radix.Numeral

/-!
# Reading the identity of an instance

Three round-trips: the chain id, and the hashes of blocks 0 and 1. The chain id
is the last four bytes of the genesis hash, so the two answers check each other.
-/

namespace TronUpgrades.Chain

open Text Address

-- ---------------------------------------------------------------------------
-- The integer hex digits spell
-- ---------------------------------------------------------------------------

theorem parseHex_number (ds : List Char) :
    parseHex ds = Radix.number 16 (ds.map hexDigitValue) := by
  rw [parseHex, Radix.number, List.foldl_map]

theorem hexDigitValue_lt {c : Char} (h : isHexDigit c = true) : hexDigitValue c < 16 := by
  have digit : ∀ c ∈ hexDigits, hexDigitValue c < 16 := forall_mem_of_all (by decide)
  exact isHexDigit_cases digit h

theorem hexDigitValue_toLower {c : Char} (h : isHexDigit c = true) :
    hexDigitValue c.toLower = hexDigitValue c := by
  have digit : ∀ c ∈ hexDigits, hexDigitValue c.toLower = hexDigitValue c :=
    forall_mem_of_all (by decide)
  exact isHexDigit_cases digit h

theorem parseHex_lt {ds : List Char} (h : ds.all isHexDigit = true) :
    parseHex ds < 16 ^ ds.length := by
  rw [List.all_eq_true] at h
  have hlt : ∀ d ∈ ds.map hexDigitValue, d < 16 := by
    simp only [List.mem_map]
    rintro _ ⟨c, hc, rfl⟩
    exact hexDigitValue_lt (h c hc)
  have := Radix.number_lt hlt
  rwa [parseHex_number, ← List.length_map hexDigitValue]

theorem parseHex_toLowerCase {ds : List Char} (h : ds.all isHexDigit = true) :
    parseHex (toLowerCase ds) = parseHex ds := by
  rw [List.all_eq_true] at h
  rw [parseHex_number, parseHex_number, toLowerCase, List.map_map]
  exact congrArg _ (List.map_congr_left fun c hc => hexDigitValue_toLower (h c hc))

theorem parseHex_cons (c : Char) (ds : List Char) :
    parseHex (c :: ds) = hexDigitValue c * 16 ^ ds.length + parseHex ds := by
  induction ds using List.reverseRecOn with
  | nil => simp [parseHex]
  | append_singleton ds d ih =>
    have last (cs : List Char) : parseHex (cs ++ [d]) = 16 * parseHex cs + hexDigitValue d := by
      simp [parseHex]
    rw [← List.cons_append, last, last, ih, List.length_append, List.length_singleton,
      Nat.pow_succ', Nat.mul_add, Nat.mul_left_comm, Nat.add_assoc]

theorem parseHex_dropLeadingZeros (ds : List Char) : parseHex (dropLeadingZeros ds) = parseHex ds := by
  fun_induction dropLeadingZeros ds with
  | case1 c rest ih =>
    rw [ih, parseHex_cons '0']
    simp [hexDigitValue, isDigit]
  | case2 => rfl

theorem parseHex_pos {ds : List Char} (h : ∃ c ∈ ds, isHexDigit c = true ∧ c ≠ '0') :
    0 < parseHex ds := by
  induction ds with
  | nil =>
    obtain ⟨c, hc, -⟩ := h
    cases hc
  | cons d ds ih =>
    obtain ⟨c, hc, hex, hne⟩ := h
    rw [parseHex_cons]
    rcases List.mem_cons.mp hc with rfl | hc
    · have digit : ∀ c ∈ hexDigits, c ≠ '0' → 0 < hexDigitValue c := forall_mem_of_all (by decide)
      have := Nat.mul_pos (isHexDigit_cases digit hex hne) (Nat.pow_pos (n := ds.length) (by decide : 0 < 16))
      omega
    · have := ih ⟨c, hc, hex, hne⟩
      omega

/-- Two texts of lower-case digits that spell one integer in the same width. -/
theorem parseHex_injective {ds ds' : List Char} (h : ds.all isLowerHexDigit = true)
    (h' : ds'.all isLowerHexDigit = true) (hlength : ds.length = ds'.length)
    (hparse : parseHex ds = parseHex ds') : ds = ds' := by
  induction ds generalizing ds' with
  | nil => exact (List.length_eq_zero_iff.mp hlength.symm).symm
  | cons c ds ih =>
    cases ds' with
    | nil => cases hlength
    | cons c' ds' =>
      simp only [List.all_cons, Bool.and_eq_true] at h h'
      simp only [List.length_cons, Nat.add_right_cancel_iff] at hlength
      rw [parseHex_cons, parseHex_cons, ← hlength] at hparse
      have hlt := parseHex_lt (lowerHex_hex h.2)
      have hlt' := parseHex_lt (lowerHex_hex h'.2)
      rw [← hlength] at hlt'
      have hvalue : hexDigitValue c = hexDigitValue c' := by
        have hdiv := congrArg (· / 16 ^ ds.length) hparse
        simpa [Nat.mul_comm _ (16 ^ ds.length), Nat.mul_add_div (Nat.pow_pos (n := ds.length)
          (by decide : 0 < 16)), Nat.div_eq_of_lt hlt, Nat.div_eq_of_lt hlt'] using hdiv
      have digit : ∀ c ∈ hexDigits, isLowerHexDigit c = true →
          "0123456789abcdef".toList.getD (hexDigitValue c) '0' = c := forall_mem_of_all (by decide)
      have hc : c = c' := by
        rw [← digit c (mem_hexDigits (isLowerHexDigit_isHexDigit h.1)) h.1, hvalue,
          digit c' (mem_hexDigits (isLowerHexDigit_isHexDigit h'.1)) h'.1]
      rw [hvalue] at hparse
      rw [hc, ih h.2 h'.2 hlength (Nat.add_left_cancel hparse)]

/-- Lower-case digits, with no zero before another digit. -/
structure CanonicalDigits (ds : List Char) : Prop where
  lower : ds.all isLowerHexDigit = true
  nonempty : ds ≠ []
  leading : dropLeadingZeros ds = ds

theorem dropLeadingZeros_canonical {ds : List Char} (h : ds.all isLowerHexDigit = true)
    (hne : ds ≠ []) : CanonicalDigits (dropLeadingZeros ds) := by
  fun_induction dropLeadingZeros ds with
  | case1 c rest ih =>
    rw [List.all_cons, Bool.and_eq_true] at h
    exact ih h.2 (List.cons_ne_nil _ _)
  | case2 ds hno => exact ⟨h, hne, by rw [dropLeadingZeros]; exact hno⟩

theorem dropLeadingZeros_length_le (ds : List Char) :
    (dropLeadingZeros ds).length ≤ ds.length := by
  fun_induction dropLeadingZeros ds with
  | case1 c rest ih => exact Nat.le_succ_of_le ih
  | case2 => exact Nat.le_refl _

/-- A canonical text that is longer spells a greater integer. -/
theorem CanonicalDigits.length_le {ds ds' : List Char} (h : CanonicalDigits ds)
    (h' : CanonicalDigits ds') (hparse : parseHex ds = parseHex ds') : ds.length ≤ ds'.length := by
  refine Nat.le_of_not_lt fun hlt => ?_
  have hpositive := List.length_pos_of_ne_nil h'.nonempty
  obtain ⟨c, d, rest, rfl⟩ : ∃ c d rest, ds = c :: d :: rest := by
    rcases ds with _ | ⟨c, _ | ⟨d, rest⟩⟩
    · simp at hlt
    · simp only [List.length_singleton] at hlt
      omega
    · exact ⟨c, d, rest, rfl⟩
  have hzero : c ≠ '0' := by
    rintro rfl
    have hshort := dropLeadingZeros_length_le (d :: rest)
    have hleading := congrArg List.length h.leading
    rw [dropLeadingZeros] at hleading
    simp only [List.length_cons] at hleading hshort
    omega
  have hc := h.lower
  rw [List.all_cons, Bool.and_eq_true] at hc
  have hvalue : 0 < hexDigitValue c := by
    have := parseHex_pos ⟨c, List.mem_singleton_self c, isLowerHexDigit_isHexDigit hc.1, hzero⟩
    simpa [parseHex] using this
  have hbelow := parseHex_lt (lowerHex_hex h'.lower)
  have hpower : 16 ^ ds'.length ≤ 16 ^ (d :: rest).length :=
    Nat.pow_le_pow_right (by decide) (Nat.le_of_lt_succ hlt)
  have habove : 1 * 16 ^ (d :: rest).length ≤ hexDigitValue c * 16 ^ (d :: rest).length :=
    Nat.mul_le_mul_right _ hvalue
  rw [parseHex_cons] at hparse
  omega

theorem CanonicalDigits.injective {ds ds' : List Char} (h : CanonicalDigits ds)
    (h' : CanonicalDigits ds') (hparse : parseHex ds = parseHex ds') : ds = ds' :=
  parseHex_injective h.lower h'.lower
    (Nat.le_antisymm (h.length_le h' hparse) (h'.length_le h hparse.symm)) hparse

-- ---------------------------------------------------------------------------
-- Canonical texts
-- ---------------------------------------------------------------------------

theorem stripHexPrefix_hex {ds : List Char} (h : ds.all isHexDigit = true) :
    stripHexPrefix ds = ds := by
  have notHex : isHexDigit 'x' = false ∧ isHexDigit 'X' = false := by decide
  rw [stripHexPrefix.eq_def]
  split
  · simp [notHex] at h
  · simp [notHex] at h
  · rfl

/-- What follows `0x` in the canonical form of these digits. -/
def canonicalDigits (ds : List Char) : List Char := dropLeadingZeros (toLowerCase ds)

theorem canonicalDigits_canonical {ds : List Char} (h : ds.all isHexDigit = true) (hne : ds ≠ []) :
    CanonicalDigits (canonicalDigits ds) :=
  dropLeadingZeros_canonical (toLowerCase_hex h) (by simpa [toLowerCase] using hne)

theorem parseHex_canonicalDigits {ds : List Char} (h : ds.all isHexDigit = true) :
    parseHex (canonicalDigits ds) = parseHex ds := by
  rw [canonicalDigits, parseHex_dropLeadingZeros, parseHex_toLowerCase h]

theorem canonicalChainId_prefixed (ds : List Char) :
    canonicalChainId (.ofList ('0' :: 'x' :: ds)) = .ofList ('0' :: 'x' :: canonicalDigits ds) := by
  simp [canonicalChainId, stripHexPrefix, canonicalDigits]

theorem canonicalChainId_bare {ds : List Char} (h : ds.all isHexDigit = true) :
    canonicalChainId (.ofList ds) = .ofList ('0' :: 'x' :: canonicalDigits ds) := by
  simp [canonicalChainId, stripHexPrefix_hex h, canonicalDigits]

theorem CanonicalDigits.chainId {ds : List Char} (h : CanonicalDigits ds) :
    CanonicalChainId (.ofList ('0' :: 'x' :: ds)) := by
  refine ⟨?_, ?_⟩
  · obtain ⟨c, rest, rfl⟩ := List.exists_cons_of_ne_nil h.nonempty
    simpa [isHexQuantity] using lowerHex_hex h.lower
  · rw [canonicalChainId_prefixed, canonicalDigits, toLowerCase_lowerHex h.lower, h.leading]

theorem isBlockHash_iff {hash : String} : isBlockHash hash = true ↔
    ∃ ds, hash = .ofList ('0' :: 'x' :: ds) ∧ ds.all isHexDigit = true ∧ ds.length = 64 := by
  constructor
  · intro h
    rw [isBlockHash] at h
    split at h
    · rename_i ds hlist
      rw [Bool.and_eq_true, beq_iff_eq] at h
      exact ⟨ds, by rw [← hlist, String.ofList_toList], h.1, h.2⟩
    · cases h
  · rintro ⟨ds, rfl, hex, hlength⟩
    simp [isBlockHash, hex, hlength]

theorem canonicalHash_prefixed (ds : List Char) :
    canonicalHash (.ofList ('0' :: 'x' :: ds)) = .ofList ('0' :: 'x' :: toLowerCase ds) := by
  simp [canonicalHash, stripHexPrefix]

theorem canonicalHash_canonical {hash : String} (h : isBlockHash hash = true) :
    CanonicalHash (canonicalHash hash) := by
  obtain ⟨ds, rfl, hex, hlength⟩ := isBlockHash_iff.mp h
  have hlower := toLowerCase_hex hex
  rw [canonicalHash_prefixed]
  refine ⟨isBlockHash_iff.mpr ⟨_, rfl, lowerHex_hex hlower, by simpa [toLowerCase] using hlength⟩, ?_⟩
  rw [canonicalHash_prefixed, toLowerCase_lowerHex hlower]

/-- The digits of a canonical hash are in lower case. -/
theorem CanonicalHash.digits {hash : String} (h : CanonicalHash hash) :
    ∃ ds, hash = .ofList ('0' :: 'x' :: ds) ∧ ds.all isLowerHexDigit = true ∧ ds.length = 64 := by
  obtain ⟨ds, rfl, hex, hlength⟩ := isBlockHash_iff.mp h.1
  refine ⟨ds, rfl, ?_, hlength⟩
  have hcanonical := h.2
  rw [canonicalHash_prefixed, String.ofList_inj] at hcanonical
  have hsame := (List.cons.inj (List.cons.inj hcanonical).2).2
  rw [← hsame]
  exact toLowerCase_hex hex

-- ---------------------------------------------------------------------------
-- The reads
-- ---------------------------------------------------------------------------

def chainIdBytes : Nat := 4
def genesisBlockTag : String := "0x0"
def firstBlockTag : String := "0x1"

/-- What the answers of an endpoint do not fit together on. -/
inductive InconsistentAnswer
  | notABlock (tag typeOf : String)
  | hashMalformed (tag : String)
  | noGenesisBlock
  | chainIdDisagrees (chainId tail : String)
  deriving DecidableEq, Repr

def InconsistentAnswer.detail : InconsistentAnswer → String
  | .notABlock tag typeOf =>
    "eth_getBlockByNumber(" ++ tag ++ ") answered a " ++ typeOf ++ " rather than a " ++
      "block object or null"
  | .hashMalformed tag =>
    "eth_getBlockByNumber(" ++ tag ++ ") answered a block whose \"hash\" is not a " ++
      "32-byte hex value"
  | .noGenesisBlock =>
    "the endpoint reports no genesis block, so it is not serving a chain this " ++
      "plugin can identify"
  | .chainIdDisagrees chainId tail =>
    "eth_chainId reports " ++ chainId ++ " but the genesis block's hash ends in " ++
      tail ++ "; the chain id is the last four bytes of the genesis hash, so " ++
      "these two answers describe different chains"

inductive IdentityFailure
  | chain (failure : ChainFailure)
  | inconsistent (answer : InconsistentAnswer) (endpoint : String)

/-- A chain id in canonical form, of the last bytes of a hash. -/
def chainIdOfHash (hash : String) : String :=
  canonicalChainId (.ofList (hash.toList.drop (hash.toList.length - chainIdBytes * 2)))

theorem chainIdOfHash_digits {ds : List Char} (hlength : ds.length = 64) :
    chainIdOfHash (.ofList ('0' :: 'x' :: ds)) = canonicalChainId (.ofList (ds.drop 56)) := by
  simp [chainIdOfHash, chainIdBytes, hlength]

theorem chainIdOfHash_canonical {hash : String} (h : CanonicalHash hash) :
    CanonicalChainId (chainIdOfHash hash) := by
  obtain ⟨ds, rfl, lower, hlength⟩ := h.digits
  have hex : (ds.drop 56).all isHexDigit = true := by
    have := lowerHex_hex lower
    rw [List.all_eq_true] at this ⊢
    exact fun c hc => this c (List.mem_of_mem_drop hc)
  have hne : ds.drop 56 ≠ [] := by
    intro hnil
    have := congrArg List.length hnil
    simp [hlength] at this
  rw [chainIdOfHash_digits hlength, canonicalChainId_bare hex]
  exact (canonicalDigits_canonical hex hne).chainId

/-- The hash of an answered block; none where there is no such block. -/
def hashOfBlock (endpoint tag : String) (block : Value) :
    Except IdentityFailure (Option { hash : String // CanonicalHash hash }) :=
  match block with
  | .null => .ok none
  | block =>
    if block.isObjectLike then
      match block.peek "hash" with
      | .error raised => .error (.chain (.thrown raised))
      | .ok (.string hash) =>
        if h : isBlockHash hash = true then .ok (some ⟨canonicalHash hash, canonicalHash_canonical h⟩)
        else .error (.inconsistent (.hashMalformed tag) endpoint)
      | .ok _ => .error (.inconsistent (.hashMalformed tag) endpoint)
    else .error (.inconsistent (.notABlock tag block.typeOf) endpoint)

namespace RpcChannel

variable (channel : RpcChannel) (id : Nat)

def readBlockHash (tag : String) :
    Except IdentityFailure (Option { hash : String // CanonicalHash hash }) := do
  let block ← (channel.send id "eth_getBlockByNumber" [.string tag, .boolean false]).mapError .chain
  hashOfBlock channel.endpoint tag block

def readChainInstanceIdentity : Except IdentityFailure ChainInstanceIdentity := do
  let reply ← (channel.send id "eth_chainId" []).mapError .chain
  let chainId := canonicalChainId (← (requireResultShape "eth_chainId" reply).mapError .chain)
  match ← channel.readBlockHash (id + 1) genesisBlockTag with
  | none => .error (.inconsistent .noGenesisBlock channel.endpoint)
  | some genesisHash =>
    if h : chainIdOfHash genesisHash = chainId then
      let firstBlockHash ← channel.readBlockHash (id + 2) firstBlockTag
      return { chainId, genesisHash, firstBlockHash := firstBlockHash.map (·.1)
               observedThrough := channel.endpoint
               chainId_canonical := h ▸ chainIdOfHash_canonical genesisHash.2
               genesisHash_canonical := genesisHash.2
               firstBlockHash_canonical := by
                 intro hash hmem
                 obtain ⟨canonical, -, rfl⟩ := Option.map_eq_some_iff.mp hmem
                 exact canonical.2 }
    else .error (.inconsistent (.chainIdDisagrees chainId (chainIdOfHash genesisHash))
      channel.endpoint)

end RpcChannel

-- ---------------------------------------------------------------------------
-- What a node said
-- ---------------------------------------------------------------------------

/-- The reply carries this result and no error. -/
def RpcChannel.Answers (channel : RpcChannel) (id : Nat) (request : JsonRpcRequest)
    (result : Value) : Prop :=
  ∃ body, channel.poster id request = .ok body ∧ CarriesResult body result

def chainIdRequest : JsonRpcRequest := ⟨"eth_chainId", []⟩

def blockRequest (tag : String) : JsonRpcRequest :=
  ⟨"eth_getBlockByNumber", [.string tag, .boolean false]⟩

/-- What a block's answer gives: nothing for `null`, or the hash of an object. -/
inductive BlockHash : Value → Option { hash : String // CanonicalHash hash } → Prop
  | none : BlockHash .null none
  | some {block : Value} {hash : String} (object : block.isObjectLike = true)
      (read : block.peek "hash" = .ok (.string hash)) (h : isBlockHash hash = true) :
    BlockHash block (some ⟨canonicalHash hash, canonicalHash_canonical h⟩)

section
variable {channel : RpcChannel} {id : Nat} {tag : String} {identity : ChainInstanceIdentity}

theorem mapError_ok {ε ε' α : Type} {x : Except ε α} {f : ε → ε'} {a : α} :
    x.mapError f = .ok a ↔ x = .ok a := by
  cases x with
  | ok b => exact ⟨fun h => congrArg Except.ok (Except.ok.inj h), fun h => by cases h; rfl⟩
  | error e => exact ⟨by rintro ⟨⟩, by rintro ⟨⟩⟩

theorem send_block {block : Value} :
    channel.send id "eth_getBlockByNumber" [.string tag, .boolean false] = .ok block ↔
      channel.Answers id (blockRequest tag) block := by
  have policy : policyFor "eth_getBlockByNumber" = .accept := rfl
  have tags : blockTagVerdict "eth_getBlockByNumber" [.string tag, .boolean false] = .accept := rfl
  have shape : stringResultMethods "eth_getBlockByNumber" = none := rfl
  rw [RpcChannel.Answers, ← RpcChannel.post_result, RpcChannel.send, policy, tags, blockRequest]
  cases channel.post id ⟨"eth_getBlockByNumber", [.string tag, .boolean false]⟩ with
  | error thrown => exact ⟨by rintro ⟨⟩, by rintro ⟨⟩⟩
  | ok outcome =>
    cases outcome with
    | result result => simp [shape]
    | nodeError payload => simp
    | transportFailure cause => simp

theorem hashOfBlock_ok {endpoint : String} {block : Value}
    {found : Option { hash : String // CanonicalHash hash }} :
    hashOfBlock endpoint tag block = .ok found ↔ BlockHash block found := by
  constructor
  · intro h
    rw [hashOfBlock.eq_def] at h
    split at h
    · cases h
      exact .none
    split at h
    · rename_i object
      split at h
      · cases h
      · rename_i hash read
        split at h
        · rename_i hhash
          cases h
          exact .some object read hhash
        · cases h
      · cases h
    · cases h
  · intro h
    cases h with
    | none => rfl
    | @some block hash object read hhash =>
      cases block with
      | object callable instance? has get =>
        simp only [hashOfBlock, object, ite_true, read, hhash, dite_true]
      | _ => cases object

theorem readBlockHash_ok {found : Option { hash : String // CanonicalHash hash }} :
    channel.readBlockHash id tag = .ok found ↔
      ∃ block, channel.Answers id (blockRequest tag) block ∧ BlockHash block found := by
  simp only [RpcChannel.readBlockHash, Checks.bind_ok, mapError_ok, send_block, hashOfBlock_ok]

theorem chainIdForwarded : Forwarded "eth_chainId" []
    ⟨"a 0x-prefixed hex quantity that parses to a positive integer", isChainId⟩ where
  policy := rfl
  tag := rfl
  shape := rfl

theorem mapError_bind_ok {α β ε ε' : Type} {x : Except ε α} {f : α → Except ε β} {g : ε → ε'}
    {b : β} : (∃ a, x.mapError g = .ok a ∧ (f a).mapError g = .ok b) ↔ (x >>= f) = .ok b := by
  simp only [mapError_ok, Checks.bind_ok]

/-- What an identity is read from: the chain id as it was answered, and two blocks. -/
structure IdentityOf (channel : RpcChannel) (id : Nat) (identity : ChainInstanceIdentity)
    (text : String) (genesis first : Value) : Prop where
  chainId : channel.Says id chainIdRequest text
  accepted : isChainId text = true
  genesisBlock : channel.Answers (id + 1) (blockRequest genesisBlockTag) genesis
  firstBlock : channel.Answers (id + 2) (blockRequest firstBlockTag) first
  genesisHash : ∃ found, BlockHash genesis (some found) ∧ identity.genesisHash = found.1
  firstBlockHash : ∃ found, BlockHash first found ∧ identity.firstBlockHash = found.map (·.1)
  tail : chainIdOfHash identity.genesisHash = canonicalChainId text
  canonical : identity.chainId = canonicalChainId text
  endpoint : identity.observedThrough = channel.endpoint

theorem readChainInstanceIdentity_ok :
    channel.readChainInstanceIdentity id = .ok identity ↔
      ∃ text genesis first, IdentityOf channel id identity text genesis first := by
  simp only [RpcChannel.readChainInstanceIdentity, Checks.bind_ok]
  constructor
  · rintro ⟨reply, hreply, text, htext, genesis?, hgenesis, h⟩
    obtain ⟨hsaid, haccepted⟩ := (RpcChannel.shaped_ok chainIdForwarded).mp
      (mapError_bind_ok.mp ⟨reply, hreply, htext⟩)
    obtain ⟨genesis, hblock, hhash⟩ := readBlockHash_ok.mp hgenesis
    cases genesis? with
    | none => cases h
    | some genesisHash =>
      simp only at h
      split at h
      · rename_i htail
        obtain ⟨first?, hfirst, h⟩ := Checks.bind_ok.mp h
        obtain ⟨first, hfirst, hfirstHash⟩ := readBlockHash_ok.mp hfirst
        cases h
        exact ⟨text, genesis, first, hsaid, haccepted, hblock, hfirst, ⟨genesisHash, hhash, rfl⟩,
          ⟨first?, hfirstHash, rfl⟩, htail, rfl, rfl⟩
      · cases h
  · rintro ⟨text, genesis, first, h⟩
    obtain ⟨hsaid, haccepted, hgenesis, hfirst, ⟨genesisHash, hhash, hg⟩, ⟨first?, hfirstHash, hf⟩,
      htail, hc, he⟩ := h
    obtain ⟨reply, hreply, htext⟩ := mapError_bind_ok.mpr
      ((RpcChannel.shaped_ok chainIdForwarded).mpr ⟨hsaid, haccepted⟩)
    refine ⟨reply, hreply, text, htext, some genesisHash, readBlockHash_ok.mpr ⟨genesis, hgenesis, hhash⟩, ?_⟩
    obtain ⟨⟨chainId, genesisText, firstText⟩, endpoint, _, _, _⟩ := identity
    simp only at hg hf htail hc he
    subst hg hf hc he
    simp only [htail, dite_true]
    rw [Checks.bind_ok]
    exact ⟨first?, readBlockHash_ok.mpr ⟨first, hfirst, hfirstHash⟩, rfl⟩

theorem parseHex_pos_iff {ds : List Char} (h : ds.all isHexDigit = true) :
    0 < parseHex ds ↔ ∃ c ∈ ds, c ≠ '0' := by
  rw [List.all_eq_true] at h
  constructor
  · intro hpos
    refine Classical.byContradiction fun hno => ?_
    simp only [not_exists, not_and, ne_eq, Classical.not_not] at hno
    have hzero : parseHex ds = 0 := by
      clear h hpos
      induction ds with
      | nil => rfl
      | cons c ds ih =>
        have hc : c = '0' := hno c List.mem_cons_self
        rw [parseHex_cons, ih fun d hd => hno d (List.mem_cons_of_mem c hd), hc]
        simp [hexDigitValue, isDigit]
    omega
  · rintro ⟨c, hc, hne⟩
    exact parseHex_pos ⟨c, hc, h c hc, hne⟩

theorem prefixedHex?_some {cs ds : List Char} : prefixedHex? cs = some ds ↔
    cs = '0' :: 'x' :: ds ∧ ds.all isHexDigit = true := by
  constructor
  · intro h
    rw [prefixedHex?.eq_def] at h
    split at h
    · split at h
      · cases h
        exact ⟨rfl, ‹_›⟩
      · cases h
    · cases h
  · rintro ⟨rfl, hex⟩
    simp [prefixedHex?, hex]

theorem hexQuantity?_some {text : String} {ds : List Char} : hexQuantity? text = some ds ↔
    text.toList = '0' :: 'x' :: ds ∧ ds.all isHexDigit = true ∧ 1 ≤ ds.length ∧ ds.length ≤ 64 := by
  rw [hexQuantity?]
  cases h : prefixedHex? text.toList with
  | none =>
    refine ⟨by rintro ⟨⟩, ?_⟩
    rintro ⟨hlist, hex, -⟩
    rw [prefixedHex?_some.mpr ⟨hlist, hex⟩] at h
    cases h
  | some digits =>
    obtain ⟨hlist, hex⟩ := prefixedHex?_some.mp h
    by_cases hlength : 1 ≤ digits.length ∧ digits.length ≤ 64
    · simp only [hlength, and_self, ite_true, Option.some.injEq]
      constructor
      · rintro rfl
        exact ⟨hlist, hex, hlength⟩
      · rintro ⟨hlist', -, -⟩
        rw [hlist] at hlist'
        exact (List.cons.inj (List.cons.inj hlist').2).2
    · simp only [hlength, ite_false]
      refine ⟨by rintro ⟨⟩, ?_⟩
      rintro ⟨hlist', -, hlength'⟩
      rw [hlist] at hlist'
      cases (List.cons.inj (List.cons.inj hlist').2).2
      exact absurd hlength' hlength

/-- The shape of a chain id, and that it spells a positive integer. -/
theorem isChainId_iff {text : String} : isChainId text = true ↔
    ∃ cs, text = .ofList ('0' :: 'x' :: cs) ∧ cs.all isHexDigit = true ∧ cs.length ≤ 64 ∧
      0 < parseHex cs := by
  constructor
  · intro h
    rw [isChainId] at h
    split at h
    · rename_i cs hcs
      obtain ⟨hlist, hex, -, hlength⟩ := hexQuantity?_some.mp hcs
      refine ⟨cs, by rw [← hlist, String.ofList_toList], hex, hlength, (parseHex_pos_iff hex).mpr ?_⟩
      simpa using h
    · cases h
  · rintro ⟨cs, rfl, hex, hlength, hpos⟩
    have hnonzero := (parseHex_pos_iff hex).mp hpos
    obtain ⟨c, hc, -⟩ := hnonzero
    have hsome : hexQuantity? (.ofList ('0' :: 'x' :: cs)) = some cs :=
      hexQuantity?_some.mpr ⟨String.toList_ofList, hex, List.length_pos_of_mem hc, hlength⟩
    rw [isChainId, hsome]
    simpa using (parseHex_pos_iff hex).mp hpos

-- ---------------------------------------------------------------------------
-- Replies that are spelled otherwise
-- ---------------------------------------------------------------------------

/-- The same block, or one whose hash differs in the case of its hex letters. -/
inductive SameBlock : Value → Value → Prop
  | same (block : Value) : SameBlock block block
  | recased {block block' : Value} {ds ds' : List Char} (object : block'.isObjectLike = true)
      (hash : block.peek "hash" = .ok (.string (.ofList ('0' :: 'x' :: ds))))
      (hash' : block'.peek "hash" = .ok (.string (.ofList ('0' :: 'x' :: ds'))))
      (hex : ds'.all isHexDigit = true) (lower : toLowerCase ds' = toLowerCase ds) :
    SameBlock block block'

/-- Two nodes whose replies differ in the case of hex letters, and in zeros
before the chain id. -/
structure SameReplies (channel : RpcChannel) (id : Nat) (channel' : RpcChannel) (id' : Nat)
    (cs cs' : List Char) : Prop where
  chainId : channel.Says id chainIdRequest (.ofList ('0' :: 'x' :: cs))
  chainId' : channel'.Says id' chainIdRequest (.ofList ('0' :: 'x' :: cs'))
  spelled : ∃ n n' ds ds', cs = List.replicate n '0' ++ ds ∧ cs' = List.replicate n' '0' ++ ds' ∧
    ds'.all isHexDigit = true ∧ toLowerCase ds' = toLowerCase ds
  genesis : ∃ block block', channel.Answers (id + 1) (blockRequest genesisBlockTag) block ∧
    channel'.Answers (id' + 1) (blockRequest genesisBlockTag) block' ∧ SameBlock block block'
  first : ∃ block block', channel.Answers (id + 2) (blockRequest firstBlockTag) block ∧
    channel'.Answers (id' + 2) (blockRequest firstBlockTag) block' ∧ SameBlock block block'

theorem BlockHash.recased {block block' : Value}
    {found : Option { hash : String // CanonicalHash hash }} (alike : SameBlock block block')
    (h : BlockHash block found) : BlockHash block' found := by
  cases alike with
  | same => exact h
  | @recased _ ds ds' object hash hash' hex lower =>
    cases h with
    | none => cases hash
    | @some _ text _ read hhash =>
      cases hash.symm.trans read
      obtain ⟨_, heq, -, hlength⟩ := isBlockHash_iff.mp hhash
      cases String.ofList_inj.mp heq
      have hhash' : isBlockHash (.ofList ('0' :: 'x' :: ds')) = true :=
        isBlockHash_iff.mpr ⟨ds', rfl, hex, (length_of_recased lower).trans hlength⟩
      have heq : (⟨canonicalHash _, canonicalHash_canonical hhash⟩ : { hash // CanonicalHash hash }) =
          ⟨canonicalHash _, canonicalHash_canonical hhash'⟩ := by
        rw [Subtype.mk.injEq, canonicalHash_prefixed, canonicalHash_prefixed, lower]
      rw [heq]
      exact .some object hash' hhash'

theorem RpcChannel.Answers.unique {request : JsonRpcRequest} {first second : Value}
    (hfirst : channel.Answers id request first) (hsecond : channel.Answers id request second) :
    first = second := by
  obtain ⟨body, hbody, carries⟩ := hfirst
  obtain ⟨_, hbody', carries'⟩ := hsecond
  cases hbody.symm.trans hbody'
  exact Except.ok.inj (carries.result.symm.trans carries'.result)

theorem RpcChannel.Says.unique {request : JsonRpcRequest} {text text' : String}
    (h : channel.Says id request text) (h' : channel.Says id request text') : text = text' := by
  have answers : channel.Answers id request (.string text) := h
  exact Js.Value.string.inj (answers.unique h')

theorem canonicalDigits_respelled {cs cs' : List Char} (hex : cs.all isHexDigit = true)
    (hpos : 0 < parseHex cs) (h : ∃ n n' ds ds', cs = List.replicate n '0' ++ ds ∧
      cs' = List.replicate n' '0' ++ ds' ∧ ds'.all isHexDigit = true ∧
      toLowerCase ds' = toLowerCase ds) :
    cs'.all isHexDigit = true ∧ canonicalDigits cs' = canonicalDigits cs := by
  obtain ⟨n, n', ds, ds', rfl, rfl, hex', lower⟩ := h
  have hzero : isHexDigit '0' = true := by decide
  have hlower (n : Nat) (ds : List Char) : toLowerCase (List.replicate n '0' ++ ds) =
      List.replicate n '0' ++ toLowerCase ds := by
    simp [toLowerCase, show Char.toLower '0' = '0' from by decide]
  have hne : toLowerCase ds ≠ [] := by
    intro hnil
    have hds : ds = [] := by simpa [toLowerCase] using hnil
    obtain ⟨c, hc, hne⟩ := (parseHex_pos_iff hex).mp hpos
    rw [hds, List.append_nil] at hc
    exact hne (List.eq_of_mem_replicate hc)
  refine ⟨by simp [List.all_append, hex', hzero], ?_⟩
  rw [canonicalDigits, canonicalDigits, hlower, hlower, lower, dropLeadingZeros_replicate _ hne,
    dropLeadingZeros_replicate _ hne]

/-- The respelled replies give the same instance, unless the chain id is padded
beyond sixty-four digits; then it is refused. -/
theorem readChainInstanceIdentity_respelled {channel' : RpcChannel} {id' : Nat} {cs cs' : List Char}
    (alike : SameReplies channel id channel' id' cs cs')
    (h : channel.readChainInstanceIdentity id = .ok identity) :
    (cs'.length ≤ 64 ∧ channel'.readChainInstanceIdentity id' =
      .ok { identity with observedThrough := channel'.endpoint }) ∨
    (64 < cs'.length ∧ ∃ failure, channel'.readChainInstanceIdentity id' = .error failure) := by
  obtain ⟨text, genesis, first, of⟩ := readChainInstanceIdentity_ok.mp h
  cases of.chainId.unique alike.chainId
  obtain ⟨_, heq, hex, -, hpos⟩ := isChainId_iff.mp of.accepted
  cases (List.cons.inj (List.cons.inj (String.ofList_inj.mp heq)).2).2
  obtain ⟨hex', hcanonical⟩ := canonicalDigits_respelled hex hpos alike.spelled
  by_cases hlength : cs'.length ≤ 64
  · refine .inl ⟨hlength, readChainInstanceIdentity_ok.mpr ?_⟩
    obtain ⟨block, genesis', hblock, hgenesis', hsame⟩ := alike.genesis
    cases hblock.unique of.genesisBlock
    obtain ⟨block, first', hblock, hfirst', hsame'⟩ := alike.first
    cases hblock.unique of.firstBlock
    have hid : canonicalChainId (.ofList ('0' :: 'x' :: cs')) =
        canonicalChainId (.ofList ('0' :: 'x' :: cs)) := by
      rw [canonicalChainId_prefixed, canonicalChainId_prefixed, hcanonical]
    have accepted : isChainId (.ofList ('0' :: 'x' :: cs')) = true :=
      isChainId_iff.mpr ⟨cs', rfl, hex', hlength, by
        rw [← parseHex_canonicalDigits hex', hcanonical, parseHex_canonicalDigits hex]
        exact hpos⟩
    obtain ⟨found, hfound, hg⟩ := of.genesisHash
    obtain ⟨found', hfound', hf⟩ := of.firstBlockHash
    exact ⟨_, genesis', first', alike.chainId', accepted, hgenesis', hfirst',
      ⟨found, hfound.recased hsame, hg⟩, ⟨found', hfound'.recased hsame', hf⟩,
      of.tail.trans hid.symm, of.canonical.trans hid.symm, rfl⟩
  · refine .inr ⟨Nat.lt_of_not_le hlength, ?_⟩
    cases hread : channel'.readChainInstanceIdentity id' with
    | error failure => exact ⟨failure, rfl⟩
    | ok identity' =>
      obtain ⟨text', _, _, of'⟩ := readChainInstanceIdentity_ok.mp hread
      cases of'.chainId.unique alike.chainId'
      obtain ⟨_, heq, -, hshort, -⟩ := isChainId_iff.mp of'.accepted
      cases (List.cons.inj (List.cons.inj (String.ofList_inj.mp heq)).2).2
      exact absurd hshort hlength

end

-- ---------------------------------------------------------------------------
-- The name of the record
-- ---------------------------------------------------------------------------

def manifestDefaultDir : String := ".openzeppelin"

/-- An empty value counts as unset. -/
def manifestDir (env : String → Option String) : String :=
  match env "MANIFEST_DEFAULT_DIR" with
  | some configured => if configured ≠ "" then configured else manifestDefaultDir
  | none => manifestDefaultDir

/-- `dir.replace(/\/+$/, '')` -/
def dropTrailingSlashes (dir : String) : String :=
  .ofList (dir.toList.reverse.dropWhile (· = '/')).reverse

def manifestPathFor (chainId : String) (env : String → Option String) :
    Except ChainFailure String := do
  let validated ← requireResultShape "eth_chainId" (.string chainId)
  let decimal := Js.nearest (parseHex (stripHexPrefix validated.toList))
  return dropTrailingSlashes (manifestDir env) ++ ("/unknown-" ++ Js.text decimal ++ ".json")

/-- What is read of an identity's chain id: the integer of the hash's last four
bytes, in canonical digits. -/
structure ChainNumber (identity : ChainInstanceIdentity) (n : Nat) : Prop where
  tail : identity.chainId = chainIdOfHash identity.genesisHash
  lastBytes : parseHex (identity.genesisHash.toList.drop (identity.genesisHash.toList.length - 8)) = n
  digits : ∃ ds, identity.chainId = .ofList ('0' :: 'x' :: ds) ∧ CanonicalDigits ds ∧
    ds.length ≤ 8 ∧ parseHex ds = n
  positive : 0 < n
  bounded : n < 2 ^ 32

section
variable {channel : RpcChannel} {id : Nat} {identity : ChainInstanceIdentity} {n : Nat}

theorem readChainInstanceIdentity_number (h : channel.readChainInstanceIdentity id = .ok identity) :
    ∃ n, ChainNumber identity n := by
  obtain ⟨text, genesis, first, of⟩ := readChainInstanceIdentity_ok.mp h
  obtain ⟨cs, rfl, hex, -, hpos⟩ := isChainId_iff.mp of.accepted
  obtain ⟨ds, hhash, lower, hlength⟩ := identity.genesisHash_canonical.digits
  have hextail : (ds.drop 56).all isHexDigit = true := by
    have := lowerHex_hex lower
    rw [List.all_eq_true] at this ⊢
    exact fun c hc => this c (List.mem_of_mem_drop hc)
  have htaillength : (ds.drop 56).length = 8 := by simp [hlength]
  have hne : ds.drop 56 ≠ [] := List.ne_nil_of_length_eq_add_one htaillength
  have htail : identity.chainId = .ofList ('0' :: 'x' :: canonicalDigits (ds.drop 56)) := by
    rw [of.canonical, ← of.tail, hhash, chainIdOfHash_digits hlength, canonicalChainId_bare hextail]
  have hsame : canonicalDigits (ds.drop 56) = canonicalDigits cs := by
    have := htail.symm.trans (of.canonical.trans (canonicalChainId_prefixed cs))
    exact (List.cons.inj (List.cons.inj (String.ofList_inj.mp this)).2).2
  have hbound := parseHex_lt hextail
  rw [htaillength] at hbound
  refine ⟨parseHex (ds.drop 56), of.canonical.trans of.tail.symm, ?_,
    ⟨_, htail, canonicalDigits_canonical hextail hne, ?_, parseHex_canonicalDigits hextail⟩, ?_, hbound⟩
  · rw [hhash]
    simp [hlength]
  · have hshort := dropLeadingZeros_length_le (toLowerCase (ds.drop 56))
    rwa [toLowerCase, List.length_map, htaillength] at hshort
  · rw [← parseHex_canonicalDigits hextail, hsame, parseHex_canonicalDigits hex]
    exact hpos

theorem ChainNumber.accepted (h : ChainNumber identity n) : isChainId identity.chainId = true := by
  obtain ⟨ds, hid, canonical, hlength, rfl⟩ := h.digits
  exact isChainId_iff.mpr ⟨ds, hid, lowerHex_hex canonical.lower, by omega, h.positive⟩

theorem ChainNumber.exact (h : ChainNumber identity n) : Js.nearest n = n ∧ Js.text n = toString n := by
  have hbound : n < 2 ^ 53 := Nat.lt_of_lt_of_le h.bounded (by decide)
  exact ⟨Js.nearest_exact hbound, Js.text_exact hbound⟩

theorem ChainNumber.manifestPathFor (h : ChainNumber identity n) (env : String → Option String) :
    Chain.manifestPathFor identity.chainId env =
      .ok (dropTrailingSlashes (manifestDir env) ++ ("/unknown-" ++ toString n ++ ".json")) := by
  have haccepted := (requireResultShape_ok chainIdForwarded.shape).mpr ⟨rfl, h.accepted⟩
  obtain ⟨ds, hid, -, -, hparse⟩ := h.digits
  rw [Chain.manifestPathFor, haccepted, hid, ← h.exact.2]
  simp only [String.toList_ofList, stripHexPrefix, hparse, h.exact.1, bind, Except.bind, pure,
    Except.pure]

/-- Chain ids are equal where the integers they spell are. -/
theorem ChainNumber.injective {identity' : ChainInstanceIdentity} {n' : Nat}
    (h : ChainNumber identity n) (h' : ChainNumber identity' n') :
    n = n' ↔ identity.chainId = identity'.chainId := by
  obtain ⟨ds, hid, canonical, -, rfl⟩ := h.digits
  obtain ⟨ds', hid', canonical', -, rfl⟩ := h'.digits
  rw [hid, hid', String.ofList_inj]
  constructor
  · intro heq
    rw [canonical.injective canonical' heq]
  · intro heq
    rw [(List.cons.inj (List.cons.inj heq).2).2]

end

end TronUpgrades.Chain
