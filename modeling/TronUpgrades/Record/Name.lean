import TronUpgrades.Chain.Identity
import TronUpgrades.Record.Location

/-!
# One name for the record

The path that a message names and the handle that is opened come from the same
integer, which no rounding has touched.
-/

namespace TronUpgrades.Record

open Effects Chain Text

variable {ρ : Type}

theorem requireChainId_number {identity : ChainInstanceIdentity} {n : Nat}
    (h : ChainNumber identity n) : requireChainId identity.chainId = .ok n := by
  obtain ⟨ds, hid, -, -, hparse⟩ := h.digits
  have haccepted := h.accepted
  rw [requireChainId, if_pos haccepted, hid]
  simp [hparse, h.exact.1]

theorem openRecordManifest_number {identity : ChainInstanceIdentity} {n : Nat}
    (h : ChainNumber identity n) :
    (openRecordManifest identity.chainId : RecordTask ρ String) = ask (.constructManifest n) := by
  rw [openRecordManifest, requireChainId_number h]
  rfl

/-- Every identity that is read names one record, and by nothing but its chain id;
`file` is the engine's name for a record. -/
theorem identity_names_record (file : Nat → String)
    (engine : ∀ n, file n = "unknown-" ++ Js.text n ++ ".json") :
    (∀ (channel : RpcChannel) (id : Nat) (identity : ChainInstanceIdentity),
      channel.readChainInstanceIdentity id = .ok identity → ∃ n, ChainNumber identity n ∧
        Js.nearest (parseHex (identity.chainId.toList.drop 2)) = n ∧
        parseHex (identity.chainId.toList.drop 2) = n ∧
        file n = "unknown-" ++ toString n ++ ".json" ∧
        (∀ env, manifestPathFor identity.chainId env =
          .ok (dropTrailingSlashes (manifestDir env) ++ ("/" ++ file n))) ∧
        (openRecordManifest identity.chainId : RecordTask ρ String) = ask (.constructManifest n)) ∧
    (∀ (channel channel' : RpcChannel) (id id' : Nat) (cs cs' : List Char)
      (identity : ChainInstanceIdentity), SameReplies channel id channel' id' cs cs' →
      channel.readChainInstanceIdentity id = .ok identity →
      (cs'.length ≤ 64 ∧ channel'.readChainInstanceIdentity id' =
        .ok { identity with observedThrough := channel'.endpoint }) ∨
      (64 < cs'.length ∧ ∃ failure, channel'.readChainInstanceIdentity id' = .error failure)) ∧
    ∀ (channel channel' : RpcChannel) (id id' : Nat) (identity identity' : ChainInstanceIdentity),
      channel.readChainInstanceIdentity id = .ok identity →
      channel'.readChainInstanceIdentity id' = .ok identity' →
      ∃ n n', requireChainId identity.chainId = .ok n ∧ requireChainId identity'.chainId = .ok n' ∧
        (file n = file n' ↔ identity.chainId = identity'.chainId) := by
  have named {identity : ChainInstanceIdentity} {n : Nat} (number : ChainNumber identity n) :
      file n = "unknown-" ++ toString n ++ ".json" := by
    rw [engine, number.exact.2]
  refine ⟨?_, ?_, ?_⟩
  · intro channel id identity h
    obtain ⟨n, number⟩ := readChainInstanceIdentity_number h
    obtain ⟨ds, hid, -, -, hparse⟩ := number.digits
    have hdigits : parseHex (identity.chainId.toList.drop 2) = n := by
      rw [hid, String.toList_ofList, ← hparse]
      rfl
    refine ⟨n, number, by rw [hdigits, number.exact.1], hdigits, named number, fun env => ?_,
      openRecordManifest_number number⟩
    rw [number.manifestPathFor, named number]
    have hslash : "/unknown-" = "/" ++ "unknown-" := rfl
    rw [hslash, String.append_assoc, String.append_assoc, String.append_assoc]
  · intro channel channel' id id' cs cs' identity alike h
    exact readChainInstanceIdentity_respelled alike h
  · intro channel channel' id id' identity identity' h h'
    obtain ⟨n, number⟩ := readChainInstanceIdentity_number h
    obtain ⟨n', number'⟩ := readChainInstanceIdentity_number h'
    refine ⟨n, n', requireChainId_number number, requireChainId_number number', ?_⟩
    rw [← number.injective number']
    refine ⟨fun heq => ?_, fun heq => by rw [heq]⟩
    rw [named number, named number', String.append_left_inj, String.append_right_inj] at heq
    exact Js.toString_injective heq

def paddedHash : List Char := List.replicate 61 '0' ++ ['0', 'a', '1']

/-- A node that answers its chain id in capitals and padded, and one hash. -/
def oneChain : RpcChannel where
  endpoint := "http://127.0.0.1:9090"
  poster id _ := .ok (.record [("id", .number "1"), ("result",
    if id = 0 then .string (.ofList ['0', 'x', '0', 'A', '1'])
    else .record [("hash", .string (.ofList ('0' :: 'x' :: paddedHash)))])])

theorem oneChain_read : ∃ identity, oneChain.readChainInstanceIdentity 0 = .ok identity := by
  have carries (result : Value) :
      CarriesResult (.record [("id", .number "1"), ("result", result)]) result :=
    ⟨rfl, ⟨.number "1", by simp [Js.Value.record, Js.Value.peek]⟩,
      ⟨.undefined, by simp [Js.Value.record, Js.Value.peek], rfl⟩,
      by simp [Js.Value.record, Js.Value.hasKey], by simp [Js.Value.record, Js.Value.peek]⟩
  have hash : isBlockHash (.ofList ('0' :: 'x' :: paddedHash)) = true :=
    isBlockHash_iff.mpr ⟨_, rfl, by decide, by decide⟩
  have block : BlockHash (.record [("hash", .string (.ofList ('0' :: 'x' :: paddedHash)))])
      (some ⟨_, canonicalHash_canonical hash⟩) :=
    .some rfl (by simp [Js.Value.record, Js.Value.peek]) hash
  have tail : chainIdOfHash (canonicalHash (.ofList ('0' :: 'x' :: paddedHash))) =
      canonicalChainId (.ofList ['0', 'x', '0', 'A', '1']) := by
    rw [canonicalHash_prefixed, toLowerCase_lowerHex (by decide), chainIdOfHash_digits (by decide),
      canonicalChainId_bare (by decide), canonicalChainId_prefixed,
      show canonicalDigits (paddedHash.drop 56) = canonicalDigits ['0', 'A', '1'] by decide]
  refine ⟨⟨⟨_, _, some _⟩, _, chainIdOfHash_canonical (canonicalHash_canonical hash),
    canonicalHash_canonical hash, ?_⟩, readChainInstanceIdentity_ok.mpr ⟨_, _, _,
    ⟨_, rfl, carries _⟩, isChainId_iff.mpr ⟨_, rfl, by decide, by decide, by decide⟩,
    ⟨_, rfl, carries _⟩, ⟨_, rfl, carries _⟩, ⟨_, block, rfl⟩, ⟨_, block, rfl⟩, tail, tail, rfl⟩⟩
  rintro _ ⟨⟩
  exact canonicalHash_canonical hash

/-- Read of that node, the chain id names one record wherever it is printed or opened. -/
theorem oneChain_named : ∃ identity, oneChain.readChainInstanceIdentity 0 = .ok identity ∧
    ∃ n, manifestPathFor identity.chainId (fun _ => none) =
        .ok (dropTrailingSlashes ".openzeppelin" ++ ("/" ++ ("unknown-" ++ Js.text n ++ ".json"))) ∧
      (openRecordManifest identity.chainId : RecordTask Unit String) =
        ask (.constructManifest n) := by
  obtain ⟨identity, h⟩ := oneChain_read
  obtain ⟨n, -, -, -, -, path, opened⟩ :=
    (identity_names_record (fun n => "unknown-" ++ Js.text n ++ ".json") fun _ => rfl).1
      oneChain 0 identity h
  exact ⟨identity, h, n, path fun _ => none, opened⟩

end TronUpgrades.Record
