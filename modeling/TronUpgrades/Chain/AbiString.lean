import TronUpgrades.Chain.Read
import TronUpgrades.Js.Number
import TronUpgrades.Js.Uri
import TronUpgrades.Radix.Numeral

/-!
# Strings in return data

`decodeAbiString` reads a `string` back from return data by its two head words.
`decodeAbiString_decodes`: it is the inverse of the encoding, and of anything
else it answers nothing or a text whose bytes are in the data.
-/

namespace TronUpgrades.Chain

open Text

-- ---------------------------------------------------------------------------
-- The decoder
-- ---------------------------------------------------------------------------

def abiWordHexChars : Nat := 64
def abiStringOffset : Nat := 32

/-- `data.replace(/^0x/, '')` -/
def withoutPrefix : List Char → List Char
  | '0' :: 'x' :: digits => digits
  | cs => cs

/-- `Number.parseInt(digits, 16)`, of digits. -/
def parseWord (digits : List Char) : Nat := Js.nearest (parseHex digits)

def decodeAbiString (data : String) : Except Js.Exception (Option String) :=
  let hex := withoutPrefix data.toList
  if hex.length < abiWordHexChars * 2 then .ok none
  else if parseWord (hex.take abiWordHexChars) ≠ abiStringOffset then .ok none
  else
    -- sixty-four digits are a finite number, and not a negative one
    let length := parseWord ((hex.take (abiWordHexChars * 2)).drop abiWordHexChars)
    let start := abiWordHexChars * 2
    let bytes := (hex.take (Js.nearest (start + length * 2))).drop start
    if bytes.length % 2 ≠ 0 then .ok none
    else
      match Js.decodeURIComponent (Js.percentEncoded bytes) with
      | .ok text => .ok (some text)
      | .error .uriError => .ok none
      | .error raised => .error raised

/-- `UPGRADE_INTERFACE_VERSION()` -/
def upgradeInterfaceVersionSelector : String := "0xad3cb1cc"

/-- What raises in the reader of the version. -/
inductive VersionFailure
  | chain (cause : ChainFailure)
  | raised (raised : Js.Exception)

def RpcChannel.readUpgradeInterfaceVersion (channel : RpcChannel) (id : Nat) (address : String) :
    Except VersionFailure (Option String) := do
  match ← (channel.tvmCallOptional id address upgradeInterfaceVersionSelector).mapError .chain with
  | .answered data => (decodeAbiString data).mapError .raised
  | .noAnswer _ => return none

-- ---------------------------------------------------------------------------
-- The encoding
-- ---------------------------------------------------------------------------

def abiWord (n : Nat) : List UInt8 := (Radix.numeral 256 32 n).map UInt8.ofNat

/-- `abi.encode(s)`: where the string is, how long, and it, filled up to words. -/
def abiEncode (s : String) : List UInt8 :=
  let bytes := Js.utf8 s.toList
  abiWord abiStringOffset ++ abiWord bytes.length ++ bytes ++
    List.replicate ((32 - bytes.length % 32) % 32) 0

/-- A string of the language: there are none longer. -/
abbrev JsString := {text : String // utf16Length text.toList < 2 ^ 53}

def HexDigits (data : String) (digits : List Char) : Prop :=
  data.toList = '0' :: 'x' :: digits ∧ digits.all isHexDigit = true

-- ---------------------------------------------------------------------------
-- Words
-- ---------------------------------------------------------------------------

section
variable {digits : List Char} {bytes : List UInt8}

theorem hexDigit?_of_isHexDigit {c : Char} (h : isHexDigit c = true) :
    Js.hexDigit? c = some (hexDigitValue c) ∧ hexDigitValue c < 16 := by
  have hall : ∀ c ∈ hexDigits, Js.hexDigit? c = some (hexDigitValue c) ∧ hexDigitValue c < 16 :=
    forall_mem_of_all (by decide)
  exact hall c (mem_hexDigits h)

theorem byte?_toNat {high low : Char} {byte : UInt8} (hhigh : isHexDigit high = true)
    (hlow : isHexDigit low = true) (h : Js.byte? high low = some byte) :
    byte.toNat = 16 * hexDigitValue high + hexDigitValue low := by
  obtain ⟨hh, hhlt⟩ := hexDigit?_of_isHexDigit hhigh
  obtain ⟨hl, hllt⟩ := hexDigit?_of_isHexDigit hlow
  simp only [Js.byte?, hh, hl, Option.bind_eq_bind, Option.bind_some, Option.pure_def,
    Option.some.injEq] at h
  subst h
  simp only [UInt8.toNat_ofNat']
  omega

/-- Digits spell the number that their bytes spell. -/
theorem parseHex_bytes (hhex : digits.all isHexDigit = true) (h : Js.hexBytes digits = some bytes) :
    parseHex digits = Radix.number 256 (bytes.map UInt8.toNat) := by
  suffices hfrom : ∀ n, digits.foldl (fun n c => 16 * n + hexDigitValue c) n =
      (bytes.map UInt8.toNat).foldl (fun n d => 256 * n + d) n from hfrom 0
  induction digits using Js.hexBytes.induct generalizing bytes with
  | case1 =>
    cases h
    exact fun _ => rfl
  | case2 high low rest ih =>
    obtain ⟨byte, rest', hbyte, hrest, rfl⟩ := Js.hexBytes_cons.mp h
    simp only [List.all_cons, Bool.and_eq_true] at hhex
    obtain ⟨hhigh, hlow, hhex⟩ := hhex
    intro n
    have hstep : 16 * (16 * n + hexDigitValue high) + hexDigitValue low = 256 * n + byte.toNat := by
      rw [byte?_toNat hhigh hlow hbyte]
      omega
    rw [List.foldl_cons, List.foldl_cons, hstep, List.map_cons, List.foldl_cons]
    exact ih hhex hrest _
  | case3 c => cases h

@[simp] theorem abiWord_length (n : Nat) : (abiWord n).length = 32 := by simp [abiWord]

theorem number_abiWord {n : Nat} (hn : n < 256 ^ 32) :
    Radix.number 256 ((abiWord n).map UInt8.toNat) = n := by
  have hbytes : (abiWord n).map UInt8.toNat = Radix.numeral 256 32 n := by
    rw [abiWord, List.map_map]
    refine (List.map_congr_left fun d hd => ?_).trans (List.map_id _)
    have hlt := Radix.numeral_lt (by decide) d hd
    simp only [Function.comp, UInt8.toNat_ofNat', id]
    exact Nat.mod_eq_of_lt hlt
  rw [hbytes, Radix.number_numeral hn]

/-- A word read back, as a number that the language has. -/
theorem parseWord_abiWord {n : Nat} (hn : n < 2 ^ 53) (hhex : digits.all isHexDigit = true)
    (h : Js.hexBytes digits = some (abiWord n)) : parseWord digits = n := by
  have hword : n < 256 ^ 32 := lt_of_lt_of_le hn (by decide)
  rw [parseWord, parseHex_bytes hhex h, number_abiWord hword]
  exact Js.nearest_exact hn

end

-- ---------------------------------------------------------------------------
-- The inverse of the encoding
-- ---------------------------------------------------------------------------

section
variable {s : String} {data : String} {digits : List Char}

theorem abiEncode_parts (s : String) :
    (abiEncode s).take 32 = abiWord abiStringOffset ∧
      ((abiEncode s).take 64).drop 32 = abiWord (Js.utf8 s.toList).length ∧
      ((abiEncode s).take (64 + (Js.utf8 s.toList).length)).drop 64 = Js.utf8 s.toList := by
  refine ⟨?_, ?_, ?_⟩
  · simp [abiEncode]
  · simp [abiEncode, List.take_append]
  · have hsplit : abiEncode s = (abiWord abiStringOffset ++ abiWord (Js.utf8 s.toList).length) ++
        (Js.utf8 s.toList ++ List.replicate ((32 - (Js.utf8 s.toList).length % 32) % 32) 0) := by
      simp [abiEncode]
    have hheads : (abiWord abiStringOffset ++ abiWord (Js.utf8 s.toList).length).length = 64 := by simp
    rw [hsplit, ← hheads, List.take_length_add_append, List.drop_left, List.take_left]

theorem length_le_utf16Length (cs : List Char) : cs.length ≤ utf16Length cs := by
  induction cs with
  | nil => exact Nat.le_refl 0
  | cons c cs ih =>
    simp only [utf16Length, List.map_cons, List.sum_cons, List.length_cons] at ih ⊢
    split <;> omega

/-- Data that is a string encodes one whose length the language can count. -/
theorem abiEncode_bounds (hdata : utf16Length data.toList < 2 ^ 53) (hdigits : HexDigits data digits)
    (hbytes : Js.hexBytes digits = some (abiEncode s)) :
    128 + 2 * (Js.utf8 s.toList).length ≤ digits.length ∧ digits.length < 2 ^ 53 := by
  have hlength := Js.hexBytes_even hbytes
  have hunits := length_le_utf16Length data.toList
  rw [hdigits.1, List.length_cons, List.length_cons, ← hdigits.1] at hunits
  simp only [abiEncode, List.length_append, abiWord_length, List.length_replicate] at hlength
  omega

theorem decodeAbiString_encoded (hdata : utf16Length data.toList < 2 ^ 53)
    (hdigits : HexDigits data digits) (hbytes : Js.hexBytes digits = some (abiEncode s)) :
    decodeAbiString data = .ok (some s) := by
  obtain ⟨hoffset, hlength, htext⟩ := abiEncode_parts s
  obtain ⟨hlong, hshort⟩ := abiEncode_bounds hdata hdigits hbytes
  obtain ⟨htoList, hhex⟩ := hdigits
  have hhexTake : ∀ n, (digits.take n).all isHexDigit = true := fun n =>
    List.all_eq_true.mpr fun c hc => List.all_eq_true.mp hhex c (List.mem_of_mem_take hc)
  have hhexDrop : ((digits.take 128).drop 64).all isHexDigit = true :=
    List.all_eq_true.mpr fun c hc => List.all_eq_true.mp (hhexTake 128) c (List.mem_of_mem_drop hc)
  -- the first word
  have hfirst := (Js.hexBytes_take_drop hbytes 32).1
  rw [hoffset] at hfirst
  have hfirst : parseWord (digits.take 64) = abiStringOffset :=
    parseWord_abiWord (by decide) (hhexTake 64) hfirst
  -- the second word
  have hsecond := (Js.hexBytes_take_drop (Js.hexBytes_take_drop hbytes 64).1 32).2
  rw [hlength] at hsecond
  have hsecond : parseWord ((digits.take 128).drop 64) = (Js.utf8 s.toList).length :=
    parseWord_abiWord (by omega) hhexDrop hsecond
  -- the string
  have hend : Js.nearest (128 + (Js.utf8 s.toList).length * 2) = 2 * (64 + (Js.utf8 s.toList).length) := by
    rw [Js.nearest_exact (by omega)]
    omega
  have hthird : Js.hexBytes ((digits.take (Js.nearest (128 + (Js.utf8 s.toList).length * 2))).drop 128) =
      some (Js.utf8 s.toList) := by
    have hcut := (Js.hexBytes_take_drop
      (Js.hexBytes_take_drop hbytes (64 + (Js.utf8 s.toList).length)).1 64).2
    rwa [htext, ← hend] at hcut
  have heven := Js.hexBytes_even hthird
  have hdecoded := Js.decodeURIComponent_ok.mpr
    ((Js.percentBytes_encoded (by omega)).trans hthird)
  have hfull : ¬ digits.length < 128 := by omega
  simp only [decodeAbiString, htoList, withoutPrefix, abiWordHexChars, Nat.reduceMul, hfull, if_false,
    hfirst, hsecond, ne_eq, not_true_eq_false]
  have hwhole : ¬ ¬ ((digits.take (Js.nearest (128 + (Js.utf8 s.toList).length * 2))).drop 128).length % 2 = 0 := by
    omega
  rw [if_neg hwhole, hdecoded]

/-- Nothing, or a text whose bytes are in the data, behind the two head words. -/
theorem decodeAbiString_total (hdigits : HexDigits data digits) :
    ∃ answer, decodeAbiString data = .ok answer ∧ ∀ s, answer = some s →
      abiWordHexChars * 2 ≤ digits.length ∧ ∃ text, text <+: digits.drop (abiWordHexChars * 2) ∧
        Js.hexBytes text = some (Js.utf8 s.toList) := by
  unfold decodeAbiString
  simp only [hdigits.1, withoutPrefix]
  split
  · exact ⟨none, rfl, by rintro _ ⟨⟩⟩
  rename_i hlong
  split
  · exact ⟨none, rfl, by rintro _ ⟨⟩⟩
  split
  · exact ⟨none, rfl, by rintro _ ⟨⟩⟩
  rename_i heven
  split
  · rename_i text htext
    refine ⟨some text, rfl, ?_⟩
    rintro _ ⟨⟩
    refine ⟨by omega, _, ?_, (Js.percentBytes_encoded (by omega)).symm.trans
      (Js.decodeURIComponent_ok.mp htext)⟩
    rw [List.drop_take]
    exact List.take_prefix _ _
  · exact ⟨none, rfl, by rintro _ ⟨⟩⟩
  · rename_i raised hne hraised
    exact absurd (Js.decodeURIComponent_error hraised) hne

end

/-- The reader of a version raises what the call raises and nothing else. -/
theorem RpcChannel.readUpgradeInterfaceVersion_error {channel : RpcChannel} {id : Nat} {address : String}
    {failure : VersionFailure} (h : channel.readUpgradeInterfaceVersion id address = .error failure) :
    ∃ cause, failure = .chain cause := by
  unfold RpcChannel.readUpgradeInterfaceVersion at h
  cases hcall : channel.tvmCallOptional id address upgradeInterfaceVersionSelector with
  | error cause =>
    rw [hcall] at h
    cases h
    exact ⟨cause, rfl⟩
  | ok outcome =>
    rw [hcall] at h
    cases outcome with
    | noAnswer because => cases h
    | answered data =>
      obtain ⟨digits, hdigits⟩ := isHexData_iff.mp (RpcChannel.tvmCallOptional_hex hcall)
      obtain ⟨answer, hanswer, -⟩ := decodeAbiString_total hdigits
      have hread : (decodeAbiString data).mapError VersionFailure.raised = .error failure := h
      rw [hanswer] at hread
      cases hread

/-- The decoder undoes the encoding, in whatever case its digits are, and makes
no text of data up. -/
theorem decodeAbiString_decodes :
    (∀ (s : String) (data : JsString) (digits : List Char), HexDigits data.1 digits →
      Js.hexBytes digits = some (abiEncode s) → decodeAbiString data.1 = .ok (some s)) ∧
    ∀ (data : String) (digits : List Char), HexDigits data digits →
      ∃ answer, decodeAbiString data = .ok answer ∧ ∀ s, answer = some s →
        abiWordHexChars * 2 ≤ digits.length ∧ ∃ text, text <+: digits.drop (abiWordHexChars * 2) ∧
          Js.hexBytes text = some (Js.utf8 s.toList) :=
  ⟨fun _ data _ hdigits hbytes => decodeAbiString_encoded data.2 hdigits hbytes,
    fun _ _ hdigits => decodeAbiString_total hdigits⟩

/-- Five bytes, filled up to a word. -/
def versionDigits : List Char :=
  List.replicate 62 '0' ++ ['2', '0'] ++ List.replicate 63 '0' ++ ['5'] ++
    ['3', '5', '2', 'e', '3', '0', '2', 'e', '3', '0'] ++ List.replicate 54 '0'

def versionData : JsString :=
  ⟨.ofList ('0' :: 'x' :: versionDigits), by rw [String.toList_ofList]; decide +kernel⟩

theorem versionData_decoded : decodeAbiString versionData.1 = .ok (some "5.0.0") := by
  have hdigits : HexDigits versionData.1 versionDigits := ⟨String.toList_ofList, by decide⟩
  exact decodeAbiString_decodes.1 "5.0.0" versionData versionDigits hdigits (by decide +kernel)

end TronUpgrades.Chain
