/-!
# Percent-encoded text

`decodeURIComponent` over texts of scalar values: an escape stands for one byte,
any other character for its own encoding, and the bytes are read as UTF-8 with
nothing let pass. A character begins with no continuation byte, so reading the
whole is reading each run of escapes by itself.
-/

namespace Js

inductive Exception
  | uriError | other
  deriving DecidableEq, Repr

def utf8 (text : List Char) : List UInt8 := text.flatMap String.utf8EncodeChar

/-- The text with this encoding, where there is one. -/
def decodeUtf8 (bytes : List UInt8) : Option String := String.fromUTF8? bytes.toByteArray

def hexDigit? (c : Char) : Option Nat :=
  if '0' ≤ c ∧ c ≤ '9' then some (c.toNat - '0'.toNat)
  else if 'a' ≤ c ∧ c ≤ 'f' then some (c.toNat - 'a'.toNat + 10)
  else if 'A' ≤ c ∧ c ≤ 'F' then some (c.toNat - 'A'.toNat + 10)
  else none

/-- The byte of two hex digits. -/
def byte? (high low : Char) : Option UInt8 := do
  let high ← hexDigit? high
  let low ← hexDigit? low
  return .ofNat (16 * high + low)

/-- The bytes of hex digits, two by two. -/
def hexBytes : List Char → Option (List UInt8)
  | [] => some []
  | high :: low :: rest => do
    let byte ← byte? high low
    let bytes ← hexBytes rest
    return byte :: bytes
  | [_] => none

def percentBytes : List Char → Option (List UInt8)
  | [] => some []
  | '%' :: high :: low :: rest => do
    let byte ← byte? high low
    let bytes ← percentBytes rest
    return byte :: bytes
  | c :: rest =>
    if c = '%' then none
    else do
      let bytes ← percentBytes rest
      return String.utf8EncodeChar c ++ bytes

def decodeURIComponent (text : List Char) : Except Exception String :=
  match (percentBytes text).bind decodeUtf8 with
  | some decoded => .ok decoded
  | none => .error .uriError

/-- `text.match(/../g)`, of a text without line breaks. -/
def pairs : List Char → List (List Char)
  | a :: b :: rest => [a, b] :: pairs rest
  | _ => []

/-- Each pair of digits as an escape. -/
def percentEncoded (digits : List Char) : List Char := (pairs digits).flatMap ('%' :: ·)

section
variable {digits rest : List Char} {bytes : List UInt8} {s : String} {high low : Char}

theorem toByteArray_utf8 (s : String) : s.toByteArray = (utf8 s.toList).toByteArray := by
  conv => lhs; rw [← String.ofList_toList (s := s)]
  exact String.toByteArray_ofList

/-- Only its own encoding is read as a text. -/
theorem decodeUtf8_eq_some : decodeUtf8 bytes = some s ↔ bytes = utf8 s.toList := by
  rw [← List.toByteArray_inj, ← toByteArray_utf8, decodeUtf8, String.fromUTF8?]
  constructor
  · intro h
    split at h
    · cases h
      rfl
    · cases h
  · intro h
    have hvalid : bytes.toByteArray.IsValidUTF8 := h ▸ s.isValidUTF8
    rw [dif_pos hvalid, Option.some.injEq, ← String.toByteArray_inj]
    exact h

theorem hexBytes_even (h : hexBytes digits = some bytes) : digits.length = 2 * bytes.length := by
  induction digits using hexBytes.induct generalizing bytes with
  | case1 =>
    cases h
    rfl
  | case2 high low rest ih =>
    simp only [hexBytes, Option.bind_eq_bind, Option.bind_eq_some_iff] at h
    obtain ⟨byte, -, bytes', hrest, heq⟩ := h
    cases heq
    have := ih hrest
    simp only [List.length_cons]
    omega
  | case3 c => cases h

theorem hexBytes_cons : hexBytes (high :: low :: rest) = some bytes ↔
    ∃ byte rest', byte? high low = some byte ∧ hexBytes rest = some rest' ∧ bytes = byte :: rest' := by
  simp only [hexBytes, Option.bind_eq_bind, Option.bind_eq_some_iff, Option.pure_def,
    Option.some.injEq]
  constructor
  · rintro ⟨byte, hbyte, rest', hrest, rfl⟩
    exact ⟨byte, rest', hbyte, hrest, rfl⟩
  · rintro ⟨byte, rest', hbyte, hrest, rfl⟩
    exact ⟨byte, hbyte, rest', hrest, rfl⟩

/-- So many bytes from the left are twice as many digits. -/
theorem hexBytes_take_drop (h : hexBytes digits = some bytes) (n : Nat) :
    hexBytes (digits.take (2 * n)) = some (bytes.take n) ∧
      hexBytes (digits.drop (2 * n)) = some (bytes.drop n) := by
  induction n generalizing digits bytes with
  | zero => exact ⟨rfl, h⟩
  | succ n ih =>
    cases digits using hexBytes.fun_cases with
    | case1 =>
      cases h
      exact ⟨rfl, rfl⟩
    | case2 high low rest =>
      obtain ⟨byte, rest', hbyte, hrest, rfl⟩ := hexBytes_cons.mp h
      obtain ⟨htake, hdrop⟩ := ih hrest
      exact ⟨hexBytes_cons.mpr ⟨byte, _, hbyte, htake, rfl⟩, hdrop⟩
    | case3 c => cases h

theorem percentBytes_escape (high low : Char) (rest : List Char) :
    percentBytes ('%' :: high :: low :: rest) =
      (byte? high low).bind fun byte => (percentBytes rest).bind fun bytes => some (byte :: bytes) := by
  rw [percentBytes]
  rfl

/-- Read back, the escapes of digits are the bytes of the digits. -/
theorem percentBytes_encoded (heven : digits.length % 2 = 0) :
    percentBytes (percentEncoded digits) = hexBytes digits := by
  induction digits using hexBytes.induct with
  | case1 => rfl
  | case2 high low rest ih =>
    have heven : rest.length % 2 = 0 := by
      simp only [List.length_cons] at heven
      omega
    have hcons : percentEncoded (high :: low :: rest) = '%' :: high :: low :: percentEncoded rest := rfl
    rw [hcons, percentBytes_escape, ih heven, hexBytes]
    rfl
  | case3 c => cases heven

/-- What raises is one kind of error. -/
theorem decodeURIComponent_error {text : List Char} {raised : Exception}
    (h : decodeURIComponent text = .error raised) : raised = .uriError := by
  unfold decodeURIComponent at h
  split at h <;> cases h
  rfl

theorem decodeURIComponent_ok {text : List Char} : decodeURIComponent text = .ok s ↔
    percentBytes text = some (utf8 s.toList) := by
  unfold decodeURIComponent
  constructor
  · intro h
    split at h
    · rename_i decoded hdecoded
      cases h
      obtain ⟨bytes, hbytes, hdecode⟩ := Option.bind_eq_some_iff.mp hdecoded
      rw [hbytes, decodeUtf8_eq_some.mp hdecode]
    · cases h
  · intro h
    have hdecode : decodeUtf8 (utf8 s.toList) = some s := decodeUtf8_eq_some.mpr rfl
    rw [h, Option.bind_some, hdecode]

end

end Js
