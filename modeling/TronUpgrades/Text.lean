/-!
# Hex text

The text forms the plugins test by regular expression, over `List Char`:
hex digits, the `0x` spelling, and the two normal forms of the chain layer.
Leading zeros are dropped from a chain id and kept in a hash, whose width is
fixed.
-/

namespace TronUpgrades.Text

def isDigit (c : Char) : Bool := '0' ≤ c && c ≤ '9'

def isLowerHexLetter (c : Char) : Bool := 'a' ≤ c && c ≤ 'f'

def isUpperHexLetter (c : Char) : Bool := 'A' ≤ c && c ≤ 'F'

/-- `[0-9a-fA-F]` -/
def isHexDigit (c : Char) : Bool := isDigit c || isLowerHexLetter c || isUpperHexLetter c

/-- A hex digit that lower-casing leaves alone. -/
def isLowerHexDigit (c : Char) : Bool := isDigit c || isLowerHexLetter c

def toLowerCase (cs : List Char) : List Char := cs.map Char.toLower

/-- What follows a `0x` or `0X`, or the text itself. -/
def stripHexPrefix : List Char → List Char
  | '0' :: 'x' :: rest => rest
  | '0' :: 'X' :: rest => rest
  | cs => cs

/-- `replace(/^0+(?=.)/, '')`: no leading zero but the last character. -/
def dropLeadingZeros : List Char → List Char
  | '0' :: c :: rest => dropLeadingZeros (c :: rest)
  | cs => cs

def canonicalChainId (value : String) : String :=
  .ofList ('0' :: 'x' :: dropLeadingZeros (toLowerCase (stripHexPrefix value.toList)))

def canonicalHash (value : String) : String :=
  .ofList ('0' :: 'x' :: toLowerCase (stripHexPrefix value.toList))

/-- `/^0x[0-9a-fA-F]+$/` -/
def isHexQuantity (value : String) : Bool :=
  match value.toList with
  | '0' :: 'x' :: c :: rest => (c :: rest).all isHexDigit
  | _ => false

/-- `/^0x[0-9a-fA-F]{64}$/` -/
def isBlockHash (value : String) : Bool :=
  match value.toList with
  | '0' :: 'x' :: rest => rest.all isHexDigit && rest.length == 64
  | _ => false

def hexDigitValue (c : Char) : Nat :=
  if isDigit c then c.toNat - '0'.toNat
  else if isLowerHexLetter c then c.toNat - 'a'.toNat + 10
  else c.toNat - 'A'.toNat + 10

/-- The integer that hex digits spell. -/
def parseHex (digits : List Char) : Nat := digits.foldl (fun n c => 16 * n + hexDigitValue c) 0

/-- `text.includes(part)` -/
def occursIn (part : List Char) : List Char → Bool
  | [] => part.isEmpty
  | c :: text => part.isPrefixOf (c :: text) || occursIn part text

-- ---------------------------------------------------------------------------
-- Normal forms
-- ---------------------------------------------------------------------------

theorem toLower_lowerHexDigit {c : Char} (h : isLowerHexDigit c = true) : c.toLower = c := by
  have hn : ¬ (65 ≤ c.val ∧ c.val ≤ 90) := by
    simp only [isLowerHexDigit, isDigit, isLowerHexLetter, Bool.or_eq_true, Bool.and_eq_true,
      decide_eq_true_eq, Char.le_def] at h
    simp only [UInt32.le_iff_toNat_le] at h ⊢
    simp at h
    simp
    omega
  unfold Char.toLower
  split
  · rename_i hc
    exact absurd hc hn
  · rfl

theorem toLowerCase_lowerHex {cs : List Char} (h : cs.all isLowerHexDigit = true) :
    toLowerCase cs = cs := by
  rw [List.all_eq_true] at h
  exact (List.map_congr_left fun c hc => toLower_lowerHexDigit (h c hc)).trans (List.map_id _)

theorem stripHexPrefix_cons (cs : List Char) : stripHexPrefix ('0' :: 'x' :: cs) = cs := rfl

theorem dropLeadingZeros_replicate {cs : List Char} (n : Nat) (hne : cs ≠ []) :
    dropLeadingZeros (List.replicate n '0' ++ cs) = dropLeadingZeros cs := by
  induction n with
  | zero => rfl
  | succ n ih =>
    rw [List.replicate_succ, List.cons_append, ← ih]
    cases hrest : List.replicate n '0' ++ cs with
    | nil => exact absurd (List.append_eq_nil_iff.mp hrest).2 hne
    | cons c rest => rfl

-- ---------------------------------------------------------------------------
-- Letter case
-- ---------------------------------------------------------------------------

theorem length_of_recased {cs cs' : List Char} (h : toLowerCase cs' = toLowerCase cs) : cs'.length = cs.length := by
  simpa [toLowerCase] using congrArg List.length h

def toUpperCase (cs : List Char) : List Char := cs.map Char.toUpper

def hexDigits : List Char := "0123456789abcdefABCDEF".toList

/-- A literal is an `ofList` by definition; its characters are not to be decoded. -/
theorem toList_literal {s : String} {cs : List Char} (h : s = String.ofList cs) : s.toList = cs := by
  rw [h, String.toList_ofList]

/-- What a list of characters satisfies one by one. -/
theorem forall_mem_of_all {p : Char → Prop} [DecidablePred p] {cs : List Char}
    (h : cs.all (fun c => p c) = true) : ∀ c ∈ cs, p c := by
  simpa using h

theorem mem_hexDigits {c : Char} (h : isHexDigit c = true) : c ∈ hexDigits := by
  simp only [isHexDigit, isDigit, isLowerHexLetter, isUpperHexLetter, Bool.or_eq_true,
    Bool.and_eq_true, decide_eq_true_eq, Char.le_def, UInt32.le_iff_toNat_le] at h
  have hc : c = Char.ofNat c.val.toNat := (Char.ofNat_toNat c).symm
  rw [hc]
  generalize c.val.toNat = n at h
  have hn : n ∈ List.range' 48 10 ++ List.range' 97 6 ++ List.range' 65 6 := by
    simp at h ⊢
    omega
  have all : ∀ n ∈ List.range' 48 10 ++ List.range' 97 6 ++ List.range' 65 6,
      Char.ofNat n ∈ hexDigits := by decide
  exact all n hn

/-- What holds of the twenty-two hex digits one by one. -/
theorem isHexDigit_cases {p : Char → Prop} (h : ∀ c ∈ hexDigits, p c) {c : Char}
    (hc : isHexDigit c = true) : p c :=
  h c (mem_hexDigits hc)

theorem isLowerHexDigit_isHexDigit {c : Char} (h : isLowerHexDigit c = true) :
    isHexDigit c = true := by
  unfold isHexDigit
  unfold isLowerHexDigit at h
  rw [h]
  rfl

theorem lowerHex_hex {cs : List Char} (h : cs.all isLowerHexDigit = true) :
    cs.all isHexDigit = true := by
  rw [List.all_eq_true] at h ⊢
  exact fun c hc => isLowerHexDigit_isHexDigit (h c hc)

theorem toLowerCase_hex {cs : List Char} (h : cs.all isHexDigit = true) :
    (toLowerCase cs).all isLowerHexDigit = true := by
  have digit : ∀ c ∈ hexDigits, isLowerHexDigit c.toLower = true :=
    forall_mem_of_all (by decide)
  rw [List.all_eq_true] at h
  simp only [toLowerCase, List.all_map, List.all_eq_true, Function.comp]
  exact fun c hc => isHexDigit_cases digit (h c hc)

/-- Upper-casing changes no digit and leaves no letter in lower case. -/
theorem toUpperCase_hex {cs : List Char} (h : cs.all isHexDigit = true) :
    (toUpperCase cs).all isHexDigit = true ∧ toLowerCase (toUpperCase cs) = toLowerCase cs ∧
      (toUpperCase cs).any isLowerHexLetter = false := by
  have digit : ∀ c ∈ hexDigits, isHexDigit c.toUpper = true ∧ c.toUpper.toLower = c.toLower ∧
      isLowerHexLetter c.toUpper = false := forall_mem_of_all (by decide)
  rw [List.all_eq_true] at h
  have each := fun c hc => isHexDigit_cases digit (h c hc)
  refine ⟨?_, ?_, ?_⟩
  · simp only [toUpperCase, List.all_map, List.all_eq_true, Function.comp]
    exact fun c hc => (each c hc).1
  · simp only [toUpperCase, toLowerCase, List.map_map]
    exact List.map_congr_left fun c hc => (each c hc).2.1
  · simp only [toUpperCase, List.any_map, List.any_eq_false, Function.comp]
    exact fun c hc => by simp [(each c hc).2.2]

theorem lowerHex_noUpper {cs : List Char} (h : cs.all isLowerHexDigit = true) :
    cs.any isUpperHexLetter = false := by
  have digit : ∀ c ∈ hexDigits, isLowerHexDigit c = true → isUpperHexLetter c = false :=
    forall_mem_of_all (by decide)
  rw [List.all_eq_true] at h
  rw [List.any_eq_false]
  intro c hc
  simp [isHexDigit_cases digit (isLowerHexDigit_isHexDigit (h c hc)) (h c hc)]

end TronUpgrades.Text
