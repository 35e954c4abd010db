import Mathlib.Data.List.TakeWhile
import TronUpgrades.Keyed.Classes
import TronUpgrades.Tronbox.Deploy

/-!
# Placeholders in bytecode

A bytecode as hex text with fields of forty characters in it, each for a
library's address: hashed, or with the library's name padded by underscores.
What the scan makes of it is told from its layout.
-/

namespace TronUpgrades.Tronbox

open Text

-- ---------------------------------------------------------------------------
-- Layouts
-- ---------------------------------------------------------------------------

/-- A placeholder field. -/
inductive Placeholder
  | hashed (hash : List Char)
  | legacy (name : List Char)
  deriving DecidableEq

namespace Placeholder

def text : Placeholder → List Char
  | hashed hash => '_' :: '_' :: '$' :: (hash ++ ['$', '_', '_'])
  | legacy name => '_' :: '_' :: (name ++ List.replicate (38 - name.length) '_')

/-- What the field stands for: a library's hash, or its name. -/
def library : Placeholder → List Char
  | hashed hash => hash
  | legacy name => name

def isIdentifierChar (c : Char) : Bool :=
  ('A' ≤ c && c ≤ 'Z') || ('a' ≤ c && c ≤ 'z') || isDigit c || c == '_' || c == '$'

/-- A name that is longer has no placeholder. -/
def WellFormed : Placeholder → Prop
  | hashed hash => hash.length = 34 ∧ ∀ c ∈ hash, isHexDigit c = true
  | legacy name => (0 < name.length ∧ name.length ≤ 36) ∧ ∀ c ∈ name, isIdentifierChar c = true

/-- No name with an underscore or a dollar sign. -/
def Plain : Placeholder → Prop
  | hashed _ => True
  | legacy name => '_' ∉ name ∧ '$' ∉ name

def isLegacy : Placeholder → Bool
  | hashed _ => false
  | legacy _ => true

end Placeholder

/-- Hex text, and fields with the hex text behind each. -/
structure BytecodeLayout where
  hex : List Char
  fields : List (Placeholder × List Char)

def fieldsText (fields : List (Placeholder × List Char)) : List Char :=
  (fields.map fun field => field.1.text ++ field.2).flatten

namespace BytecodeLayout

def text (layout : BytecodeLayout) : List Char := layout.hex ++ fieldsText layout.fields

structure WellFormed (layout : BytecodeLayout) : Prop where
  hex : ∀ c ∈ layout.hex, isHexDigit c = true
  fields : ∀ field ∈ layout.fields, field.1.WellFormed ∧ ∀ c ∈ field.2, isHexDigit c = true

/-- The text of a bytecode, prefixed or not. -/
def Spells (layout : BytecodeLayout) (bytecode : String) : Prop :=
  bytecode.toList = layout.text ∨ bytecode.toList = '0' :: 'x' :: layout.text

end BytecodeLayout

/-- No legacy field stands directly before another. -/
def Separate : List (Placeholder × List Char) → Prop
  | [] => True
  | field :: rest => (field.1.isLegacy = true → field.2 = [] →
      ∀ next, rest.head? = some next → next.1.isLegacy = false) ∧ Separate rest

-- ---------------------------------------------------------------------------
-- The scans
-- ---------------------------------------------------------------------------

theorem hex_ne {c : Char} (h : isHexDigit c = true) : c ≠ '_' ∧ c ≠ '$' :=
  have each : ∀ c ∈ hexDigits, c ≠ '_' ∧ c ≠ '$' := forall_mem_of_all (by decide)
  isHexDigit_cases each h

theorem hashedPlaceholder?_not {c : Char} (h : c ≠ '_') (rest : List Char) :
    hashedPlaceholder? (c :: rest) = none := by
  unfold hashedPlaceholder?
  split
  · rename_i heq
    exact absurd (List.cons.inj heq).1 h
  · rfl

theorem legacyPlaceholder?_not {c : Char} (h : c ≠ '_') (rest : List Char) :
    legacyPlaceholder? (c :: rest) = none := by
  unfold legacyPlaceholder?
  split
  · rename_i heq
    exact absurd (List.cons.inj heq).1 h
  · rfl

/-- A hashed field is blanked by zeros, forty of them. -/
def blanked : Placeholder → List Char
  | .hashed hash => List.replicate (hash.length + 6) '0'
  | .legacy name => (Placeholder.legacy name).text

def blankedText (fields : List (Placeholder × List Char)) : List Char :=
  (fields.map fun field => blanked field.1 ++ field.2).flatten

def hashes : List (Placeholder × List Char) → List String
  | [] => []
  | (.hashed hash, _) :: rest => .ofList hash :: hashes rest
  | (.legacy _, _) :: rest => hashes rest

def legacyNames : List (Placeholder × List Char) → List String
  | [] => []
  | (.hashed _, _) :: rest => legacyNames rest
  | (.legacy name, _) :: rest => .ofList name :: legacyNames rest

/-- Text that begins no hashed field is passed. -/
theorem scanHashed_pass {text rest : List Char} {fuel : Nat}
    (h : ∀ before after, text = before ++ after → after ≠ [] →
      hashedPlaceholder? (after ++ rest) = none) :
    scanHashed (fuel + text.length) (text ++ rest) =
      ((scanHashed fuel rest).1, text ++ (scanHashed fuel rest).2) := by
  induction text with
  | nil => rfl
  | cons c text ih =>
    have hhere := h [] (c :: text) rfl (List.cons_ne_nil _ _)
    rw [List.cons_append] at hhere
    have hrest := ih fun before after htext hafter =>
      h (c :: before) after (by rw [htext, List.cons_append]) hafter
    rw [List.length_cons, ← Nat.add_assoc, List.cons_append, scanHashed, hhere, hrest]
    rfl

theorem scanLegacy_pass {text rest : List Char} {fuel : Nat} (h : ∀ c ∈ text, c ≠ '_') :
    scanLegacy (fuel + text.length) (text ++ rest) = scanLegacy fuel rest := by
  induction text with
  | nil => rfl
  | cons c text ih =>
    obtain ⟨hc, htext⟩ := List.forall_mem_cons.mp h
    rw [List.length_cons, ← Nat.add_assoc, List.cons_append, scanLegacy,
      legacyPlaceholder?_not hc]
    exact ih htext

/-- Nothing in a legacy field begins a hashed one: behind two underscores of it
stands no dollar sign. -/
theorem legacy_begins_no_hashed {name rest : List Char} (hname : '$' ∉ name)
    (hrest : rest.head? ≠ some '$') (hrest' : rest.tail.head? = some '$' → rest.head? ≠ some '_')
    {before after : List Char} (htext : (Placeholder.legacy name).text = before ++ after)
    (hafter : after ≠ []) : hashedPlaceholder? (after ++ rest) = none := by
  have hdollar : '$' ∉ after := by
    intro hmem
    have hmem : '$' ∈ (Placeholder.legacy name).text := htext ▸ List.mem_append_right _ hmem
    simp [Placeholder.text, hname] at hmem
  unfold hashedPlaceholder?
  split
  · rename_i more heq
    exfalso
    rcases after with _ | ⟨c, _ | ⟨c', _ | ⟨c'', after⟩⟩⟩
    · exact hafter rfl
    · have hmore : rest = '_' :: '$' :: more := (List.cons.inj heq).2
      rw [hmore] at hrest'
      exact hrest' rfl rfl
    · have hmore : rest = '$' :: more := (List.cons.inj (List.cons.inj heq).2).2
      rw [hmore] at hrest
      exact hrest rfl
    · obtain ⟨rfl, -⟩ := List.cons.inj (List.cons.inj (List.cons.inj heq).2).2
      exact hdollar (by simp)
  · rfl

/-- What stands behind a field. -/
theorem fieldsText_head {hex : List Char} {fields : List (Placeholder × List Char)}
    (hhex : ∀ c ∈ hex, isHexDigit c = true) :
    (hex ++ fieldsText fields).head? ≠ some '$' ∧
      ((hex ++ fieldsText fields).tail.head? = some '$' →
        (hex ++ fieldsText fields).head? ≠ some '_') := by
  cases hex with
  | nil =>
    cases fields with
    | nil => simp [fieldsText]
    | cons field rest =>
      obtain ⟨placeholder, hex⟩ := field
      cases placeholder <;> simp [fieldsText, Placeholder.text]
  | cons c hex =>
    have hc := hex_ne (hhex c List.mem_cons_self)
    simp [hc.1, hc.2]

theorem hashedPlaceholder?_hashed {hash : List Char}
    (h : (Placeholder.hashed hash).WellFormed) (rest : List Char) :
    hashedPlaceholder? ((Placeholder.hashed hash).text ++ rest) = some (hash, rest) := by
  have htake : (hash ++ ['$', '_', '_'] ++ rest).take hashedPlaceholderDigits = hash := by
    rw [List.append_assoc, List.take_append_of_le_length (by rw [h.1]; exact Nat.le_refl _),
      List.take_of_length_le (by rw [h.1]; exact Nat.le_refl _)]
  have hdrop : (hash ++ ['$', '_', '_'] ++ rest).drop hashedPlaceholderDigits =
      '$' :: '_' :: '_' :: rest := by
    rw [List.append_assoc, List.drop_append_of_le_length (by rw [h.1]; exact Nat.le_refl _),
      List.drop_of_length_le (by rw [h.1]; exact Nat.le_refl _)]
    rfl
  have hall : hash.all isHexDigit = true := List.all_eq_true.mpr h.2
  simp only [Placeholder.text, List.cons_append]
  rw [hashedPlaceholder?]
  simp only [htake, hdrop, h.1, hall]
  rfl

/-- Text in front of some fields is passed. -/
theorem scanHashed_front {front : List Char} {fields : List (Placeholder × List Char)}
    (hfront : ∀ before after, front = before ++ after → after ≠ [] →
      hashedPlaceholder? (after ++ fieldsText fields) = none)
    (hfields : ∀ fuel, (fieldsText fields).length ≤ fuel →
      scanHashed fuel (fieldsText fields) = (hashes fields, blankedText fields))
    {fuel : Nat} (hfuel : (front ++ fieldsText fields).length ≤ fuel) :
    scanHashed fuel (front ++ fieldsText fields) =
      (hashes fields, front ++ blankedText fields) := by
  rw [List.length_append] at hfuel
  obtain ⟨extra, rfl⟩ := Nat.exists_eq_add_of_le' (Nat.le_trans (Nat.le_add_right _ _) hfuel)
  rw [scanHashed_pass hfront, hfields extra (by omega)]

theorem hex_begins_no_hashed {hex rest : List Char} (h : ∀ c ∈ hex, isHexDigit c = true)
    {before after : List Char} (hhex : hex = before ++ after) (hafter : after ≠ []) :
    hashedPlaceholder? (after ++ rest) = none := by
  obtain ⟨c, more, rfl⟩ := List.exists_cons_of_ne_nil hafter
  exact hashedPlaceholder?_not (hex_ne (h c (by simp [hhex]))).1 _

/-- The first scan: the hashed fields, and the text with them blanked. -/
theorem scanHashed_fields {fields : List (Placeholder × List Char)}
    (h : ∀ field ∈ fields, (field.1.WellFormed ∧ field.1.Plain) ∧ ∀ c ∈ field.2, isHexDigit c = true) :
    ∀ fuel, (fieldsText fields).length ≤ fuel →
      scanHashed fuel (fieldsText fields) = (hashes fields, blankedText fields) := by
  induction fields with
  | nil =>
    intro fuel _
    cases fuel <;> rfl
  | cons field rest ih =>
    intro fuel hfuel
    obtain ⟨placeholder, hex⟩ := field
    obtain ⟨⟨⟨hwell, hplain⟩, hhex⟩, hrest⟩ := List.forall_mem_cons.mp h
    have htext : fieldsText ((placeholder, hex) :: rest) =
        placeholder.text ++ (hex ++ fieldsText rest) := List.append_assoc _ _ _
    have hblank : blankedText ((placeholder, hex) :: rest) =
        blanked placeholder ++ (hex ++ blankedText rest) := List.append_assoc _ _ _
    have hbehind : ∀ fuel, (hex ++ fieldsText rest).length ≤ fuel →
        scanHashed fuel (hex ++ fieldsText rest) = (hashes rest, hex ++ blankedText rest) :=
      fun fuel => scanHashed_front (fun _ _ => hex_begins_no_hashed hhex) (ih hrest)
    rw [htext] at hfuel ⊢
    rw [hblank]
    rw [List.length_append] at hfuel
    cases placeholder with
    | hashed hash =>
      have hstart := hashedPlaceholder?_hashed hwell (hex ++ fieldsText rest)
      simp only [Placeholder.text, List.cons_append, List.length_cons] at hfuel hstart ⊢
      obtain ⟨fuel, rfl⟩ := Nat.exists_eq_add_of_lt (Nat.lt_of_lt_of_le (by omega : 0 < _) hfuel)
      rw [Nat.zero_add] at hfuel ⊢
      rw [scanHashed, hstart]
      simp only
      rw [hbehind fuel (by omega)]
      rfl
    | legacy name =>
      have hlegacy : ∀ before after, (Placeholder.legacy name).text = before ++ after → after ≠ [] →
          hashedPlaceholder? (after ++ (hex ++ fieldsText rest)) = none :=
        fun _ _ => legacy_begins_no_hashed hplain.2 (fieldsText_head hhex).1 (fieldsText_head hhex).2
      obtain ⟨extra, rfl⟩ := Nat.exists_eq_add_of_le' (Nat.le_trans (Nat.le_add_right _ _) hfuel)
      rw [scanHashed_pass hlegacy, hbehind extra (by omega)]
      rfl

theorem plain_isLegacyNameChar {name : List Char} (h : (Placeholder.legacy name).WellFormed)
    (hplain : (Placeholder.legacy name).Plain) : ∀ c ∈ name, isLegacyNameChar c = true := by
  intro c hc
  have hidentifier := h.2 c hc
  have hne : c ≠ '_' ∧ c ≠ '$' := by
    refine ⟨?_, ?_⟩
    · rintro rfl
      exact hplain.1 hc
    · rintro rfl
      exact hplain.2 hc
  simp only [Placeholder.isIdentifierChar, beq_false_of_ne hne.1, beq_false_of_ne hne.2,
    Bool.or_false] at hidentifier
  simp [isLegacyNameChar, hidentifier]

/-- A plain name is read whole, where no further underscore follows its
padding. -/
theorem legacyPlaceholder?_legacy {name rest : List Char}
    (h : (Placeholder.legacy name).WellFormed) (hplain : (Placeholder.legacy name).Plain)
    (hrest : rest.head? ≠ some '_') :
    legacyPlaceholder? ((Placeholder.legacy name).text ++ rest) = some (name, rest) := by
  have hchars := plain_isLegacyNameChar h hplain
  obtain ⟨padding, hpadding⟩ : ∃ padding, 38 - name.length = padding + 1 :=
    ⟨37 - name.length, by have := h.1.2; omega⟩
  have hstop : isLegacyNameChar '_' = false := by decide
  have htake : (name ++ (List.replicate (padding + 1) '_' ++ rest)).takeWhile isLegacyNameChar =
      name := by
    rw [List.takeWhile_append_of_pos hchars, List.replicate_succ, List.cons_append,
      List.takeWhile_cons_of_neg (by simp [hstop]), List.append_nil]
  have hdrop : (name ++ (List.replicate (padding + 1) '_' ++ rest)).dropWhile isLegacyNameChar =
      List.replicate (padding + 1) '_' ++ rest := by
    rw [List.dropWhile_append_of_pos hchars, List.replicate_succ, List.cons_append,
      List.dropWhile_cons_of_neg (by simp [hstop])]
  have hafter : (List.replicate (padding + 1) '_' ++ rest).dropWhile (· == '_') = rest := by
    rw [List.dropWhile_append_of_pos (by simp)]
    cases rest with
    | nil => rfl
    | cons c rest =>
      have hc : c ≠ '_' := fun hc => hrest (by rw [hc]; rfl)
      exact List.dropWhile_cons_of_neg (by simpa using hc)
  have hne : name.isEmpty = false := by
    cases name with
    | nil => exact absurd h.1.1 (Nat.lt_irrefl _)
    | cons => rfl
  simp only [Placeholder.text, List.cons_append, List.append_assoc, hpadding]
  rw [legacyPlaceholder?]
  simp only [htake, hdrop, hafter, hne]
  rfl

/-- What stands behind a legacy field is no underscore. -/
theorem blankedText_head {hex : List Char} {fields : List (Placeholder × List Char)}
    (hhex : ∀ c ∈ hex, isHexDigit c = true)
    (hnext : hex = [] → ∀ next, fields.head? = some next → next.1.isLegacy = false) :
    (hex ++ blankedText fields).head? ≠ some '_' := by
  cases hex with
  | cons c hex => simpa using (hex_ne (hhex c List.mem_cons_self)).1
  | nil =>
    cases fields with
    | nil => simp [blankedText]
    | cons field rest =>
      obtain ⟨placeholder, hex⟩ := field
      have hlegacy := hnext rfl _ rfl
      cases placeholder with
      | hashed hash => simp [blankedText, blanked, List.replicate_succ]
      | legacy name => cases hlegacy

/-- The second scan: the names of the legacy fields. -/
theorem scanLegacy_fields {fields : List (Placeholder × List Char)}
    (h : ∀ field ∈ fields, (field.1.WellFormed ∧ field.1.Plain) ∧ ∀ c ∈ field.2, isHexDigit c = true)
    (hseparate : Separate fields) :
    ∀ fuel, (blankedText fields).length ≤ fuel →
      scanLegacy fuel (blankedText fields) = legacyNames fields := by
  induction fields with
  | nil =>
    intro fuel _
    cases fuel <;> rfl
  | cons field rest ih =>
    intro fuel hfuel
    obtain ⟨placeholder, hex⟩ := field
    obtain ⟨⟨⟨hwell, hplain⟩, hhex⟩, hrest⟩ := List.forall_mem_cons.mp h
    have hblank : blankedText ((placeholder, hex) :: rest) =
        blanked placeholder ++ (hex ++ blankedText rest) := List.append_assoc _ _ _
    have hbehind : ∀ fuel, (hex ++ blankedText rest).length ≤ fuel →
        scanLegacy fuel (hex ++ blankedText rest) = legacyNames rest := by
      intro fuel hfuel
      rw [List.length_append] at hfuel
      obtain ⟨extra, rfl⟩ := Nat.exists_eq_add_of_le' (Nat.le_trans (Nat.le_add_right _ _) hfuel)
      rw [scanLegacy_pass fun c hc => (hex_ne (hhex c hc)).1]
      exact ih hrest hseparate.2 extra (by omega)
    rw [hblank] at hfuel ⊢
    rw [List.length_append] at hfuel
    cases placeholder with
    | hashed hash =>
      obtain ⟨extra, rfl⟩ := Nat.exists_eq_add_of_le' (Nat.le_trans (Nat.le_add_right _ _) hfuel)
      rw [scanLegacy_pass, hbehind extra (by omega)]
      · rfl
      · intro c hc
        rw [List.eq_of_mem_replicate hc]
        decide
    | legacy name =>
      have hstart := legacyPlaceholder?_legacy hwell hplain
        (blankedText_head hhex (hseparate.1 rfl))
      simp only [blanked, Placeholder.text, List.cons_append, List.length_cons] at hfuel hstart ⊢
      obtain ⟨fuel, rfl⟩ := Nat.exists_eq_add_of_lt (Nat.lt_of_lt_of_le (by omega : 0 < _) hfuel)
      rw [Nat.zero_add] at hfuel ⊢
      rw [scanLegacy, hstart]
      simp only
      rw [hbehind fuel (by omega)]
      rfl

-- ---------------------------------------------------------------------------
-- Whole bytecodes
-- ---------------------------------------------------------------------------

/-- No name that is found has an underscore or a dollar sign in it. -/
def Unmarked (name : String) : Prop := ∀ c ∈ name.toList, c ≠ '_' ∧ c ≠ '$'

theorem unmarked_ofList {p : Char → Bool} (hp : ∀ c, p c = true → c ≠ '_' ∧ c ≠ '$')
    {chars : List Char} (h : ∀ c ∈ chars, p c = true) : Unmarked (.ofList chars) := by
  intro c hc
  rw [String.toList_ofList] at hc
  exact hp c (h c hc)

theorem hashedPlaceholder?_hex {text hash after : List Char}
    (h : hashedPlaceholder? text = some (hash, after)) : ∀ c ∈ hash, isHexDigit c = true := by
  unfold hashedPlaceholder? at h
  split at h
  · simp only at h
    split at h
    · split at h
      · rename_i hall
        cases h
        exact List.all_eq_true.mp (Bool.and_eq_true_iff.mp hall).2
      · cases h
    · cases h
  · cases h

theorem legacyPlaceholder?_name {text name after : List Char}
    (h : legacyPlaceholder? text = some (name, after)) : ∀ c ∈ name, isLegacyNameChar c = true := by
  unfold legacyPlaceholder? at h
  split at h
  · simp only at h
    split at h
    · cases h
    · cases h
      exact fun c hc => List.mem_takeWhile_imp hc
  · cases h

theorem legacy_ne {c : Char} (h : isLegacyNameChar c = true) : c ≠ '_' ∧ c ≠ '$' := by
  constructor
  · rintro rfl
    revert h
    decide
  · rintro rfl
    revert h
    decide

theorem scanHashed_unmarked (fuel : Nat) (text : List Char) :
    ∀ name ∈ (scanHashed fuel text).1, Unmarked name := by
  induction fuel generalizing text with
  | zero => exact fun _ h => absurd h List.not_mem_nil
  | succ fuel ih =>
    cases text with
    | nil => exact fun _ h => absurd h List.not_mem_nil
    | cons c text =>
      rw [scanHashed]
      split
      · rename_i hash after hstart
        refine List.forall_mem_cons.mpr ⟨?_, ih after⟩
        exact unmarked_ofList (fun _ => hex_ne) (hashedPlaceholder?_hex hstart)
      · exact ih text

theorem scanLegacy_unmarked (fuel : Nat) (text : List Char) :
    ∀ name ∈ scanLegacy fuel text, Unmarked name := by
  induction fuel generalizing text with
  | zero => exact fun _ h => absurd h List.not_mem_nil
  | succ fuel ih =>
    cases text with
    | nil => exact fun _ h => absurd h List.not_mem_nil
    | cons c text =>
      rw [scanLegacy]
      split
      · rename_i name after hstart
        refine List.forall_mem_cons.mpr ⟨?_, ih after⟩
        exact unmarked_ofList (fun _ => legacy_ne) (legacyPlaceholder?_name hstart)
      · exact ih text

/-- The names are those of the fields, each once, and there is one if there is
a field. -/
structure ExactNames (layout : BytecodeLayout) (names : List String) : Prop where
  nodup : names.Nodup
  mem : ∀ name, name ∈ names ↔ ∃ field ∈ layout.fields, name = .ofList field.1.library
  nonempty : names ≠ [] ↔ layout.fields ≠ []

theorem mem_hashes_legacyNames (fields : List (Placeholder × List Char)) (name : String) :
    name ∈ hashes fields ++ legacyNames fields ↔
      ∃ field ∈ fields, name = .ofList field.1.library := by
  induction fields with
  | nil => simp [hashes, legacyNames]
  | cons field rest ih =>
    obtain ⟨placeholder, hex⟩ := field
    rw [List.mem_append] at ih ⊢
    cases placeholder with
    | hashed hash => simp [hashes, legacyNames, Placeholder.library, or_assoc, ih]
    | legacy library => simp [hashes, legacyNames, Placeholder.library, or_left_comm, ih]

theorem stripLowerHexPrefix_spells {layout : BytecodeLayout} {bytecode : String}
    (h : layout.WellFormed) (hspells : layout.Spells bytecode) :
    stripLowerHexPrefix bytecode.toList = layout.text := by
  rcases hspells with hspells | hspells
  · rw [hspells]
    unfold stripLowerHexPrefix
    split
    · -- The text of a layout does not begin with the prefix.
      rename_i rest heq
      exfalso
      obtain ⟨hex, fields⟩ := layout
      have heq : hex ++ fieldsText fields = '0' :: 'x' :: rest := heq
      have hx : isHexDigit 'x' = false := by decide
      have hfields : ∀ c rest, fieldsText fields = c :: rest → c = '_' := by
        intro c rest hfields
        cases fields with
        | nil => cases hfields
        | cons field fields =>
          obtain ⟨placeholder, more⟩ := field
          cases placeholder <;> exact (List.cons.inj hfields).1.symm
      rcases hex with _ | ⟨c, _ | ⟨c', hex⟩⟩
      · exact absurd (hfields _ _ heq) (by decide)
      · exact absurd (hfields _ _ (List.cons.inj heq).2) (by decide)
      · obtain ⟨rfl, -⟩ := List.cons.inj (List.cons.inj heq).2
        have := h.hex 'x' (by simp)
        rw [hx] at this
        cases this
    · rfl
  · rw [hspells]
    rfl

/-- Where names are plain and no legacy field stands directly before another,
the names are exactly the fields'. -/
theorem exactNames_of_plain {layout : BytecodeLayout} {bytecode : String} (h : layout.WellFormed)
    (hspells : layout.Spells bytecode) (hplain : ∀ field ∈ layout.fields, field.1.Plain)
    (hseparate : Separate layout.fields) : ExactNames layout (linkedLibraryNames bytecode) := by
  obtain ⟨hex, fields⟩ := layout
  have hfields : ∀ field ∈ fields, (field.1.WellFormed ∧ field.1.Plain) ∧
      ∀ c ∈ field.2, isHexDigit c = true := fun field hfield =>
    ⟨⟨(h.fields field hfield).1, hplain field hfield⟩, (h.fields field hfield).2⟩
  have hnames : linkedLibraryNames bytecode = (hashes fields ++ legacyNames fields).eraseDups := by
    rw [linkedLibraryNames, stripLowerHexPrefix_spells h hspells]
    simp only [BytecodeLayout.text]
    rw [scanHashed_front (fun _ _ => hex_begins_no_hashed h.hex) (scanHashed_fields hfields)
      (Nat.le_refl _)]
    have hlength := @List.length_append _ hex (blankedText fields)
    simp only
    rw [hlength, Nat.add_comm, scanLegacy_pass (fun c hc => (hex_ne (h.hex c hc)).1),
      scanLegacy_fields hfields hseparate _ (Nat.le_refl _)]
  have hmem : ∀ name, name ∈ linkedLibraryNames bytecode ↔
      ∃ field ∈ fields, name = .ofList field.1.library := by
    intro name
    rw [hnames, List.mem_eraseDups, mem_hashes_legacyNames]
  refine ⟨hnames ▸ Keyed.nodup_eraseDups _, hmem, ?_⟩
  cases fields with
  | nil => simp [hnames, hashes, legacyNames]
  | cons field rest =>
    have := (hmem _).mpr ⟨field, List.mem_cons_self, rfl⟩
    simp [List.ne_nil_of_mem this]

/-- A name that is not plain is never found. -/
theorem plain_of_exactNames {layout : BytecodeLayout} {bytecode : String}
    (h : ExactNames layout (linkedLibraryNames bytecode)) :
    ∀ field ∈ layout.fields, field.1.Plain := by
  intro field hfield
  have hmem := (h.mem _).mpr ⟨field, hfield, rfl⟩
  have hunmarked : Unmarked (.ofList field.1.library) := by
    rw [linkedLibraryNames, List.mem_eraseDups, List.mem_append] at hmem
    rcases hmem with hmem | hmem
    · exact scanHashed_unmarked _ _ _ hmem
    · exact scanLegacy_unmarked _ _ _ hmem
  obtain ⟨placeholder, hex⟩ := field
  cases placeholder with
  | hashed hash => trivial
  | legacy name =>
    rw [Unmarked, String.toList_ofList] at hunmarked
    exact ⟨fun hmem => (hunmarked '_' hmem).1 rfl, fun hmem => (hunmarked '$' hmem).2 rfl⟩

theorem assertFullyLinked_iff {layout : BytecodeLayout} {bytecode : String} (h : layout.WellFormed)
    (hspells : layout.Spells bytecode) :
    assertFullyLinked bytecode = .ok () ↔ layout.fields = [] := by
  have htext := stripLowerHexPrefix_spells h hspells
  constructor
  · intro hok
    cases hfields : layout.fields with
    | nil => rfl
    | cons field rest =>
      -- Every field has an underscore.
      have hmem : '_' ∈ layout.text := by
        obtain ⟨placeholder, hex⟩ := field
        cases placeholder <;> simp [BytecodeLayout.text, hfields, fieldsText, Placeholder.text]
      unfold assertFullyLinked at hok
      simp only [htext] at hok
      split at hok
      · cases hok
      · rw [if_pos (by simpa using hmem)] at hok
        cases hok
  · intro hfields
    have hexact := exactNames_of_plain h hspells (by simp [hfields]) (by simp [hfields, Separate])
    have hnames : linkedLibraryNames bytecode = [] :=
      Decidable.byContradiction fun hne => hexact.nonempty.mp hne hfields
    have hmem : '_' ∉ layout.text := by
      intro hmem
      simp only [BytecodeLayout.text, hfields, fieldsText, List.map_nil, List.flatten_nil,
        List.append_nil] at hmem
      exact (hex_ne (h.hex _ hmem)).1 rfl
    unfold assertFullyLinked
    simp [hnames, htext, hmem]

/-- The scan finds exactly the fields' libraries where names have no underscore
and no dollar sign and no legacy field stands directly before another, and
never where a name has one; an assertion passes where there is no field. -/
theorem linkedLibraryNames_laws {layout : BytecodeLayout} {bytecode : String}
    (h : layout.WellFormed) (hspells : layout.Spells bytecode) :
    ((∀ field ∈ layout.fields, field.1.Plain) ∧ Separate layout.fields →
      ExactNames layout (linkedLibraryNames bytecode)) ∧
    (ExactNames layout (linkedLibraryNames bytecode) → ∀ field ∈ layout.fields, field.1.Plain) ∧
    (assertFullyLinked bytecode = .ok () ↔ layout.fields = []) :=
  ⟨fun hplain => exactNames_of_plain h hspells hplain.1 hplain.2, plain_of_exactNames,
    assertFullyLinked_iff h hspells⟩

/-- A field for `MathLib` in hex text. -/
def plainLayout : BytecodeLayout := ⟨['6', '0'], [(.legacy "MathLib".toList, ['6', '0'])]⟩

theorem legacy_wellFormed {name hex behind : List Char}
    (hhex : (∀ c ∈ hex, isHexDigit c = true) ∧ ∀ c ∈ behind, isHexDigit c = true)
    (hname : (Placeholder.legacy name).WellFormed) :
    BytecodeLayout.WellFormed ⟨hex, [(.legacy name, behind)]⟩ := by
  refine ⟨hhex.1, fun field hfield => ?_⟩
  cases List.mem_singleton.mp hfield
  exact ⟨hname, hhex.2⟩

theorem plainLayout_laws :
    ((∀ field ∈ plainLayout.fields, field.1.Plain) ∧ Separate plainLayout.fields →
      ExactNames plainLayout (linkedLibraryNames (.ofList plainLayout.text))) ∧
    (ExactNames plainLayout (linkedLibraryNames (.ofList plainLayout.text)) →
      ∀ field ∈ plainLayout.fields, field.1.Plain) ∧
    (assertFullyLinked (.ofList plainLayout.text) = .ok () ↔ plainLayout.fields = []) :=
  linkedLibraryNames_laws (legacy_wellFormed
      ⟨forall_mem_of_all (by decide), forall_mem_of_all (by decide)⟩
      ⟨by decide, forall_mem_of_all (by decide)⟩)
    (.inl (String.toList_ofList))

/-- A field for `Math_Lib`. -/
def underscoredLayout : BytecodeLayout := ⟨['6', '0'], [(.legacy "Math_Lib".toList, ['6', '0'])]⟩

/-- A field for `$Lib`. -/
def dollarLayout : BytecodeLayout := ⟨['6', '0'], [(.legacy "$Lib".toList, ['6', '0'])]⟩

/-- Fields for `A` and `B`, one directly behind the other. -/
def adjacentLayout : BytecodeLayout := ⟨['6', '0'], [(.legacy ['A'], []), (.legacy ['B'], ['6', '0'])]⟩

theorem names_misread :
    (underscoredLayout.WellFormed ∧
      linkedLibraryNames (.ofList underscoredLayout.text) =
        [.ofList ['M', 'a', 't', 'h'], .ofList ['6', '0']]) ∧
    (dollarLayout.WellFormed ∧
      linkedLibraryNames (.ofList dollarLayout.text) = [.ofList ['6', '0']]) ∧
    adjacentLayout.WellFormed ∧
      linkedLibraryNames (.ofList adjacentLayout.text) = [.ofList ['A'], .ofList ['6', '0']] := by
  have hhex : ∀ c ∈ ['6', '0'], isHexDigit c = true := forall_mem_of_all (by decide)
  refine ⟨⟨legacy_wellFormed ⟨hhex, hhex⟩ ⟨by decide, forall_mem_of_all (by decide)⟩, ?_⟩,
    ⟨legacy_wellFormed ⟨hhex, hhex⟩ ⟨by decide, forall_mem_of_all (by decide)⟩, ?_⟩, ⟨hhex, ?_⟩, ?_⟩
  · rw [linkedLibraryNames, String.toList_ofList]
    decide
  · rw [linkedLibraryNames, String.toList_ofList]
    decide
  · intro field hfield
    rcases List.mem_cons.mp hfield with rfl | hfield
    · exact ⟨⟨by decide, forall_mem_of_all (by decide)⟩, forall_mem_of_all (by decide)⟩
    · cases List.mem_singleton.mp hfield
      exact ⟨⟨by decide, forall_mem_of_all (by decide)⟩, hhex⟩
  · rw [linkedLibraryNames, String.toList_ofList]
    decide

end TronUpgrades.Tronbox
