import Mathlib.Algebra.Ring.Nat
import Mathlib.Data.List.GetD
import Mathlib.Data.List.Induction
import Mathlib.Data.List.Nodup

/-!
# Numerals of a fixed width

Big-endian positional numerals, as digit lists and as text over an alphabet.
Over numbers below `b ^ w` and numerals of width `w`, writing and reading are
inverse to each other.
-/

namespace Radix

def number (b : Nat) (ds : List Nat) : Nat := ds.foldl (fun n d => b * n + d) 0

/-- The last `w` digits of `n`. -/
def numeral (b : Nat) : Nat → Nat → List Nat
  | 0, _ => []
  | w + 1, n => numeral b w (n / b) ++ [n % b]

section
variable {b w n : Nat}

@[simp] theorem numeral_length : (numeral b w n).length = w := by
  induction w generalizing n with
  | zero => rfl
  | succ w ih => simp [numeral, ih]

theorem numeral_lt (hb : 0 < b) : ∀ d ∈ numeral b w n, d < b := by
  induction w generalizing n with
  | zero => exact nofun
  | succ w ih =>
    intro d hd
    rcases List.mem_append.mp hd with hd | hd
    · exact ih d hd
    · obtain rfl := List.mem_singleton.mp hd
      exact Nat.mod_lt _ hb

theorem number_append (ds : List Nat) (d : Nat) : number b (ds ++ [d]) = b * number b ds + d := by
  simp [number]

theorem number_numeral (hn : n < b ^ w) : number b (numeral b w n) = n := by
  induction w generalizing n with
  | zero =>
    obtain rfl : n = 0 := by simpa using hn
    rfl
  | succ w ih =>
    have hdiv : n / b < b ^ w := Nat.div_lt_of_lt_mul (by rwa [Nat.pow_succ'] at hn)
    rw [numeral, number_append, ih hdiv]
    exact Nat.div_add_mod n b

theorem numeral_number {ds : List Nat} (h : ∀ d ∈ ds, d < b) :
    numeral b ds.length (number b ds) = ds := by
  induction ds using List.reverseRecOn with
  | nil => rfl
  | append_singleton ds d ih =>
    have hd : d < b := h d (by simp)
    have hds := ih fun d hd => h d (List.mem_append_left _ hd)
    have shifted : (b * number b ds + d) / b = number b ds ∧ (b * number b ds + d) % b = d := by
      constructor
      · rw [Nat.mul_add_div (by omega), Nat.div_eq_of_lt hd]
        rfl
      · rw [Nat.mul_add_mod]
        exact Nat.mod_eq_of_lt hd
    rw [number_append, List.length_append]
    simp only [List.length_singleton, numeral, shifted, hds]

theorem number_lt {ds : List Nat} (h : ∀ d ∈ ds, d < b) : number b ds < b ^ ds.length := by
  induction ds using List.reverseRecOn with
  | nil => simp [number]
  | append_singleton ds d ih =>
    have hd : d < b := h d (by simp)
    have hds := ih fun d hd => h d (List.mem_append_left _ hd)
    rw [number_append, List.length_append, List.length_singleton, Nat.pow_succ']
    calc b * number b ds + d < b * (number b ds + 1) := by rw [Nat.mul_add]; omega
      _ ≤ b * b ^ ds.length := Nat.mul_le_mul_left b hds

/-- The leading digit, and the rest as a shorter numeral. -/
theorem numeral_succ : numeral b (w + 1) n = n / b ^ w % b :: numeral b w n := by
  induction w generalizing n with
  | zero => simp [numeral]
  | succ w ih =>
    rw [numeral, ih, numeral, Nat.div_div_eq_div_mul, Nat.pow_succ', List.cons_append]

end

-- ---------------------------------------------------------------------------
-- Text
-- ---------------------------------------------------------------------------

structure Alphabet where
  chars : List Char
  nodup : chars.Nodup

namespace Alphabet

variable (A : Alphabet)

abbrev base : Nat := A.chars.length

def text (ds : List Nat) : List Char := ds.map fun d => A.chars.getD d ' '

def digits (cs : List Char) : List Nat := cs.map A.chars.idxOf

/-- The number of a text, and the text of a number in `w` characters. -/
def value (cs : List Char) : Nat := number A.base (A.digits cs)

def spell (w n : Nat) : List Char := A.text (numeral A.base w n)

section
variable {A} {w n : Nat} {cs : List Char} {ds : List Nat}

theorem digits_text (h : ∀ d ∈ ds, d < A.base) : A.digits (A.text ds) = ds := by
  simp only [digits, text, List.map_map]
  refine (List.map_congr_left fun d hd => ?_).trans (List.map_id ds)
  simp only [Function.comp, List.getD_eq_getElem _ _ (h d hd)]
  exact A.nodup.idxOf_getElem d (h d hd)

theorem text_digits (h : ∀ c ∈ cs, c ∈ A.chars) : A.text (A.digits cs) = cs := by
  simp only [digits, text, List.map_map]
  refine (List.map_congr_left fun c hc => ?_).trans (List.map_id cs)
  have hlt := List.idxOf_lt_length_of_mem (h c hc)
  simp only [Function.comp, List.getD_eq_getElem _ _ hlt]
  exact List.getElem_idxOf hlt

theorem digits_lt (h : ∀ c ∈ cs, c ∈ A.chars) : ∀ d ∈ A.digits cs, d < A.base := by
  intro d hd
  obtain ⟨c, hc, rfl⟩ := List.mem_map.mp hd
  exact List.idxOf_lt_length_of_mem (h c hc)

theorem text_mem (h : ∀ d ∈ ds, d < A.base) : ∀ c ∈ A.text ds, c ∈ A.chars := by
  intro c hc
  obtain ⟨d, hd, rfl⟩ := List.mem_map.mp hc
  rw [List.getD_eq_getElem _ _ (h d hd)]
  exact List.getElem_mem _

@[simp] theorem spell_length : (A.spell w n).length = w := by simp [spell, text]

theorem spell_mem (hb : 0 < A.base) : ∀ c ∈ A.spell w n, c ∈ A.chars :=
  text_mem (numeral_lt hb)

theorem value_spell (hb : 0 < A.base) (hn : n < A.base ^ w) : A.value (A.spell w n) = n := by
  unfold value spell
  rw [digits_text (numeral_lt hb), number_numeral hn]

theorem spell_value (h : ∀ c ∈ cs, c ∈ A.chars) : A.spell cs.length (A.value cs) = cs := by
  have hlength : cs.length = (A.digits cs).length := (List.length_map ..).symm
  unfold spell value
  rw [hlength, numeral_number (digits_lt h), text_digits h]

theorem value_lt (h : ∀ c ∈ cs, c ∈ A.chars) : A.value cs < A.base ^ cs.length := by
  have hlt := number_lt (digits_lt h)
  rwa [digits, List.length_map] at hlt

end

end Alphabet

end Radix
