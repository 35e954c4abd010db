import Mathlib.Algebra.Ring.Nat

/-!
# Integers as JavaScript numbers

The double nearest to an integer and the text of one. Both leave an integer
below `2 ^ 53` as it is. No integer here is as large as an infinity.
-/

namespace Js

/-- The multiples of `step` on either side of `n`, the closer first and of two as
close the one that is an even number of steps. -/
def around (step n : Nat) : Nat × Nat :=
  let below := n / step
  if 2 * (n % step) < step ∨ 2 * (n % step) = step ∧ below % 2 = 0 then
    (below * step, (below + 1) * step)
  else ((below + 1) * step, below * step)

/-- `𝔽(n)` -/
def nearest (n : Nat) : Nat := (around (2 ^ (n.log2 + 1 - 53)) n).1

/-- The shortest digits that are read as `n`, from so many zeros at their end on
downwards, with the number of those zeros. -/
def shortest (n : Nat) : Nat → Nat × Nat
  | 0 => (n, 0)
  | zeros + 1 =>
    let (closer, other) := around (10 ^ (zeros + 1)) n
    if nearest closer = n then (closer / 10 ^ (zeros + 1), zeros + 1)
    else if nearest other = n then (other / 10 ^ (zeros + 1), zeros + 1)
    else shortest n zeros

/-- `String(n)` -/
def text (n : Nat) : String :=
  if n < 2 ^ 53 then toString n
  else
    let (digits, zeros) := shortest n (toString n).length
    let spelled := (toString digits).toList
    if spelled.length + zeros ≤ 21 then .ofList (spelled ++ List.replicate zeros '0')
    else
      .ofList (spelled.take 1 ++ (if spelled.length = 1 then [] else '.' :: spelled.drop 1)) ++
        "e+" ++ toString (spelled.length + zeros - 1)

theorem around_one (n : Nat) : (around 1 n).1 = n := by
  simp [around, Nat.mod_one]

theorem nearest_exact {n : Nat} (h : n < 2 ^ 53) : nearest n = n := by
  have hlog : n.log2 + 1 - 53 = 0 := by
    by_cases hn : n = 0
    · subst hn
      decide
    · have := (Nat.log2_lt hn).mpr h
      omega
  rw [nearest, hlog]
  exact around_one n

theorem text_exact {n : Nat} (h : n < 2 ^ 53) : text n = toString n := by
  rw [text, if_pos h]

theorem toString_injective {m n : Nat} (h : toString m = toString n) : m = n := by
  rw [Nat.toString_eq_ofList_toDigits, Nat.toString_eq_ofList_toDigits, String.ofList_inj] at h
  rw [← Nat.ofDigitChars_ten_toDigits (n := m), h, Nat.ofDigitChars_ten_toDigits]

end Js
