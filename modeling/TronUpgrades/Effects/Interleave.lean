import TronUpgrades.Effects.World
import Mathlib.Logic.Function.Basic

/-!
# Scripts side by side

Several scripts over one state, one operation at a time. Each is proved alone,
in its own world with the interference of the others between any two of its
operations (`World.interfered`); `Pool.invariant` puts the proofs together.
-/

namespace Effects

open Relation (ReflTransGen)

variable {S : Signature} {ε σ α β ι : Type}

/-- The same world where the state moves along `rely` before each operation. -/
def World.interfered (W : World S ε σ) (rely : σ → σ → Prop) : World S ε σ where
  step s op r s' := ∃ t, rely s t ∧ W.step t op r s'

/-- The steps of a world that are taken where `cond` holds. -/
def World.onlyIf (W : World S ε σ) (cond : σ → S.Op → Prop) : World S ε σ where
  step s op r s' := cond s op ∧ W.step s op r s'

/-- A guard that holds wherever the interference may have moved the state. -/
def stably (rely : σ → σ → Prop) (G : σ → S.Op → Prop) : σ → S.Op → Prop :=
  fun s op => ∀ t, rely s t → G t op

section
variable {W : World S ε σ} {G : σ → S.Op → Prop} {Q : Except ε α → σ → Prop}
  {rely : σ → σ → Prop} {s t : σ} {x : Script S ε α}

/-- What is proved against interference survives more of it. -/
theorem wp.interference (trans : ∀ a b c, rely a b → rely b c → rely a c)
    (hQ : ∀ o a b, rely a b → Q o a → Q o b)
    (h : wp (W.interfered rely) (stably rely G) x Q s) (hst : rely s t) :
    wp (W.interfered rely) (stably rely G) x Q t := by
  cases x with
  | pure a => exact hQ _ s t hst h
  | throw e => exact hQ _ s t hst h
  | call op next =>
    refine ⟨fun u htu => h.1 u (trans s t u hst htu), ?_⟩
    rintro r s' ⟨u, htu, hstep⟩
    exact h.2 r s' ⟨u, trans s t u hst htu, hstep⟩

end

-- ---------------------------------------------------------------------------
-- Pools
-- ---------------------------------------------------------------------------

/-- One operation of one of the scripts. -/
inductive Pool.Step [DecidableEq ι] (W : ι → World S ε σ) :
    (ι → Script S ε α) × σ → (ι → Script S ε α) × σ → Prop
  | call {xs : ι → Script S ε α} {s s'} (i op next r) : xs i = .call op next →
      (W i).step s op r s' → Step W (xs, s) (Function.update xs i (next r), s')

abbrev Pool.Reaches [DecidableEq ι] (W : ι → World S ε σ) :
    (ι → Script S ε α) × σ → (ι → Script S ε α) × σ → Prop :=
  ReflTransGen (Pool.Step W)

section
variable [DecidableEq ι] {W : ι → World S ε σ} {G : ι → σ → S.Op → Prop}
  {Q : ι → Except ε α → σ → Prop} {I : σ → Prop}

/-- An invariant that every guarded step keeps, where no step disturbs the
others beyond what they rely on, holds in every state of every interleaving. -/
theorem Pool.invariant (rely : ι → σ → σ → Prop) (refl : ∀ i s, rely i s s)
    (trans : ∀ i a b c, rely i a b → rely i b c → rely i a c)
    (hQ : ∀ i o a b, rely i a b → Q i o a → Q i o b)
    (keeps : ∀ i s op r s', I s → G i s op → (W i).step s op r s' →
      I s' ∧ ∀ j, j ≠ i → rely j s s')
    {c c' : (ι → Script S ε α) × σ} (hI : I c.2)
    (h : ∀ i, wp ((W i).interfered (rely i)) (stably (rely i) (G i)) (c.1 i) (Q i) c.2)
    (run : Pool.Reaches W c c') :
    I c'.2 ∧ ∀ i, wp ((W i).interfered (rely i)) (stably (rely i) (G i)) (c'.1 i) (Q i) c'.2 := by
  induction run with
  | refl => exact ⟨hI, h⟩
  | tail _ hstep ih =>
    obtain ⟨hI, h⟩ := ih
    obtain ⟨i, op, next, r, hi, hs⟩ := hstep
    have hwp := h i
    simp only [hi] at hwp
    obtain ⟨hI', hrely⟩ := keeps i _ op r _ hI (hwp.1 _ (refl i _)) hs
    refine ⟨hI', fun j => ?_⟩
    by_cases hj : j = i
    · subst hj
      simp only [Function.update_self]
      exact hwp.2 r _ ⟨_, refl j _, hs⟩
    · simp only [Function.update_of_ne hj]
      exact (h j).interference (trans j) (hQ j) (hrely j hj)

/-- The answers a world may give in the states of an invariant, whichever of
them it is in. -/
def World.seen (W : World S ε σ) (I : σ → Prop) : World S ε Unit where
  step _ op r _ := ∃ s s', I s ∧ W.step s op r s'

/-- Scripts that rely on nothing but an invariant they all keep: each may be
proved on its own, where the state is not seen. -/
theorem Pool.shared {G : ι → S.Op → Prop} {Q : ι → Except ε α → Prop}
    (keeps : ∀ i s op r s', I s → G i op → (W i).step s op r s' → I s')
    {c c' : (ι → Script S ε α) × σ} (hI : I c.2)
    (h : ∀ i, wp ((W i).seen I) (fun _ => G i) (c.1 i) (fun o _ => Q i o) ())
    (run : Pool.Reaches W c c') :
    I c'.2 ∧ ∀ i, wp ((W i).seen I) (fun _ => G i) (c'.1 i) (fun o _ => Q i o) () := by
  induction run with
  | refl => exact ⟨hI, h⟩
  | tail _ hstep ih =>
    obtain ⟨hI, h⟩ := ih
    obtain ⟨i, op, next, r, hi, hs⟩ := hstep
    have hwp := h i
    simp only [hi] at hwp
    refine ⟨keeps i _ op r _ hI hwp.1 hs, fun j => ?_⟩
    by_cases hj : j = i
    · subst hj
      simp only [Function.update_self]
      exact hwp.2 r () ⟨_, _, hI, hs⟩
    · simp only [Function.update_of_ne hj]
      exact h j

/-- One script of a pool running alone for a while. -/
theorem Pool.reaches_of_script (i : ι) {xs : ι → Script S ε α} {s : σ} {c : Script S ε α × σ}
    (h : Script.Reaches (W i) (xs i, s) c) :
    Pool.Reaches W (xs, s) (Function.update xs i c.1, c.2) := by
  induction h with
  | refl => rw [Function.update_eq_self]
  | tail _ hstep ih =>
    obtain @⟨t, op, r, t', next, hs⟩ := hstep
    refine ih.tail ?_
    have hcall : Pool.Step W (Function.update xs i (.call op next), _) _ :=
      .call i op next r (Function.update_self ..) hs
    rwa [Function.update_idem] at hcall

/-- The scripts of a pool run by turns: whose turn it is, and for how many
operations. -/
def Pool.schedule
    (answer : ι → σ → (op : S.Op) → Except ε (S.Reply op) × σ) :
    List (ι × Nat) → (ι → Script S ε α) × σ → (ι → Script S ε α) × σ
  | [], c => c
  | (i, n) :: turns, c =>
    let next := (c.1 i).advance (answer i) n c.2
    Pool.schedule answer turns (Function.update c.1 i next.1, next.2)

theorem Pool.reaches_schedule {answer : ι → σ → (op : S.Op) → Except ε (S.Reply op) × σ}
    (ha : ∀ i, (W i).Allows (answer i)) (turns : List (ι × Nat)) (c : (ι → Script S ε α) × σ) :
    Pool.Reaches W c (Pool.schedule answer turns c) := by
  induction turns generalizing c with
  | nil => exact .refl
  | cons turn turns ih =>
    exact (Pool.reaches_of_script turn.1 (reaches_advance (ha turn.1) turn.2 _ c.2)).trans (ih _)

end

end Effects
