import TronUpgrades.Effects.Interleave
import Mathlib.Data.Finset.Basic
import Mathlib.Data.Fintype.Defs
import Mathlib.Data.Fintype.EquivFin
import Mathlib.Data.Set.Basic

/-!
# Operations made at once

A script over one signature whose every operation is carried out by a script
over another (`Script.implemented`). Where each implementation, under the
interference of the others, could have been its operation made at one moment
(`Atomically`), an interleaving of the implementations is an interleaving of
the operations themselves (`Pool.atomic`): the same outcomes, the same state.

The moment need not be known when it passes: what an operation is answered may
depend on what its implementation still has to do. So a run is followed by the
set of the scripts it may be a run of, and only a finished one has to tell
which.
-/

namespace Effects

open Relation (ReflTransGen)

variable {S T : Signature} {ε σ τ α ι : Type}

/-- Every operation carried out by a script; its outcome is the operation's. -/
def Script.implemented (impl : (op : S.Op) → Script T ε (S.Reply op)) :
    Script S ε α → Script T ε α
  | .pure a => .pure a
  | .throw e => .throw e
  | .call op next => (impl op).attempt.bind fun r => (next r).implemented impl

-- ---------------------------------------------------------------------------
-- The scripts a run may be a run of
-- ---------------------------------------------------------------------------

section
variable (A : World S ε τ)

/-- What the scripts of `X` may have become where the state went from `a` to `b`. -/
def World.moved (a b : τ) (X : Set (Script S ε α)) : Set (Script S ε α) :=
  {y | ∃ x ∈ X, Script.Reaches A (x, a) (y, b)}

/-- Nothing more can be done by them that would leave the state. -/
def World.Closed (a : τ) (X : Set (Script S ε α)) : Prop := A.moved a a X ⊆ X

variable {A} {a b : τ} {X : Set (Script S ε α)}

theorem World.closed_moved : A.Closed b (A.moved a b X) := by
  rintro z ⟨y, ⟨x, hx, hxy⟩, hyz⟩
  exact ⟨x, hx, hxy.trans hyz⟩

theorem World.subset_moved : X ⊆ A.moved a a X := fun x hx => ⟨x, hx, .refl⟩

theorem World.moved_call {op : S.Op} {next : Except ε (S.Reply op) → Script S ε α}
    (hX : Script.call op next ∈ X) {r : Except ε (S.Reply op)} (hstep : A.step a op r b) :
    next r ∈ A.moved a b X :=
  ⟨_, hX, .single (.call hstep)⟩

end

/-- `W` with, beside its state, the scripts over `A` that the run so far may be
a run of. -/
def World.shadowed (W : World T ε σ) (A : World S ε τ) (abs : σ → τ) :
    World T ε (σ × Set (Script S ε α)) where
  step c op r c' := W.step c.1 op r c'.1 ∧ c'.2 = A.moved (abs c.1) (abs c'.1) c.2

/-- Interference moves the state and nothing else. -/
def beside (rely : σ → σ → Prop) (c c' : σ × Set (Script S ε α)) : Prop :=
  rely c.1 c'.1 ∧ c'.2 = c.2

/-- The guard, while the run still may be one. -/
def followed (G : σ → T.Op → Prop) (c : σ × Set (Script S ε α)) (op : T.Op) : Prop :=
  G c.1 op ∧ c.2.Nonempty

/-- Every run of `y`, disturbed as `rely` allows, is guarded and ends in `Q` of
its outcome and of what it may have been a run of. -/
abbrev Follows (W : World T ε σ) (A : World S ε τ) (abs : σ → τ) (rely : σ → σ → Prop)
    (G : σ → T.Op → Prop) {β : Type} (y : Script T ε β)
    (Q : Except ε β → σ × Set (Script S ε α) → Prop) (c : σ × Set (Script S ε α)) : Prop :=
  wp ((W.shadowed A abs).interfered (beside rely)) (stably (beside rely) (followed G)) y Q c

/-- `y` can be taken for `op` made at one moment of its run. -/
def Atomically (W : World T ε σ) (A : World S ε τ) (abs : σ → τ) (rely : σ → σ → Prop)
    (G : σ → T.Op → Prop) (op : S.Op) (y : Script T ε (S.Reply op)) : Prop :=
  ∀ {α : Type} (next : Except ε (S.Reply op) → Script S ε α) (s : σ) (X : Set (Script S ε α)),
    A.Closed (abs s) X → .call op next ∈ X →
      Follows W A abs rely G y (fun o c => next o ∈ c.2 ∧ A.Closed (abs c.1) c.2) (s, X)

section
variable {W : World T ε σ} {A : World S ε τ} {abs : σ → τ} {rely : σ → σ → Prop}
  {G : σ → T.Op → Prop} {β : Type} {c : σ × Set (Script S ε α)}

/-- Operations that leave the abstract state lose no script. -/
theorem Follows.still {P : T.Op → Prop} (guard : ∀ s op, P op → G s op)
    (still : ∀ s op r s', P op → W.step s op r s' → abs s' = abs s) {y : Script T ε β}
    (hy : y.Asks P) (hc : c.2.Nonempty) :
    Follows W A abs rely G y (fun _ c' => c.2 ⊆ c'.2 ∧
      (A.Closed (abs c.1) c.2 → A.Closed (abs c'.1) c'.2)) c := by
  induction y generalizing c with
  | pure _ => exact ⟨subset_rfl, id⟩
  | throw _ => exact ⟨subset_rfl, id⟩
  | call op next ih =>
    refine ⟨?_, ?_⟩
    · rintro c' ⟨-, h⟩
      exact ⟨guard _ op hy.1, h ▸ hc⟩
    · rintro r c'' ⟨c', ⟨-, hX⟩, hstep, hmoved⟩
      rw [still _ _ _ _ hy.1 hstep, hX] at hmoved
      have hsub : c.2 ⊆ c''.2 := by
        rw [hmoved]
        exact World.subset_moved
      refine wp_mono ?_ (ih r (hy.2 r) (hc.mono hsub))
      rintro o d ⟨hd, hclosed⟩
      refine ⟨hsub.trans hd, fun _ => hclosed ?_⟩
      rw [still _ _ _ _ hy.1 hstep, hmoved]
      exact World.closed_moved

theorem Follows.perform {op : T.Op} {Q : Except ε (T.Reply op) → σ × Set (Script S ε α) → Prop}
    (guard : ∀ t, rely c.1 t → G t op) (hc : c.2.Nonempty)
    (answer : ∀ r t s', rely c.1 t → W.step t op r s' → Q r (s', A.moved (abs t) (abs s') c.2)) :
    Follows W A abs rely G (.perform op) Q c := by
  refine wp_perform.mpr ⟨?_, ?_⟩
  · rintro t ⟨ht, hX⟩
    exact ⟨guard t.1 ht, hX ▸ hc⟩
  · rintro r ⟨s', X'⟩ ⟨⟨t, X⟩, ⟨ht, hX⟩, hstep, hmoved⟩
    simp only at ht hX hstep hmoved
    subst hX hmoved
    exact answer r t s' ht hstep

/-- An operation and what follows it. -/
theorem Follows.ask {op : T.Op} {f : T.Reply op → Script T ε β}
    {Q : Except ε β → σ × Set (Script S ε α) → Prop}
    (guard : ∀ t, rely c.1 t → G t op) (hc : c.2.Nonempty)
    (ok : ∀ a t s', rely c.1 t → W.step t op (.ok a) s' →
      Follows W A abs rely G (f a) Q (s', A.moved (abs t) (abs s') c.2))
    (error : ∀ e t s', rely c.1 t → W.step t op (.error e) s' →
      Q (.error e) (s', A.moved (abs t) (abs s') c.2)) :
    Follows W A abs rely G ((Script.perform op).bind f) Q c := by
  refine wp_bind.mpr (Follows.perform guard hc ?_)
  rintro (e | a) t s' ht hstep
  · exact error e t s' ht hstep
  · exact ok a t s' ht hstep

/-- A script whose operations are each carried out atomically is followed to
its end. -/
theorem follows_implemented {impl : (op : S.Op) → Script T ε (S.Reply op)}
    (ops : ∀ op, Atomically W A abs rely G op (impl op)) {x : Script S ε α}
    (closed : A.Closed (abs c.1) c.2) (hx : x ∈ c.2) :
    Follows W A abs rely G (x.implemented impl) (fun o c' => .ofExcept o ∈ c'.2) c := by
  induction x generalizing c with
  | pure a => exact hx
  | throw e => exact hx
  | call op next ih =>
    refine wp_bind.mpr (wp_attempt.mpr (wp_mono ?_ (ops op next c.1 c.2 closed hx)))
    rintro o c' ⟨ho, hclosed⟩
    exact ih o hclosed ho

end

-- ---------------------------------------------------------------------------
-- Pools
-- ---------------------------------------------------------------------------

section
variable [DecidableEq ι]

/-- Each of finitely many scripts may go on where none of them moves the state. -/
theorem Pool.reaches_each [Finite ι] {A : ι → World S ε τ} {a : τ} {xs ys : ι → Script S ε α}
    (h : ∀ i, Script.Reaches (A i) (xs i, a) (ys i, a)) :
    Pool.Reaches A (xs, a) (ys, a) := by
  have := Fintype.ofFinite ι
  suffices hsome : ∀ now : Finset ι,
      Pool.Reaches A (xs, a) (fun i => if i ∈ now then ys i else xs i, a) by
    simpa using hsome Finset.univ
  intro now
  induction now using Finset.induction with
  | empty => simpa using ReflTransGen.refl
  | insert i now hi ih =>
    refine ih.trans ?_
    have hrun : Pool.Reaches A (fun j => if j ∈ now then ys j else xs j, a)
        (Function.update (fun j => if j ∈ now then ys j else xs j) i (ys i), a) := by
      refine Pool.reaches_of_script (c := (ys i, a)) i ?_
      simpa only [if_neg hi] using h i
    have hset : Function.update (fun j => if j ∈ now then ys j else xs j) i (ys i) =
        fun j => if j ∈ insert i now then ys j else xs j := by
      funext j
      by_cases hj : j = i
      · subst hj
        simp
      · simp [Finset.mem_insert, hj]
    rwa [hset] at hrun

variable {W : ι → World T ε σ} {A : ι → World S ε τ} {abs : σ → τ} {rely : ι → σ → σ → Prop}
  {G : ι → σ → T.Op → Prop} {impl : ι → (op : S.Op) → Script T ε (S.Reply op)}

/-- However the scripts of a pool are chosen from what their runs may be runs
of, they can be reached. -/
def Pool.Shadows (A : ι → World S ε τ) (clients : ι → Script S ε α) (a b : τ)
    (Xs : ι → Set (Script S ε α)) : Prop :=
  ∀ xs : ι → Script S ε α, (∀ i, xs i ∈ Xs i) → Pool.Reaches A (clients, a) (xs, b)

theorem Pool.Shadows.step {clients : ι → Script S ε α} {a b b' : τ}
    {Xs : ι → Set (Script S ε α)} (h : Pool.Shadows A clients a b Xs) (i : ι) :
    Pool.Shadows A clients a b' (Function.update Xs i ((A i).moved b b' (Xs i))) := by
  intro xs hxs
  have hi := hxs i
  rw [Function.update_self] at hi
  obtain ⟨x, hx, hrun⟩ := hi
  have hbefore : Pool.Reaches A (clients, a) (Function.update xs i x, b) := by
    refine h _ fun j => ?_
    by_cases hj : j = i
    · subst hj
      rwa [Function.update_self]
    · rw [Function.update_of_ne hj]
      have := hxs j
      rwa [Function.update_of_ne hj] at this
  refine hbefore.trans ?_
  have hone : Script.Reaches (A i) (Function.update xs i x i, b) (xs i, b') := by
    rwa [Function.update_self]
  have hrun := Pool.reaches_of_script (W := A) i hone
  rwa [Function.update_idem, Function.update_eq_self] at hrun

/-- Every interleaving of the implementations is one of the operations made at
once: the state is what they leave, and who has finished has the same outcome. -/
theorem Pool.atomic [Finite ι] (refl : ∀ i s, rely i s s)
    (trans : ∀ i a b c, rely i a b → rely i b c → rely i a c)
    (keeps : ∀ i s op r s', G i s op → (W i).step s op r s' → ∀ j, j ≠ i → rely j s s')
    (ops : ∀ i op, Atomically (W i) (A i) abs (rely i) (G i) op (impl i op))
    {clients : ι → Script S ε α} {s s' : σ} {ys : ι → Script T ε α}
    (run : Pool.Reaches W (fun i => (clients i).implemented (impl i), s) (ys, s')) :
    ∃ xs, Pool.Reaches A (clients, abs s) (xs, abs s') ∧
      ∀ i o, ys i = .ofExcept o → xs i = .ofExcept o := by
  suffices hfollowed : ∀ c', Pool.Reaches W (fun i => (clients i).implemented (impl i), s) c' →
      ∃ Xs, Pool.Shadows A clients (abs s) (abs c'.2) Xs ∧
        ∀ i, Follows (W i) (A i) abs (rely i) (G i) (c'.1 i)
          (fun o c => .ofExcept o ∈ c.2) (c'.2, Xs i) by
    obtain ⟨Xs, hreach, hfollows⟩ := hfollowed _ run
    have hchoice : ∀ i, ∃ x ∈ Xs i, ∀ o, ys i = .ofExcept o → x = .ofExcept o := by
      intro i
      have hi := hfollows i
      simp only at hi
      cases hy : ys i with
      | pure v =>
        rw [hy] at hi
        refine ⟨_, hi, ?_⟩
        rintro (e | a) ho <;> cases ho
        rfl
      | throw e =>
        rw [hy] at hi
        refine ⟨_, hi, ?_⟩
        rintro (e | a) ho <;> cases ho
        rfl
      | call op next =>
        rw [hy] at hi
        obtain ⟨x, hx⟩ := (hi.1 (s', Xs i) ⟨refl i s', rfl⟩).2
        refine ⟨x, hx, ?_⟩
        rintro (e | a) ho <;> cases ho
    choose xs hmem houtcome using hchoice
    exact ⟨xs, hreach xs hmem, houtcome⟩
  intro c' run
  induction run with
  | refl =>
    refine ⟨fun i => (A i).moved (abs s) (abs s) {clients i}, ?_, ?_⟩
    · intro xs hxs
      refine Pool.reaches_each fun i => ?_
      obtain ⟨x, rfl, hrun⟩ := hxs i
      exact hrun
    · exact fun i => follows_implemented (ops i) World.closed_moved (World.subset_moved rfl)
  | tail _ hstep ih =>
    obtain ⟨Xs, hreach, hfollows⟩ := ih
    obtain @⟨xs, t, t', i, op, next, r, hi, hs⟩ := hstep
    have hwp := hfollows i
    simp only [hi] at hwp
    have hguard := (hwp.1 (t, Xs i) ⟨refl i t, rfl⟩).1
    have hshadow : Pool.Shadows A clients (abs s) (abs t') _ := hreach.step i
    refine ⟨_, hshadow, fun j => ?_⟩
    by_cases hj : j = i
    · subst hj
      simp only [Function.update_self]
      exact hwp.2 r _ ⟨(t, Xs j), ⟨refl j t, rfl⟩, hs, rfl⟩
    · simp only [Function.update_of_ne hj]
      refine wp.interference ?_ ?_ (hfollows j) ⟨keeps i t op r t' hguard hs j hj, rfl⟩
      · rintro a b c ⟨hab, hX⟩ ⟨hbc, hY⟩
        exact ⟨trans j _ _ _ hab hbc, hY.trans hX⟩
      · rintro o a b ⟨-, hX⟩ ho
        rwa [hX]

end

end Effects
