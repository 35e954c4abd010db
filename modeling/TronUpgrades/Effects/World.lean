import TronUpgrades.Effects.Script
import Mathlib.Logic.Relation

/-!
# Running scripts in a world

A `World` says which answers an operation may get in a state, and the state
it leaves. `Reaches` is the small-step run of one script in it, `wp` the
weakest precondition over all such runs: a guard that holds wherever an
operation is asked for, and a postcondition where the script ends. `wp` is
proved script by script with one rule for each construct; `wp.calls`
and `wp.returns` read it back as facts about runs.
-/

namespace Effects

open Relation (ReflTransGen)

structure World (S : Signature) (ε σ : Type) where
  step : σ → (op : S.Op) → Except ε (S.Reply op) → σ → Prop

variable {S : Signature} {ε σ α β : Type}

/-- One operation asked for and answered. -/
inductive Script.Step (W : World S ε σ) : Script S ε α × σ → Script S ε α × σ → Prop
  | call {s op r s' next} : W.step s op r s' → Step W (.call op next, s) (next r, s')

abbrev Script.Reaches (W : World S ε σ) : Script S ε α × σ → Script S ε α × σ → Prop :=
  ReflTransGen (Script.Step W)

def wp (W : World S ε σ) (G : σ → S.Op → Prop) :
    Script S ε α → (Except ε α → σ → Prop) → σ → Prop
  | .pure a, Q, s => Q (.ok a) s
  | .throw e, Q, s => Q (.error e) s
  | .call op next, Q, s => G s op ∧ ∀ r s', W.step s op r s' → wp W G (next r) Q s'

section
variable {W : World S ε σ} {G : σ → S.Op → Prop} {Q R : Except ε α → σ → Prop}
  {T : Except ε β → σ → Prop} {s : σ}

-- ---------------------------------------------------------------------------
-- One rule for each construct
-- ---------------------------------------------------------------------------

@[simp] theorem wp_pure {a : α} : wp W G (.pure a) Q s ↔ Q (.ok a) s := Iff.rfl

@[simp] theorem wp_throw {e : ε} : wp W G (.throw e) Q s ↔ Q (.error e) s := Iff.rfl

@[simp] theorem wp_ofExcept {r : Except ε α} : wp W G (.ofExcept r) Q s ↔ Q r s := by
  cases r <;> rfl

theorem wp_perform {op : S.Op} {Q : Except ε (S.Reply op) → σ → Prop} :
    wp W G (.perform op) Q s ↔ G s op ∧ ∀ r s', W.step s op r s' → Q r s' := by
  simp [Script.perform, wp]

theorem wp_mono {x : Script S ε α} (hQ : ∀ o t, Q o t → R o t) (h : wp W G x Q s) :
    wp W G x R s := by
  induction x generalizing s with
  | pure a => exact hQ _ _ h
  | throw e => exact hQ _ _ h
  | call op next ih => exact ⟨h.1, fun r s' hs => ih r (h.2 r s' hs)⟩

/-- Without a guard, what holds of every end holds of every run's. -/
theorem wp_all {x : Script S ε α} (hQ : ∀ o t, Q o t) : wp W (fun _ _ => True) x Q s := by
  induction x generalizing s with
  | pure a => exact hQ _ _
  | throw e => exact hQ _ _
  | call op next ih => exact ⟨trivial, fun r s' _ => ih r⟩

theorem wp_guard_mono {G' : σ → S.Op → Prop} {x : Script S ε α}
    (hG : ∀ t op, G t op → G' t op) (h : wp W G x Q s) : wp W G' x Q s := by
  induction x generalizing s with
  | pure a => exact h
  | throw e => exact h
  | call op next ih => exact ⟨hG _ _ h.1, fun r s' hs => ih r (h.2 r s' hs)⟩

/-- Fewer answers leave less to prove. -/
theorem wp_world_mono {W' : World S ε σ} {x : Script S ε α}
    (hW : ∀ t op r t', W'.step t op r t' → W.step t op r t') (h : wp W G x Q s) :
    wp W' G x Q s := by
  induction x generalizing s with
  | pure a => exact h
  | throw e => exact h
  | call op next ih => exact ⟨h.1, fun r s' hs => ih r (h.2 r s' (hW _ _ _ _ hs))⟩

theorem wp_bind {x : Script S ε α} {f : α → Script S ε β} :
    wp W G (x.bind f) T s ↔
      wp W G x (fun o t => match o with
        | .ok a => wp W G (f a) T t
        | .error e => T (.error e) t) s := by
  induction x generalizing s with
  | pure a => rfl
  | throw e => rfl
  | call op next ih => simp only [Script.bind, wp, ih]

theorem wp_catching {x : Script S ε α} {handler : ε → Script S ε α} :
    wp W G (x.catching handler) Q s ↔
      wp W G x (fun o t => match o with
        | .ok a => Q (.ok a) t
        | .error e => wp W G (handler e) Q t) s := by
  induction x generalizing s with
  | pure a => rfl
  | throw e => rfl
  | call op next ih => simp only [Script.catching, wp, ih]

theorem wp.bind {x : Script S ε α} {f : α → Script S ε β} (hx : wp W G x R s)
    (ok : ∀ a t, R (.ok a) t → wp W G (f a) T t)
    (error : ∀ e t, R (.error e) t → T (.error e) t) : wp W G (x.bind f) T s := by
  refine wp_bind.mpr (wp_mono ?_ hx)
  rintro (e | a) t h
  · exact error e t h
  · exact ok a t h

theorem wp.catching {x : Script S ε α} {handler : ε → Script S ε α} (hx : wp W G x R s)
    (ok : ∀ a t, R (.ok a) t → Q (.ok a) t)
    (error : ∀ e t, R (.error e) t → wp W G (handler e) Q t) :
    wp W G (x.catching handler) Q s := by
  refine wp_catching.mpr (wp_mono ?_ hx)
  rintro (e | a) t h
  · exact error e t h
  · exact ok a t h

/-- An operation and what follows it: the guard, then the two kinds of
answer. -/
theorem wp.perform_bind {op : S.Op} {f : S.Reply op → Script S ε β} (guard : G s op)
    (ok : ∀ a t, W.step s op (.ok a) t → wp W G (f a) T t)
    (error : ∀ e t, W.step s op (.error e) t → T (.error e) t) :
    wp W G ((Script.perform op).bind f) T s := by
  refine ⟨guard, ?_⟩
  rintro (e | a) t h
  · exact error e t h
  · exact ok a t h

theorem wp.ofExcept_bind {r : Except ε α} {f : α → Script S ε β}
    (ok : ∀ a, r = .ok a → wp W G (f a) T s) (error : ∀ e, r = .error e → T (.error e) s) :
    wp W G ((Script.ofExcept r).bind f) T s := by
  cases r with
  | ok a => exact ok a rfl
  | error e => exact error e rfl

theorem wp.when {c : Prop} [Decidable c] {x : Script S ε Unit} {Q : Except ε Unit → σ → Prop}
    (pos : c → wp W G x Q s) (neg : ¬ c → Q (.ok ()) s) : wp W G (.when c x) Q s := by
  by_cases h : c
  · rw [Script.when, if_pos h]
    exact pos h
  · rw [Script.when, if_neg h]
    exact neg h

theorem wp_attempt {x : Script S ε α} {Q : Except ε (Except ε α) → σ → Prop} :
    wp W G x.attempt Q s ↔ wp W G x (fun o t => Q (.ok o) t) s := by
  rw [Script.attempt, wp_catching, wp_bind]
  constructor <;> exact wp_mono fun o t h => by cases o <;> exact h

/-- A script whose outcome is a value to what follows it. -/
theorem wp.attempt_bind {x : Script S ε α} {f : Except ε α → Script S ε β} {J : σ → Prop}
    (hx : wp W G x (fun _ t => J t) s) (next : ∀ o t, J t → wp W G (f o) T t) :
    wp W G (x.attempt.bind f) T s := by
  rw [wp_bind, wp_attempt]
  exact wp_mono (fun o t h => next o t h) hx

/-- A postcondition on values alone holds of every failure. -/
theorem error_returns {e : ε} {C : α → Prop} (a : α) (h : (Except.error e : Except ε α) = .ok a) :
    C a := by
  cases h

/-- Two proofs about one script are one. -/
theorem wp.and {x : Script S ε α} (hQ : wp W G x Q s) (hR : wp W G x R s) :
    wp W G x (fun o t => Q o t ∧ R o t) s := by
  induction x generalizing s with
  | pure a => exact ⟨hQ, hR⟩
  | throw e => exact ⟨hQ, hR⟩
  | call op next ih => exact ⟨hQ.1, fun r s' hs => ih r (hQ.2 r s' hs) (hR.2 r s' hs)⟩

-- ---------------------------------------------------------------------------
-- What a weakest precondition says about runs
-- ---------------------------------------------------------------------------

theorem wp.step {c c' : Script S ε α × σ} (h : wp W G c.1 Q c.2) (hs : Script.Step W c c') :
    wp W G c'.1 Q c'.2 := by
  cases hs with
  | call hstep => exact h.2 _ _ hstep

theorem wp.reaches {c c' : Script S ε α × σ} (h : wp W G c.1 Q c.2)
    (hr : Script.Reaches W c c') : wp W G c'.1 Q c'.2 := by
  induction hr with
  | refl => exact h
  | tail _ hs ih => exact ih.step hs

variable {x y : Script S ε α} {t : σ}

theorem wp.calls (h : wp W G x Q s) (hr : Script.Reaches W (x, s) (.call op next, t)) :
    G t op :=
  (h.reaches (c := (x, s)) hr).1

theorem wp.returns (h : wp W G x Q s) (hr : Script.Reaches W (x, s) (.pure a, t)) :
    Q (.ok a) t :=
  h.reaches (c := (x, s)) hr

-- ---------------------------------------------------------------------------
-- Runs of a part are runs of the whole
-- ---------------------------------------------------------------------------

theorem Script.Reaches.bind {f : α → Script S ε β}
    (hr : Script.Reaches W (x, s) (y, t)) : Script.Reaches W (x.bind f, s) (y.bind f, t) := by
  apply hr.lift fun c : Script S ε α × σ => (c.1.bind f, c.2)
  rintro _ _ ⟨hstep⟩
  exact .call hstep

theorem Script.Reaches.catching {handler : ε → Script S ε α}
    (hr : Script.Reaches W (x, s) (y, t)) :
    Script.Reaches W (x.catching handler, s) (y.catching handler, t) := by
  apply hr.lift fun c : Script S ε α × σ => (c.1.catching handler, c.2)
  rintro _ _ ⟨hstep⟩
  exact .call hstep

-- ---------------------------------------------------------------------------
-- Answering functions
-- ---------------------------------------------------------------------------

variable {answer : σ → (op : S.Op) → Except ε (S.Reply op) × σ}

/-- A function whose every answer the world allows. -/
def World.Allows (W : World S ε σ) (answer : σ → (op : S.Op) → Except ε (S.Reply op) × σ) :
    Prop :=
  ∀ s op, W.step s op (answer s op).1 (answer s op).2

theorem reaches_run (ha : W.Allows answer) (x : Script S ε α) (s : σ) :
    Script.Reaches W (x, s) (.ofExcept (x.run answer s).1, (x.run answer s).2) := by
  induction x generalizing s with
  | pure a => exact .refl
  | throw e => exact .refl
  | call op next ih => exact .head (.call (ha s op)) (ih _ _)

theorem reaches_advance (ha : W.Allows answer) (n : Nat) (x : Script S ε α) (s : σ) :
    Script.Reaches W (x, s) (x.advance answer n s) := by
  induction n generalizing x s with
  | zero => cases x <;> exact .refl
  | succ n ih =>
    cases x with
    | pure a => exact .refl
    | throw e => exact .refl
    | call op next => exact .head (.call (ha s op)) (ih _ _)

end

-- ---------------------------------------------------------------------------
-- Scripts by the operations they ask for
-- ---------------------------------------------------------------------------

/-- Whatever it is answered, the script asks only for operations of `P`. -/
def Script.Asks (P : S.Op → Prop) : Script S ε α → Prop
  | .pure _ | .throw _ => True
  | .call op next => P op ∧ ∀ r, (next r).Asks P

namespace Script.Asks

variable {P : S.Op → Prop} {x : Script S ε α} {f : α → Script S ε β} {handler : ε → Script S ε α}

theorem perform {op : S.Op} (h : P op) : (Script.perform op : Script S ε _).Asks P := by
  refine ⟨h, ?_⟩
  rintro (e | a) <;> trivial

theorem ofExcept {r : Except ε α} : (Script.ofExcept r : Script S ε α).Asks P := by
  cases r <;> trivial

theorem mono {P' : S.Op → Prop} (hx : x.Asks P) (hP : ∀ op, P op → P' op) : x.Asks P' := by
  induction x with
  | pure a => trivial
  | throw e => trivial
  | call op next ih => exact ⟨hP op hx.1, fun r => ih r (hx.2 r)⟩

theorem bind (hx : x.Asks P) (hf : ∀ a, (f a).Asks P) : (x.bind f).Asks P := by
  induction x with
  | pure a => exact hf a
  | throw e => trivial
  | call op next ih => exact ⟨hx.1, fun r => ih r (hx.2 r)⟩

theorem catching (hx : x.Asks P) (hh : ∀ e, (handler e).Asks P) :
    (x.catching handler).Asks P := by
  induction x with
  | pure a => trivial
  | throw e => exact hh e
  | call op next ih => exact ⟨hx.1, fun r => ih r (hx.2 r)⟩

theorem attempt (hx : x.Asks P) : x.attempt.Asks P := by
  unfold Script.attempt
  apply Script.Asks.catching
  · exact hx.bind fun _ => trivial
  · exact fun _ => trivial

theorem when {c : Prop} [Decidable c] {x : Script S ε Unit} (hx : x.Asks P) :
    (Script.when c x).Asks P := by
  unfold Script.when
  split
  · exact hx
  · trivial

end Script.Asks

/-- The guard permits the operations of `P`, and they move the state along a
preorder. -/
structure Moves (W : World S ε σ) (G : σ → S.Op → Prop) (P : S.Op → Prop)
    (rel : σ → σ → Prop) : Prop where
  refl : ∀ s, rel s s
  trans : ∀ a b c, rel a b → rel b c → rel a c
  guard : ∀ s op, P op → G s op
  step : ∀ s op r s', P op → W.step s op r s' → rel s s'

theorem Moves.along {W : World S ε σ} {G : σ → S.Op → Prop} {P : S.Op → Prop}
    {rel : σ → σ → Prop} (m : Moves W G P rel) {x : Script S ε α} (h : x.Asks P) (s : σ) :
    wp W G x (fun _ t => rel s t) s := by
  induction x generalizing s with
  | pure a => exact m.refl s
  | throw e => exact m.refl s
  | call op next ih =>
    refine ⟨m.guard s op h.1, fun r s' hs => ?_⟩
    exact wp_mono (fun _ u hu => m.trans s s' u (m.step s op r s' h.1 hs) hu) (ih r (h.2 r) s')

/-- So is what a run of it is about to ask for. -/
theorem Script.Asks.reached {W : World S ε σ} {P : S.Op → Prop} {x : Script S ε α} (h : x.Asks P)
    {s t : σ} {op : S.Op} {next : Except ε (S.Reply op) → Script S ε α}
    (hr : Script.Reaches W (x, s) (.call op next, t)) : P op := by
  have moves : Moves W (fun _ => P) P fun _ _ => True :=
    ⟨fun _ => trivial, fun _ _ _ _ _ => trivial, fun _ _ hop => hop, fun _ _ _ _ _ _ => trivial⟩
  exact (moves.along h s).calls hr

/-- Guarded so that its failure is a value, such a script always answers. -/
theorem Moves.guarded {W : World S ε σ} {G : σ → S.Op → Prop} {P : S.Op → Prop}
    {rel : σ → σ → Prop} (m : Moves W G P rel) {x : Script S ε α} (h : x.Asks P) (a : α) (s : σ) :
    wp W G (x.catching fun _ => .pure a) (fun o t => (∃ b, o = .ok b) ∧ rel s t) s := by
  apply wp.catching (m.along h s)
  · exact fun b t hst => ⟨⟨b, rfl⟩, hst⟩
  · exact fun _ t hst => ⟨⟨a, rfl⟩, hst⟩

end Effects
