import TronUpgrades.Effects.Interleave
import TronUpgrades.Effects.Spending

/-!
# What the processes of a pool did, in order

A world whose state is the events of all processes, latest first. Each process
hears its own part of it, which is a run of that process alone, so what is
proved of every run in the free world holds at every event of the whole
(`Pool.traced`).
-/

namespace Effects

/-- What was asked and answered, and by whom. -/
abbrev Trace (ι : Type) (S : Signature) (ε : Type) := List (ι × Event S ε)

variable {S : Signature} {ε α ι : Type}

/-- A world that may restrict the answers by all that went before. -/
def World.traced (allowed : Trace ι S ε → ι → Event S ε → Prop) (i : ι) :
    World S ε (Trace ι S ε) where
  step trace op r trace' := allowed trace i ⟨op, r⟩ ∧ trace' = (i, ⟨op, r⟩) :: trace

namespace Trace

section
variable [DecidableEq ι]

def heardBy (i : ι) (trace : Trace ι S ε) : History S ε :=
  trace.filterMap fun entry => if entry.1 = i then some entry.2 else none

variable {i j : ι} {trace later before : Trace ι S ε} {event : Event S ε}

@[simp] theorem heardBy_nil : heardBy i ([] : Trace ι S ε) = [] := rfl

@[simp] theorem heardBy_self : heardBy i ((i, event) :: trace) = event :: heardBy i trace := by
  simp [heardBy]

theorem heardBy_other (h : j ≠ i) : heardBy i ((j, event) :: trace) = heardBy i trace := by
  simp [heardBy, h]

@[simp] theorem heardBy_append :
    heardBy i (later ++ before) = heardBy i later ++ heardBy i before :=
  List.filterMap_append

theorem mem_heardBy : event ∈ heardBy i trace ↔ (i, event) ∈ trace := by
  simp [heardBy]

/-- Where a process heard something is where it happened. -/
theorem heardBy_split {h h' : History S ε} (hheard : heardBy i trace = h' ++ event :: h) :
    ∃ later before, trace = later ++ (i, event) :: before ∧ heardBy i later = h' ∧
      heardBy i before = h := by
  obtain ⟨later, rest, rfl, hlater, hrest⟩ := List.filterMap_eq_append_iff.mp hheard
  obtain ⟨others, ⟨j, event'⟩, before, rfl, hothers, hevent, hbefore⟩ :=
    List.filterMap_eq_cons_iff.mp hrest
  by_cases hj : j = i
  · subst hj
    simp only [↓reduceIte, Option.some.injEq] at hevent
    subst hevent
    refine ⟨later ++ others, before, (List.append_assoc ..).symm, ?_, hbefore⟩
    have hunheard : heardBy j others = [] := List.filterMap_eq_nil_iff.mpr hothers
    rw [heardBy_append, hunheard, List.append_nil]
    exact hlater
  · simp [hj] at hevent

end

/-- A fact that some events only can end still holds, or one of them came. -/
theorem unless_ended {P : Trace ι S ε → Prop} {ends : ι × Event S ε → Trace ι S ε → Prop}
    (keeps : ∀ entry before, P before → ¬ ends entry before → P (entry :: before))
    {before : Trace ι S ε} (h : P before) (later : Trace ι S ε) :
    P (later ++ before) ∨
      ∃ entry since, entry :: since <:+ later ∧ ends entry (since ++ before) := by
  induction later with
  | nil => exact .inl h
  | cons entry later ih =>
    obtain hkept | ⟨entry', since, hsince, hends⟩ := ih
    · by_cases hends : ends entry (later ++ before)
      · exact .inr ⟨entry, later, List.suffix_rfl, hends⟩
      · exact .inl (keeps entry _ hkept hends)
    · exact .inr ⟨entry', since, hsince.trans (List.suffix_cons ..), hends⟩

end Trace

section
variable [DecidableEq ι] {G : ι → History S ε → S.Op → Prop}
  {allowed : Trace ι S ε → ι → Event S ε → Prop}

/-- At every event of every interleaving, the process has learnt what its own
runs are proved to have learnt there, and the answer is one it may get. -/
theorem Pool.traced {xs ys : ι → Script S ε α} {trace : Trace ι S ε}
    (clients : ∀ i, wp .free (G i) (xs i) (fun _ _ => True) [])
    (run : Pool.Reaches (World.traced allowed) (xs, []) (ys, trace)) :
    ∀ later before i event, trace = later ++ (i, event) :: before →
      G i (Trace.heardBy i before) event.op ∧ allowed before i event := by
  suffices hinv : ∀ c, Pool.Reaches (World.traced allowed) (xs, []) c →
      (∀ i, wp .free (G i) (c.1 i) (fun _ _ => True) (Trace.heardBy i c.2)) ∧
        ∀ later before i event, c.2 = later ++ (i, event) :: before →
          G i (Trace.heardBy i before) event.op ∧ allowed before i event from (hinv _ run).2
  intro c hc
  induction hc with
  | refl => exact ⟨clients, fun later before i event h => by simp at h⟩
  | tail _ hstep ih =>
    obtain ⟨heard, past⟩ := ih
    obtain @⟨zs, trace, trace', i, op, next, r, hi, hallowed, rfl⟩ := hstep
    have hwp := heard i
    simp only [hi] at hwp
    refine ⟨fun j => ?_, fun later before j event hsplit => ?_⟩
    · by_cases hj : j = i
      · subst hj
        simp only [Function.update_self, Trace.heardBy_self]
        exact hwp.2 r _ ⟨trivial, rfl⟩
      · simp only [Function.update_of_ne hj, Trace.heardBy_other (Ne.symm hj)]
        exact heard j
    · cases later with
      | nil =>
        obtain ⟨⟨⟩, rfl⟩ := List.cons.inj hsplit
        exact ⟨hwp.1, hallowed⟩
      | cons entry later => exact past later before j event (List.cons.inj hsplit).2

end

end Effects
