import TronUpgrades.Effects.Atomic
import TronUpgrades.Effects.History

/-!
# What processes know of what they share

A process knows what it was answered, and nothing of what the others do. Where
an answer is so when it is given, and stays so (`Attests`), processes that are
each proved on their own, by their own histories in the free world, keep an
invariant of what they share through every interleaving (`Pool.attested`).
-/

namespace Effects

variable {S T : Signature} {ε σ α ι : Type}

section
variable {G : History T ε → T.Op → Prop} {Q : Except ε α → History T ε → Prop}

/-- A guard that permits every operation a script asks for is kept anyway. -/
theorem wp.of_asks {P : T.Op → Prop} {G' : History T ε → T.Op → Prop} {x : Script T ε α}
    {h : History T ε} (hx : wp .free G' x Q h) (hasks : x.Asks P)
    (hG : ∀ h op, P op → G h op) : wp .free G x Q h := by
  induction x generalizing h with
  | pure a => exact hx
  | throw e => exact hx
  | call op next ih =>
    exact ⟨hG h op hasks.1, fun r h' hstep => ih r (hx.2 r h' hstep) (hasks.2 r)⟩

/-- Where a run asks for an operation, it is a run of the script up to there. -/
theorem wp.reached {x : Script T ε α} (hx : wp .free G x Q []) :
    wp .free (fun h op => G h op ∧ ∃ next, Script.Reaches .free (x, []) (.call op next, h)) x Q [] := by
  suffices hruns : ∀ z h, Script.Reaches .free (x, []) (z, h) → wp .free G z Q h →
      wp .free (fun h op => G h op ∧ ∃ next, Script.Reaches .free (x, []) (.call op next, h)) z Q h from
    hruns x [] .refl hx
  intro z
  induction z with
  | pure a => exact fun _ _ hz => hz
  | throw e => exact fun _ _ hz => hz
  | call op next ih =>
    refine fun h hr hz => ⟨⟨hz.1, next, hr⟩, ?_⟩
    rintro r h' hstep
    exact ih r h' (hr.tail (.call hstep)) (hz.2 r h' hstep)

/-- What a run may do from the start, it may do later, by what it has learnt
itself. -/
theorem wp.onward {G' : History T ε → T.Op → Prop} {x : Script T ε α} {h h₀ : History T ε}
    (hx : wp .free G x Q h) (hG : ∀ h₁ op, G h₁ op → G' (h₁ ++ h₀) op) :
    wp .free G' x (fun _ _ => True) (h ++ h₀) := by
  induction x generalizing h with
  | pure a => trivial
  | throw e => trivial
  | call op next ih =>
    refine ⟨hG h op hx.1, ?_⟩
    rintro r h' ⟨-, rfl⟩
    exact ih r (hx.2 r _ ⟨trivial, rfl⟩)

/-- A program of operations keeps to a guard that each of them keeps to. -/
theorem wp.implemented {impl : (op : S.Op) → Script T ε (S.Reply op)}
    (himpl : ∀ op h, wp .free G (impl op) (fun _ _ => True) h) (x : Script S ε α)
    (h : History T ε) : wp .free G (x.implemented impl) (fun _ _ => True) h := by
  induction x generalizing h with
  | pure a => trivial
  | throw e => trivial
  | call op next ih =>
    refine wp.bind (R := fun _ _ => True) (wp_attempt.mpr (himpl op h)) ?_ fun _ _ _ => trivial
    exact fun r h' _ => ih r h'

end

/-- The events a fact about the shared state is made known by: true when they
happen, and from then on. -/
structure Attests (W : ι → World S ε σ) (so : σ → Event S ε → Prop) : Prop where
  answered : ∀ i s op r t, (W i).step s op r t → so t ⟨op, r⟩
  stays : ∀ i s op r t event, (W i).step s op r t → so s event → so t event

/-- An invariant that each step keeps whose process has learnt what allows it
holds in every state of every interleaving. -/
theorem Pool.attested [DecidableEq ι] {W : ι → World S ε σ} {so : σ → Event S ε → Prop}
    (a : Attests W so) {G : History S ε → S.Op → Prop} {J : σ → Prop}
    (keeps : ∀ i s op r t h, J s → (∀ event ∈ h, so s event) → G h op →
      (W i).step s op r t → J t)
    {c c' : (ι → Script S ε α) × σ} (start : J c.2)
    (clients : ∀ i, wp .free G (c.1 i) (fun _ _ => True) [])
    (run : Pool.Reaches W c c') : J c'.2 := by
  suffices hinv : J c'.2 ∧ ∀ i, ∃ h, (∀ event ∈ h, so c'.2 event) ∧
      wp .free G (c'.1 i) (fun _ _ => True) h from hinv.1
  induction run with
  | refl => exact ⟨start, fun i => ⟨[], List.forall_mem_nil _, clients i⟩⟩
  | tail _ hstep ih =>
    obtain ⟨hJ, learnt⟩ := ih
    obtain ⟨i, op, next, r, hi, hs⟩ := hstep
    obtain ⟨h, hso, hwp⟩ := learnt i
    simp only [hi] at hwp
    refine ⟨keeps i _ op r _ h hJ hso hwp.1 hs, fun j => ?_⟩
    by_cases hj : j = i
    · subst hj
      refine ⟨⟨op, r⟩ :: h, ?_, ?_⟩
      · rintro event (_ | ⟨_, hevent⟩)
        · exact a.answered _ _ _ _ _ hs
        · exact a.stays _ _ _ _ _ _ hs (hso event hevent)
      · simp only [Function.update_self]
        exact hwp.2 r _ ⟨trivial, rfl⟩
    · obtain ⟨h, hso, hwp⟩ := learnt j
      refine ⟨h, fun event hevent => a.stays _ _ _ _ _ _ hs (hso event hevent), ?_⟩
      simp only [Function.update_of_ne hj]
      exact hwp

end Effects
