import TronUpgrades.Effects.Interleave

/-!
# Notes beside a world

A world with notes that its operations leave (`World.watched`). The notes
restrict nothing, so what they help to prove holds without them
(`wp.unwatched`), and a condition on a step may read them.
-/

namespace Effects

variable {S : Signature} {ε σ κ α ι : Type}

/-- The same world, with what each operation and its answer make of the notes. -/
def World.watched (W : World S ε σ) (note : κ → (op : S.Op) → Except ε (S.Reply op) → κ) :
    World S ε (σ × κ) where
  step s op r s' := W.step s.1 op r s'.1 ∧ s'.2 = note s.2 op r

section
variable {W : World S ε σ} {note : κ → (op : S.Op) → Except ε (S.Reply op) → κ}
  {G : σ → S.Op → Prop} {Gn : σ × κ → S.Op → Prop} {Q : Except ε α → σ → Prop}
  {Qn : Except ε α → σ × κ → Prop} {I : σ → κ → Prop}

/-- Where the notes stay true of the state, what is proved with them is proved. -/
theorem wp.unwatched {x : Script S ε α} {s : σ} {k : κ}
    (keeps : ∀ s k op r s', I s k → Gn (s, k) op → W.step s op r s' → I s' (note k op r))
    (guards : ∀ s k op, I s k → Gn (s, k) op → G s op)
    (ends : ∀ o s k, I s k → Qn o (s, k) → Q o s) (hI : I s k)
    (h : wp (W.watched note) Gn x Qn (s, k)) : wp W G x Q s := by
  induction x generalizing s k with
  | pure a => exact ends _ s k hI h
  | throw e => exact ends _ s k hI h
  | call op next ih =>
    refine ⟨guards s k op hI h.1, fun r s' hs => ?_⟩
    exact ih r (keeps s k op r s' hI h.1 hs) (h.2 r (s', note k op r) ⟨hs, rfl⟩)

/-- Answers, and the notes that go with them. -/
def noting (answer : σ → (op : S.Op) → Except ε (S.Reply op) × σ)
    (note : κ → (op : S.Op) → Except ε (S.Reply op) → κ) (s : σ × κ) (op : S.Op) :
    Except ε (S.Reply op) × (σ × κ) :=
  let (r, s') := answer s.1 op
  (r, (s', note s.2 op r))

theorem World.Allows.watched {answer : σ → (op : S.Op) → Except ε (S.Reply op) × σ}
    (h : W.Allows answer) : (W.watched note).Allows (noting answer note) :=
  fun s op => ⟨h s.1 op, rfl⟩

end

-- ---------------------------------------------------------------------------
-- Turns that meet a condition
-- ---------------------------------------------------------------------------

/-- The next `n` operations of the script all meet the condition. -/
def Script.Clear (answer : σ → (op : S.Op) → Except ε (S.Reply op) × σ) (cond : σ → S.Op → Prop) :
    Nat → Script S ε α → σ → Prop
  | n + 1, .call op next, s =>
    cond s op ∧ (next (answer s op).1).Clear answer cond n (answer s op).2
  | _, _, _ => True

theorem Script.Clear.reaches {W : World S ε σ}
    {answer : σ → (op : S.Op) → Except ε (S.Reply op) × σ} {cond : σ → S.Op → Prop}
    (ha : W.Allows answer) {n : Nat} {x : Script S ε α} {s : σ} (h : x.Clear answer cond n s) :
    Script.Reaches (W.onlyIf cond) (x, s) (x.advance answer n s) := by
  induction n generalizing x s with
  | zero => cases x <;> exact .refl
  | succ n ih =>
    cases x with
    | pure a => exact .refl
    | throw e => exact .refl
    | call op next =>
      obtain ⟨hcond, hrest⟩ := h
      exact .head (.call ⟨hcond, ha s op⟩) (ih hrest)

section
variable [DecidableEq ι] {W : ι → World S ε σ}
  {answer : ι → σ → (op : S.Op) → Except ε (S.Reply op) × σ} {cond : ι → σ → S.Op → Prop}

def Pool.Clear (answer : ι → σ → (op : S.Op) → Except ε (S.Reply op) × σ)
    (cond : ι → σ → S.Op → Prop) : List (ι × Nat) → (ι → Script S ε α) × σ → Prop
  | [], _ => True
  | (i, n) :: turns, c =>
    (c.1 i).Clear (answer i) (cond i) n c.2 ∧
      Pool.Clear answer cond turns (Pool.schedule answer [(i, n)] c)

theorem Pool.Clear.reaches (ha : ∀ i, (W i).Allows (answer i)) {turns : List (ι × Nat)}
    {c : (ι → Script S ε α) × σ} (h : Pool.Clear answer cond turns c) :
    Pool.Reaches (fun i => (W i).onlyIf (cond i)) c (Pool.schedule answer turns c) := by
  induction turns generalizing c with
  | nil => exact .refl
  | cons turn turns ih =>
    obtain ⟨hclear, hrest⟩ := h
    exact (Pool.reaches_of_script turn.1 (hclear.reaches (ha turn.1))).trans (ih hrest)

end

end Effects
