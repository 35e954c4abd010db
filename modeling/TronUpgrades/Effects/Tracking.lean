import TronUpgrades.Effects.History

/-!
# A state beside the history

A world that keeps, beside what was asked and answered, a state that some of the
operations change. Those that leave it alone only lengthen the history.
-/

namespace Effects

structure Tracked (κ : Type) (S : Signature) (ε : Type) where
  state : κ
  history : History S ε

section
variable {S : Signature} {ε κ α β : Type}

/-- The operations change the state by `effect`; only lawful events happen. -/
def World.tracking (effect : κ → (op : S.Op) → Except ε (S.Reply op) → κ → Prop)
    (lawful : Event S ε → Prop) : World S ε (Tracked κ S ε) where
  step c op r c' := effect c.state op r c'.state ∧ lawful ⟨op, r⟩ ∧ c'.history = ⟨op, r⟩ :: c.history

variable {effect : κ → (op : S.Op) → Except ε (S.Reply op) → κ → Prop}
  {lawful : Event S ε → Prop} {G : Tracked κ S ε → S.Op → Prop} {c c' c'' : Tracked κ S ε}

/-- What every guarded step keeps holds wherever a run gets to. -/
theorem wp.invariant {σ : Type} {W : World S ε σ} {G : σ → S.Op → Prop}
    {Q : Except ε α → σ → Prop} {I : σ → Prop} {x y : Script S ε α} {s t : σ}
    (hx : wp W G x Q s) (start : I s)
    (keeps : ∀ t op next r t', Script.Reaches W (x, s) (.call op next, t) → G t op → I t →
      W.step t op r t' → I t')
    (hr : Script.Reaches W (x, s) (y, t)) : I t := by
  suffices ∀ d, Script.Reaches W (x, s) d → I d.2 from this _ hr
  intro d hr
  induction hr with
  | refl => exact start
  | tail hr hs ih =>
    cases hs with
    | call hstep => exact keeps _ _ _ _ _ hr (hx.calls hr) ih hstep

/-- The same state, and perhaps a longer history. -/
structure Tracked.Still (c c' : Tracked κ S ε) : Prop where
  state : c'.state = c.state
  suffix : c.history <:+ c'.history

theorem Tracked.Still.refl (c : Tracked κ S ε) : c.Still c := ⟨rfl, List.suffix_rfl⟩

theorem Tracked.Still.trans (h : c.Still c') (h' : c'.Still c'') : c.Still c'' :=
  ⟨h'.state.trans h.state, h.suffix.trans h'.suffix⟩

theorem Tracked.Still.step {op : S.Op} {r : Except ε (S.Reply op)}
    (idle : ∀ s', effect c.state op r s' → s' = c.state)
    (hs : (World.tracking effect lawful).step c op r c') : c.Still c' := by
  obtain ⟨heffect, -, hhistory⟩ := hs
  refine ⟨idle _ heffect, ?_⟩
  rw [hhistory]
  exact List.suffix_cons ..

theorem still_moves {P : S.Op → Prop} (guard : ∀ c op, P op → G c op)
    (idle : ∀ s op r s', P op → effect s op r s' → s' = s) :
    Moves (.tracking effect lawful) G P Tracked.Still where
  refl := Tracked.Still.refl
  trans _ _ _ := Tracked.Still.trans
  guard := guard
  step _ _ _ _ hop hs := .step (fun _ => idle _ _ _ _ hop) hs

/-- A history only grows, whatever is asked for. -/
theorem wp.grows (x : Script S ε α) (c : Tracked κ S ε) :
    wp (.tracking effect lawful) (fun _ _ => True) x
      (fun _ c' => c.history <:+ c'.history) c := by
  induction x generalizing c with
  | pure a => exact List.suffix_rfl
  | throw e => exact List.suffix_rfl
  | call op next ih =>
    refine ⟨trivial, ?_⟩
    rintro r ⟨s', _⟩ ⟨-, -, rfl⟩
    refine wp_mono (fun _ _ later => ?_) (ih r _)
    exact (List.suffix_cons ..).trans later

/-- One operation and what follows it. -/
theorem wp.track {op : S.Op} {f : S.Reply op → Script S ε β}
    {Q : Except ε β → Tracked κ S ε → Prop} (guard : G c op)
    (ok : ∀ a s', effect c.state op (.ok a) s' → lawful ⟨op, .ok a⟩ →
      wp (.tracking effect lawful) G (f a) Q ⟨s', ⟨op, .ok a⟩ :: c.history⟩)
    (error : ∀ e s', effect c.state op (.error e) s' →
      Q (.error e) ⟨s', ⟨op, .error e⟩ :: c.history⟩) :
    wp (.tracking effect lawful) G ((Script.perform op).bind f) Q c := by
  apply wp.perform_bind guard
  · rintro a ⟨s', _⟩ ⟨heffect, hlawful, rfl⟩
    exact ok a s' heffect hlawful
  · rintro e ⟨s', _⟩ ⟨heffect, -, rfl⟩
    exact error e s' heffect

/-- An operation whose outcome is a value to what follows it. -/
theorem wp.trackAttempt {op : S.Op} {f : Except ε (S.Reply op) → Script S ε β}
    {Q : Except ε β → Tracked κ S ε → Prop} (guard : G c op)
    (next : ∀ r s', effect c.state op r s' → lawful ⟨op, r⟩ →
      wp (.tracking effect lawful) G (f r) Q ⟨s', ⟨op, r⟩ :: c.history⟩) :
    wp (.tracking effect lawful) G ((Script.perform op).attempt.bind f) Q c := by
  rw [wp_bind, wp_attempt, wp_perform]
  refine ⟨guard, ?_⟩
  rintro r ⟨s', _⟩ ⟨heffect, hlawful, rfl⟩
  exact next r s' heffect hlawful

/-- A script of idle operations, and what follows it. -/
theorem wp.still {P : S.Op → Prop} {x : Script S ε α} {f : α → Script S ε β}
    {Q : Except ε β → Tracked κ S ε → Prop}
    (m : Moves (.tracking effect lawful) G P Tracked.Still) (hx : x.Asks P)
    (ok : ∀ a c', c.Still c' → wp (.tracking effect lawful) G (f a) Q c')
    (error : ∀ e c', c.Still c' → Q (.error e) c') :
    wp (.tracking effect lawful) G (x.bind f) Q c :=
  wp.bind (m.along hx c) ok error

end

end Effects
