import TronUpgrades.Effects.History

/-!
# One script as a run of another

Two scripts over two signatures, one finer than the other. Where the coarser
one asks an operation, the finer one runs a script of its own for it, and what
that comes to is the answer. `x` tracks `y` where each run of `x` is a run of
`y` so spelled out, and one that ends as `x` ends. The relation is closed under
what scripts are made of, so two programs written alike are compared part by
part.
-/

namespace Effects

variable {S T : Signature} {ε κ α β : Type}

/-- An operation may get any answer, and what follows goes on from it. -/
theorem Script.Reaches.performed (op : S.Op) (r : Except ε (S.Reply op))
    {f : S.Reply op → Script S ε β} (h : History S ε) :
    Script.Reaches .free ((Script.perform op).bind f, h) ((Script.ofExcept r).bind f, ⟨op, r⟩ :: h) :=
  .single (.call ⟨trivial, rfl⟩)

/-- Where a run has gone past an event, it stood there. -/
theorem Script.Reaches.stood {c c' : Script S ε α × History S ε} (hr : Script.Reaches .free c c')
    {later before : History S ε} {event : Event S ε} (hsplit : c'.2 = later ++ event :: before)
    (hbefore : c.2 <:+ before) : ∃ next, Script.Reaches .free c (.call event.op next, before) := by
  induction hr generalizing later with
  | refl =>
    have hlength := hbefore.length_le
    rw [hsplit] at hlength
    simp at hlength
    omega
  | tail hr hs ih =>
    obtain @⟨h, op, r, _, next, -, rfl⟩ := hs
    cases later with
    | nil =>
      obtain ⟨rfl, rfl⟩ := List.cons.inj hsplit
      exact ⟨next, hr⟩
    | cons _ later => exact ih (List.cons.inj hsplit).2

/-- How runs over `T` are read as runs over `S`. -/
structure Reading (T S : Signature) (ε κ : Type) where
  /-- What the finer run does where the coarser one asks. -/
  script : (op : S.Op) → Script T ε (S.Reply op)
  scripted : S.Op → Prop
  /-- Asked for between the scripts, as a part of none. -/
  between : T.Op → Prop
  /-- The finer run is the coarser one spelled out, so far. -/
  real : κ → History T ε → History S ε → Prop
  answers : ∀ {c h h' H} {op : S.Op} {o : Except ε (S.Reply op)}, real c h H → scripted op →
    Script.Reaches .free (script op, h) (.ofExcept o, h') → real c h' (⟨op, o⟩ :: H)

section
variable (v : Reading T S ε κ)

/-- The coarser run is done up to an operation, and the finer one stands inside
of that operation's script. -/
def Reading.During (coarse : S.Op) (H : History S ε) (op : T.Op) (h : History T ε) : Prop :=
  v.scripted coarse ∧ ∃ c h₁ next, v.real c h₁ H ∧
    Script.Reaches .free (v.script coarse, h₁) (.call op next, h)

/-- The coarser script stands where the finer run asks for the operation. -/
def Reading.Stands (op : T.Op) (h : History T ε) (y : Script S ε α) (H : History S ε) : Prop :=
  (∃ coarse next, y = .call coarse next ∧ v.During coarse H op h) ∨
    v.between op ∧ ∃ c, v.real c h H

/-- Somewhere along a run of `y`, the operation may be asked for. -/
def Reading.Allows (y : Script S ε α) (h h' : History T ε) (op : T.Op) : Prop :=
  ∀ c H, v.real c h H → ∃ y' H', Script.Reaches .free (y, H) (y', H') ∧ v.Stands op h' y' H'

/-- A run of `y` ends so. -/
def Reading.Ends (y : Script S ε α) (h : History T ε) (o : Except ε α) (h' : History T ε) : Prop :=
  ∀ c H, v.real c h H → ∃ H', Script.Reaches .free (y, H) (.ofExcept o, H') ∧ v.real c h' H'

def Tracks (x : Script T ε α) (y : Script S ε α) : Prop :=
  ∀ h, wp .free (v.Allows y h) x (v.Ends y h) h

variable {v} {x : Script T ε α} {y : Script S ε α}

theorem Reading.Stands.bind {op : T.Op} {h : History T ε} {H : History S ε}
    {g : α → Script S ε β} (hy : v.Stands op h y H) : v.Stands op h (y.bind g) H := by
  obtain ⟨coarse, next, rfl, hduring⟩ | hbetween := hy
  · exact .inl ⟨coarse, _, rfl, hduring⟩
  · exact .inr hbetween

theorem Reading.Stands.catching {op : T.Op} {h : History T ε} {H : History S ε}
    {g : ε → Script S ε α} (hy : v.Stands op h y H) : v.Stands op h (y.catching g) H := by
  obtain ⟨coarse, next, rfl, hduring⟩ | hbetween := hy
  · exact .inl ⟨coarse, _, rfl, hduring⟩
  · exact .inr hbetween

namespace Tracks

theorem ofExcept (o : Except ε α) : Tracks v (.ofExcept o) (.ofExcept o) := by
  intro h
  rw [wp_ofExcept]
  exact fun _ H hH => ⟨H, .refl, hH⟩

theorem pure (a : α) : Tracks v (.pure a) (.pure a) := ofExcept (.ok a)

theorem throw (e : ε) : Tracks v (.throw e : Script T ε α) (.throw e) := ofExcept (.error e)

theorem bind {f : α → Script T ε β} {g : α → Script S ε β} (hx : Tracks v x y)
    (hf : ∀ a, Tracks v (f a) (g a)) : Tracks v (x.bind f) (y.bind g) := by
  intro h
  have first : wp .free (v.Allows (y.bind g) h) x (v.Ends y h) h := by
    refine wp_guard_mono (fun h' op hop c H hH => ?_) (hx h)
    obtain ⟨y', H', hr, hstands⟩ := hop c H hH
    exact ⟨_, H', hr.bind, hstands.bind⟩
  refine wp.bind first (fun a h₁ hends => ?_) fun e h₁ hends c H hH => ?_
  · refine wp_guard_mono (fun h' op hop c H hH => ?_) (wp_mono (fun o h' ho c H hH => ?_) (hf a h₁))
    · obtain ⟨H₁, hr, hreal⟩ := hends c H hH
      obtain ⟨y', H', hr', hstands⟩ := hop c H₁ hreal
      exact ⟨y', H', hr.bind.trans hr', hstands⟩
    · obtain ⟨H₁, hr, hreal⟩ := hends c H hH
      obtain ⟨H', hr', hreal'⟩ := ho c H₁ hreal
      exact ⟨H', hr.bind.trans hr', hreal'⟩
  · obtain ⟨H₁, hr, hreal⟩ := hends c H hH
    exact ⟨H₁, hr.bind, hreal⟩

theorem catching {f : ε → Script T ε α} {g : ε → Script S ε α} (hx : Tracks v x y)
    (hf : ∀ e, Tracks v (f e) (g e)) : Tracks v (x.catching f) (y.catching g) := by
  intro h
  have first : wp .free (v.Allows (y.catching g) h) x (v.Ends y h) h := by
    refine wp_guard_mono (fun h' op hop c H hH => ?_) (hx h)
    obtain ⟨y', H', hr, hstands⟩ := hop c H hH
    exact ⟨_, H', hr.catching, hstands.catching⟩
  refine wp.catching first (fun a h₁ hends c H hH => ?_) fun e h₁ hends => ?_
  · obtain ⟨H₁, hr, hreal⟩ := hends c H hH
    exact ⟨H₁, hr.catching, hreal⟩
  · refine wp_guard_mono (fun h' op hop c H hH => ?_) (wp_mono (fun o h' ho c H hH => ?_) (hf e h₁))
    · obtain ⟨H₁, hr, hreal⟩ := hends c H hH
      obtain ⟨y', H', hr', hstands⟩ := hop c H₁ hreal
      exact ⟨y', H', hr.catching.trans hr', hstands⟩
    · obtain ⟨H₁, hr, hreal⟩ := hends c H hH
      obtain ⟨H', hr', hreal'⟩ := ho c H₁ hreal
      exact ⟨H', hr.catching.trans hr', hreal'⟩

theorem attempt (hx : Tracks v x y) : Tracks v x.attempt y.attempt :=
  (hx.bind fun _ => pure _).catching fun _ => pure _

theorem when {c : Prop} [Decidable c] {x : Script T ε Unit} {y : Script S ε Unit}
    (hx : Tracks v x y) : Tracks v (.when c x) (.when c y) := by
  unfold Script.when
  split
  · exact hx
  · exact pure ()

/-- The script of an operation tracks it: what it comes to is what the
operation is answered. -/
theorem perform {op : S.Op} (hop : v.scripted op) : Tracks v (v.script op) (.perform op) := by
  intro h
  suffices hruns : ∀ z h₁, Script.Reaches .free (v.script op, h) (z, h₁) →
      wp .free (v.Allows (.perform op) h) z (v.Ends (.perform op) h) h₁ from hruns _ h .refl
  intro z
  induction z with
  | pure a =>
    intro h₁ hr c H hH
    exact ⟨_, .single (.call ⟨trivial, rfl⟩), v.answers (o := .ok a) hH hop hr⟩
  | throw e =>
    intro h₁ hr c H hH
    exact ⟨_, .single (.call ⟨trivial, rfl⟩), v.answers (o := .error e) hH hop hr⟩
  | call fine next ih =>
    intro h₁ hr
    refine ⟨fun c H hH => ?_, ?_⟩
    · exact ⟨_, H, .refl, .inl ⟨op, _, rfl, hop, c, h, next, hH, hr⟩⟩
    · rintro r h₂ ⟨-, rfl⟩
      exact ih r _ (hr.tail (.call ⟨trivial, rfl⟩))

/-- What is tracked is so in every run. -/
theorem reaches_call (hx : Tracks v x y) {c : κ} (h0 : v.real c [] []) {op : T.Op}
    {next : Except ε (T.Reply op) → Script T ε α} {h : History T ε}
    (hr : Script.Reaches .free (x, []) (.call op next, h)) :
    ∃ y' H, Script.Reaches .free (y, []) (y', H) ∧ v.Stands op h y' H :=
  (hx []).calls hr c [] h0

theorem reaches_end (hx : Tracks v x y) {c : κ} (h0 : v.real c [] []) {o : Except ε α}
    {h : History T ε} (hr : Script.Reaches .free (x, []) (.ofExcept o, h)) :
    ∃ H, Script.Reaches .free (y, []) (.ofExcept o, H) ∧ v.real c h H :=
  (hx []).ends hr c [] h0

/-- What the coarser script is proved to know where it asks for an operation,
the finer one knows inside of that operation's script. -/
theorem transfer {G : History S ε → S.Op → Prop} (hx : Tracks v x y) {c : κ}
    (h0 : v.real c [] []) (hy : wp .free G y (fun _ _ => True) []) :
    wp .free (fun h op => v.between op ∨ ∃ coarse H, v.During coarse H op h ∧ G H coarse) x
      (fun _ _ => True) [] := by
  refine wp_guard_mono (fun h op hop => ?_) (wp_mono (fun _ _ _ => trivial) (hx []))
  obtain ⟨_, H, hr, ⟨coarse, next, rfl, hduring⟩ | ⟨hbetween, -⟩⟩ := hop c [] h0
  · exact .inr ⟨coarse, H, hduring, hy.calls hr⟩
  · exact .inl hbetween

end Tracks

end

end Effects
