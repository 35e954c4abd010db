import TronUpgrades.Effects.Commitment

/-!
# What a start is ready for

The two halves of a proof that a script refuses first. What a script `Needs` is
what each of its successes has seen, and what a part `Prepares` is what it has
found before the first commitment. A `Help` is surroundings in which, once
committed, the script goes through: `Carries` says of a part that it fails there
only while nothing is committed to. `refusesFirst_iff_carries` puts them together.
-/

namespace Effects.Start

variable {S : Signature} {ε α β : Type} {start : Start S ε} {x : Script S ε α}
  {f : α → Script S ε β} {D : α → Prop} {C : β → Prop} {h t : History S ε}

-- ---------------------------------------------------------------------------
-- What every success has seen
-- ---------------------------------------------------------------------------

/-- From whatever point it is started, the script returns only what satisfies
`D`. -/
def Needs (start : Start S ε) (x : Script S ε α) (D : α → Prop) : Prop :=
  ∀ h, wp start.world (fun _ _ => True) x (fun o _ => ∀ a, o = .ok a → D a) h

theorem Needs.bind (hx : start.Needs x D) (next : ∀ a, D a → start.Needs (f a) C) :
    start.Needs (x.bind f) C := by
  intro h
  refine wp.bind (hx h) ?_ fun e t _ => error_returns
  exact fun a t ha => next a (ha a rfl) t

theorem Needs.mono {D' : α → Prop} (hx : start.Needs x D) (hD : ∀ a, D a → D' a) :
    start.Needs x D' :=
  fun h => wp_mono (fun _ _ ho a ha => hD a (ho a ha)) (hx h)

theorem Needs.trivial (x : Script S ε α) : start.Needs x fun _ => True :=
  fun _ => wp_all fun _ _ _ _ => True.intro

theorem Needs.after (x : Script S ε α) (next : ∀ a, start.Needs (f a) C) :
    start.Needs (x.bind f) C :=
  (Needs.trivial x).bind fun a _ => next a

theorem Needs.ofExcept {r : Except ε α} (next : ∀ a, r = .ok a → start.Needs (f a) C) :
    start.Needs ((Script.ofExcept r).bind f) C :=
  fun h => wp.ofExcept_bind (fun a ha => next a ha h) fun _ _ => error_returns

theorem Needs.pure {b : β} (hb : C b) : start.Needs (.pure b) C := by
  rintro h _ ⟨⟩
  exact hb

theorem Needs.throw {e : ε} : start.Needs (.throw e) C := fun _ => error_returns

theorem Needs.catching {handler : ε → Script S ε α} (hx : start.Needs x D)
    (hhandler : ∀ e, start.Needs (handler e) D) : start.Needs (x.catching handler) D := by
  intro h
  refine wp.catching (hx h) ?_ fun e t _ => hhandler e t
  exact fun a t ha => ha

/-- While nothing is committed to, the script commits to nothing and returns only
what satisfies `D`. -/
def Prepares (start : Start S ε) (x : Script S ε α) (D : α → Prop) : Prop :=
  ∀ h, committed start.commits h = false →
    wp start.world (fun _ _ => True) x
      (fun o t => committed start.commits t = false ∧ ∀ a, o = .ok a → D a) h

theorem Prepares.bind (hx : start.Prepares x D) (next : ∀ a, D a → start.Prepares (f a) C) :
    start.Prepares (x.bind f) C := by
  intro h hh
  refine wp.bind (hx h hh) ?_ fun e t ht => ⟨ht.1, error_returns⟩
  exact fun a t ht => next a (ht.2 a rfl) t ht.1

theorem Prepares.ofExcept {r : Except ε α} (next : ∀ a, r = .ok a → start.Prepares (f a) C) :
    start.Prepares ((Script.ofExcept r).bind f) C :=
  fun h hh => wp.ofExcept_bind (fun a ha => next a ha h hh) fun _ _ => ⟨hh, error_returns⟩

theorem Prepares.pure {b : β} (hb : C b) : start.Prepares (.pure b) C := by
  refine fun h hh => ⟨hh, ?_⟩
  rintro _ ⟨⟩
  exact hb

theorem Prepares.of_asks (hx : x.Asks fun op => start.commits op = false)
    (hneeds : start.Needs x D) : start.Prepares x D := by
  intro h hh
  have hmoves : Moves start.world (fun _ _ => True) (fun op => start.commits op = false)
      (fun h t => committed start.commits h = false → committed start.commits t = false) := by
    refine ⟨fun _ h => h, fun _ _ _ hab hbc ha => hbc (hab ha), fun _ _ _ => True.intro, ?_⟩
    rintro h op r _ hop ⟨-, rfl⟩ hh
    exact not_committed_cons hop hh
  exact wp_mono (fun _ _ ho => ⟨ho.1 hh, ho.2⟩) ((hmoves.along hx h).and (hneeds h))

/-- A part that commits to nothing, whatever it returns. -/
theorem Prepares.after (hx : x.Asks fun op => start.commits op = false)
    (next : ∀ a, start.Prepares (f a) C) : start.Prepares (x.bind f) C :=
  (Prepares.of_asks hx (.trivial x)).bind fun a _ => next a

/-- From where nothing is committed to, the script returns only what satisfies
`D`. -/
def NeedsFirst (start : Start S ε) (x : Script S ε α) (D : α → Prop) : Prop :=
  ∀ h, committed start.commits h = false →
    wp start.world (fun _ _ => True) x (fun o _ => ∀ a, o = .ok a → D a) h

theorem Needs.first (hx : start.Needs x D) : start.NeedsFirst x D := fun h _ => hx h

theorem Prepares.needs (hx : start.Prepares x D) (next : ∀ a, D a → start.Needs (f a) C) :
    start.NeedsFirst (x.bind f) C := by
  intro h hh
  refine wp.bind (hx h hh) ?_ fun _ _ _ => error_returns
  exact fun a t ht => next a (ht.2 a rfl) t

theorem NeedsFirst.bind (hx : start.NeedsFirst x D) (next : ∀ a, D a → start.Needs (f a) C) :
    start.NeedsFirst (x.bind f) C := by
  intro h hh
  refine wp.bind (hx h hh) ?_ fun _ _ _ => error_returns
  exact fun a t ha => next a (ha a rfl) t

-- ---------------------------------------------------------------------------
-- Surroundings that help
-- ---------------------------------------------------------------------------

/-- What is answered once the script has committed, where it is not settled. -/
structure Help (start : Start S ε) where
  answer : History S ε → (op : S.Op) → Except ε (S.Reply op)
  possible : ∀ h op, start.settled op = false → start.possible ⟨op, answer h op⟩

def Help.full (help : start.Help) (h : History S ε) (op : S.Op) : Except ε (S.Reply op) :=
  if start.settled op then start.answer [] op else help.answer h op

theorem Help.full_open (help : start.Help) (h : History S ε) (op : S.Op) :
    start.Open ⟨op, help.full h op⟩ := by
  unfold Open Help.full
  cases hop : start.settled op with
  | true => simp
  | false => simpa [hop] using help.possible h op hop

/-- Helped along from here, the script fails only where nothing is committed to. -/
def Carries (help : start.Help) (x : Script S ε α) (K : α → History S ε → Prop)
    (h : History S ε) : Prop :=
  wp (start.helpedWorld help.full) (fun _ _ => True) x
    (fun o t => match o with
      | .ok a => K a t
      | .error _ => committed start.commits t = false) h

section
variable {help : start.Help} {K : α → History S ε → Prop} {L : β → History S ε → Prop}

theorem Carries.bind (hx : Carries help x K h) (next : ∀ a t, K a t → Carries help (f a) L t) :
    Carries help (x.bind f) L h :=
  wp.bind hx next fun _ _ he => he

theorem Carries.mono {K' : α → History S ε → Prop} (hx : Carries help x K h)
    (hK : ∀ a t, K a t → K' a t) : Carries help x K' h := by
  refine wp_mono ?_ hx
  rintro (e | a) t ho
  · exact ho
  · exact hK a t ho

theorem Carries.ofExcept {r : Except ε α} (hh : committed start.commits h = false)
    (next : ∀ a, r = .ok a → Carries help (f a) L h) :
    Carries help ((Script.ofExcept r).bind f) L h :=
  wp.ofExcept_bind next fun _ _ => hh

theorem Carries.ofExcept_ok {r : Except ε α} {a : α} (hr : r = .ok a)
    (next : Carries help (f a) L h) : Carries help ((Script.ofExcept r).bind f) L h := by
  subst hr
  exact next

/-- A failure is handled where nothing is committed to. -/
theorem Carries.catching {handler : ε → Script S ε α} (hx : Carries help x K h)
    (hhandler : ∀ e t, committed start.commits t = false → Carries help (handler e) K t) :
    Carries help (x.catching handler) K h :=
  wp.catching hx (fun _ _ ha => ha) hhandler

/-- A part that prepares, with what it returns. -/
theorem Prepares.carries (hx : start.Prepares x D) (hh : committed start.commits h = false) :
    Carries help x (fun a t => committed start.commits t = false ∧ D a) h := by
  refine wp_mono ?_
    (wp_world_mono (fun _ _ _ _ hs => helpedWorld_step help.full_open hs) (hx h hh))
  rintro (e | a) t ⟨ht, hD⟩
  · exact ht
  · exact ⟨ht, hD a rfl⟩

/-- A part that commits to nothing, and what follows it. -/
theorem Carries.after (hx : x.Asks fun op => start.commits op = false)
    (hh : committed start.commits h = false)
    (next : ∀ a t, committed start.commits t = false → Carries help (f a) L t) :
    Carries help (x.bind f) L h :=
  ((Prepares.of_asks hx (.trivial x)).carries hh).bind fun a t ht => next a t ht.1

/-- The outcome of a part as a value. -/
theorem Carries.attempt (hx : Carries help x K h) :
    Carries help x.attempt (fun o t => match o with
      | .ok a => K a t
      | .error _ => committed start.commits t = false) h :=
  wp_attempt.mpr hx

end

end Effects.Start
