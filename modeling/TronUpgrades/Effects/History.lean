import TronUpgrades.Effects.World

/-!
# Histories

A world whose state is what was asked and answered so far, latest first. It
may restrict the answers by what went before (`World.recorded`); `World.free`
restricts nothing, so what is proved in it holds whatever the surroundings do.
-/

namespace Effects

structure Event (S : Signature) (ε : Type) where
  op : S.Op
  reply : Except ε (S.Reply op)

abbrev History (S : Signature) (ε : Type) := List (Event S ε)

def World.recorded {S : Signature} {ε : Type} (allowed : History S ε → Event S ε → Prop) :
    World S ε (History S ε) where
  step h op r h' := allowed h ⟨op, r⟩ ∧ h' = ⟨op, r⟩ :: h

def World.free {S : Signature} {ε : Type} : World S ε (History S ε) :=
  .recorded fun _ _ => True

/-- The operation was asked and answered with `a`. -/
def Answered {S : Signature} {ε : Type} (h : History S ε) (op : S.Op) (a : S.Reply op) : Prop :=
  ⟨op, .ok a⟩ ∈ h

/-- The same, between the two moments. -/
def AnsweredSince {S : Signature} {ε : Type} (h h' : History S ε) (op : S.Op) (a : S.Reply op) :
    Prop :=
  ∃ h₁, h <:+ h₁ ∧ ⟨op, .ok a⟩ :: h₁ <:+ h'

section
variable {S : Signature} {ε α β : Type} {allowed : History S ε → Event S ε → Prop}
  {G : History S ε → S.Op → Prop} {h h' : History S ε}

theorem Answered.later {op : S.Op} {a : S.Reply op} (hr : Answered h op a) (hh : h <:+ h') :
    Answered h' op a :=
  hh.mem hr

theorem Answered.head {op : S.Op} {a : S.Reply op} : Answered (⟨op, .ok a⟩ :: h) op a :=
  List.mem_cons_self

theorem AnsweredSince.head {op : S.Op} {a : S.Reply op} (hh : h <:+ h') :
    AnsweredSince h (⟨op, .ok a⟩ :: h') op a :=
  ⟨h', hh, List.suffix_rfl⟩

theorem AnsweredSince.later {h'' : History S ε} {op : S.Op} {a : S.Reply op}
    (hr : AnsweredSince h h' op a) (hh : h' <:+ h'') : AnsweredSince h h'' op a := by
  obtain ⟨h₁, h₀, h₂⟩ := hr
  exact ⟨h₁, h₀, h₂.trans hh⟩

theorem AnsweredSince.earlier {h₀ : History S ε} {op : S.Op} {a : S.Reply op}
    (hr : AnsweredSince h h' op a) (hh : h₀ <:+ h) : AnsweredSince h₀ h' op a := by
  obtain ⟨h₁, h₂, hlast⟩ := hr
  exact ⟨h₁, hh.trans h₂, hlast⟩

theorem AnsweredSince.answered {op : S.Op} {a : S.Reply op} (hr : AnsweredSince h h' op a) :
    Answered h' op a := by
  obtain ⟨_, -, hlast⟩ := hr
  exact hlast.mem List.mem_cons_self

/-- An operation and what follows it, in a world of histories. -/
theorem wp.ask {op : S.Op} {f : S.Reply op → Script S ε β}
    {Q : Except ε β → History S ε → Prop} (guard : G h op)
    (ok : ∀ a, allowed h ⟨op, .ok a⟩ → wp (.recorded allowed) G (f a) Q (⟨op, .ok a⟩ :: h))
    (error : ∀ e, allowed h ⟨op, .error e⟩ → Q (.error e) (⟨op, .error e⟩ :: h)) :
    wp (.recorded allowed) G ((Script.perform op).bind f) Q h := by
  apply wp.perform_bind guard
  · rintro a t ⟨ha, rfl⟩
    exact ok a ha
  · rintro e t ⟨ha, rfl⟩
    exact error e ha

/-- An operation whose outcome is a value to what follows it. -/
theorem wp.askAttempt {op : S.Op} {f : Except ε (S.Reply op) → Script S ε β}
    {Q : Except ε β → History S ε → Prop} (guard : G h op)
    (next : ∀ r, allowed h ⟨op, r⟩ → wp (.recorded allowed) G (f r) Q (⟨op, r⟩ :: h)) :
    wp (.recorded allowed) G ((Script.perform op).attempt.bind f) Q h := by
  rw [wp_bind, wp_attempt, wp_perform]
  refine ⟨guard, ?_⟩
  rintro r t ⟨ha, rfl⟩
  exact next r ha

theorem wp.askFree {op : S.Op} {f : S.Reply op → Script S ε β}
    {Q : Except ε β → History S ε → Prop} (guard : G h op)
    (ok : ∀ a, wp .free G (f a) Q (⟨op, .ok a⟩ :: h))
    (error : ∀ e, Q (.error e) (⟨op, .error e⟩ :: h)) :
    wp .free G ((Script.perform op).bind f) Q h :=
  wp.ask guard (fun a _ => ok a) fun e _ => error e

/-- A history only grows. -/
theorem Script.Step.suffix {c c' : Script S ε α × History S ε}
    (hs : Script.Step (.recorded allowed) c c') : c.2 <:+ c'.2 := by
  cases hs with
  | call hstep =>
    obtain ⟨-, rfl⟩ := hstep
    exact List.suffix_cons ..

theorem Script.Reaches.suffix {c c' : Script S ε α × History S ε}
    (hr : Script.Reaches (.recorded allowed) c c') : c.2 <:+ c'.2 := by
  induction hr with
  | refl => exact List.suffix_rfl
  | tail _ hs ih => exact ih.trans hs.suffix

/-- A run under restricted answers is a run. -/
theorem Script.Reaches.toFree {c c' : Script S ε α × History S ε}
    (hr : Script.Reaches (.recorded allowed) c c') : Script.Reaches .free c c' := by
  induction hr with
  | refl => exact .refl
  | tail _ hs ih =>
    cases hs with
    | call hstep => exact ih.tail (.call ⟨trivial, hstep.2⟩)

/-- Every event of a run under answers restricted one by one is one of those. -/
theorem Script.Reaches.lawful {C : Event S ε → Prop} {c c' : Script S ε α × History S ε}
    (hr : Script.Reaches (.recorded fun _ => C) c c') (h0 : ∀ event ∈ c.2, C event) :
    ∀ event ∈ c'.2, C event := by
  induction hr with
  | refl => exact h0
  | tail _ hs ih =>
    cases hs with
    | call hstep =>
      obtain ⟨hC, rfl⟩ := hstep
      intro event hevent
      rcases List.mem_cons.mp hevent with rfl | hevent
      · exact hC
      · exact ih event hevent

/-- The postcondition holds wherever a run ends. -/
theorem wp.ends {x : Script S ε α} {Q : Except ε α → History S ε → Prop} {o : Except ε α}
    (hx : wp (.recorded allowed) G x Q h)
    (hr : Script.Reaches (.recorded allowed) (x, h) (.ofExcept o, h')) : Q o h' :=
  wp_ofExcept.mp (hx.reaches (c := (x, h)) hr)

-- ---------------------------------------------------------------------------
-- Scripts by the failures they end with
-- ---------------------------------------------------------------------------

/-- Where every rejection it gets is one of `P`, the script fails with one of
`P` if it fails. -/
def Script.Raises (P : ε → Prop) : Script S ε α → Prop
  | .pure _ => True
  | .throw e => P e
  | .call _ next => ∀ r, (∀ e, r = .error e → P e) → (next r).Raises P

namespace Script.Raises

variable {P : ε → Prop} {x : Script S ε α} {f : α → Script S ε β} {handler : ε → Script S ε α}

theorem ofExcept {r : Except ε α} (h : ∀ e, r = .error e → P e) :
    (Script.ofExcept r : Script S ε α).Raises P := by
  cases r with
  | ok a => trivial
  | error e => exact h e rfl

theorem perform {op : S.Op} : (Script.perform op : Script S ε _).Raises P := fun _ hr => ofExcept hr

theorem bind (hx : x.Raises P) (hf : ∀ a, (f a).Raises P) : (x.bind f).Raises P := by
  induction x with
  | pure a => exact hf a
  | throw e => exact hx
  | call op next ih => exact fun r hr => ih r (hx r hr)

theorem catching (hx : x.Raises P) (hh : ∀ e, P e → (handler e).Raises P) :
    (x.catching handler).Raises P := by
  induction x with
  | pure a => trivial
  | throw e => exact hh e hx
  | call op next ih => exact fun r hr => ih r (hx r hr)

theorem attempt (hx : x.Raises P) : x.attempt.Raises P := by
  refine Raises.catching (hx.bind fun _ => trivial) fun e _ => ?_
  trivial

end Script.Raises

/-- From this history on: a failure is one of `P`, and a result one of `C`. -/
def Finds (allowed : History S ε → Event S ε → Prop) (P : ε → Prop) (h : History S ε)
    (x : Script S ε α) (C : α → History S ε → Prop) : Prop :=
  wp (.recorded allowed) (fun _ _ => True) x
    (fun o h' => h <:+ h' ∧ (∀ e, o = .error e → P e) ∧ ∀ a, o = .ok a → C a h') h

namespace Finds

variable {P P' : ε → Prop} {x : Script S ε α} {f : α → Script S ε β} {C C' : α → History S ε → Prop}
  {D : β → History S ε → Prop}

theorem pure {a : α} (ha : C a h) : Finds allowed P h (.pure a) C := by
  refine ⟨List.suffix_rfl, by rintro _ ⟨⟩, ?_⟩
  rintro _ ⟨⟩
  exact ha

theorem throw {e : ε} (he : P e) : Finds allowed P h (.throw e) C := by
  refine ⟨List.suffix_rfl, ?_, by rintro _ ⟨⟩⟩
  rintro _ ⟨⟩
  exact he

theorem ofExcept {r : Except ε α} (he : ∀ e, r = .error e → P e) (ha : ∀ a, r = .ok a → C a h) :
    Finds allowed P h (.ofExcept r) C := by
  cases r with
  | ok a => exact .pure (ha a rfl)
  | error e => exact .throw (he e rfl)

theorem mono (hx : Finds allowed P h x C) (hP : ∀ e, P e → P' e)
    (hC : ∀ a h', h <:+ h' → C a h' → C' a h') : Finds allowed P' h x C' := by
  refine wp_mono ?_ hx
  rintro o h' ⟨hsuffix, herror, hok⟩
  exact ⟨hsuffix, fun e he => hP e (herror e he), fun a ha => hC a h' hsuffix (hok a ha)⟩

theorem bind (hx : Finds allowed P h x C)
    (hf : ∀ a h', h <:+ h' → C a h' → Finds allowed P h' (f a) D) :
    Finds allowed P h (x.bind f) D := by
  refine wp.bind hx ?_ ?_
  · rintro a h' ⟨hsuffix, -, hok⟩
    refine wp_mono ?_ (hf a h' hsuffix (hok a rfl))
    rintro o h'' ⟨hsuffix', hends⟩
    exact ⟨hsuffix.trans hsuffix', hends⟩
  · rintro e h' ⟨hsuffix, herror, -⟩
    refine ⟨hsuffix, ?_, by rintro _ ⟨⟩⟩
    rintro _ ⟨⟩
    exact herror e rfl

theorem ofExcept_bind {r : Except ε α} (he : ∀ e, r = .error e → P e)
    (ha : ∀ a, r = .ok a → Finds allowed P h (f a) D) :
    Finds allowed P h ((Script.ofExcept r).bind f) D := by
  cases r with
  | ok a => exact ha a rfl
  | error e => exact .throw (he e rfl)

variable (lawful : ∀ h op e, allowed h ⟨op, .error e⟩ → P e)
include lawful

theorem ask {op : S.Op} {f : S.Reply op → Script S ε β}
    (next : ∀ a, allowed h ⟨op, .ok a⟩ → Finds allowed P (⟨op, .ok a⟩ :: h) (f a) D) :
    Finds allowed P h ((Script.perform op).bind f) D := by
  refine wp.ask trivial (fun a ha => ?_) fun e he => ?_
  · refine wp_mono ?_ (next a ha)
    rintro o h' ⟨hsuffix, hends⟩
    exact ⟨(List.suffix_cons ..).trans hsuffix, hends⟩
  · refine ⟨List.suffix_cons .., ?_, by rintro _ ⟨⟩⟩
    rintro _ ⟨⟩
    exact lawful h op e he

theorem raises (hx : x.Raises P) : Finds allowed P h x fun _ _ => True := by
  induction x generalizing h with
  | pure a => exact .pure trivial
  | throw e => exact .throw hx
  | call op next ih =>
    refine ⟨trivial, ?_⟩
    rintro r _ ⟨hr, rfl⟩
    have hrejected : ∀ e, r = .error e → P e := by
      rintro e rfl
      exact lawful h op e hr
    refine wp_mono ?_ (ih r (hx r hrejected))
    rintro o h' ⟨hsuffix, hends⟩
    exact ⟨(List.suffix_cons ..).trans hsuffix, hends⟩

end Finds

-- ---------------------------------------------------------------------------
-- How often
-- ---------------------------------------------------------------------------

/-- How often an operation of the kind was asked for. -/
def asked (p : S.Op → Bool) (h : History S ε) : Nat := h.countP fun event => p event.op

theorem asked_cons_of_neg {p : S.Op → Bool} {event : Event S ε} (hp : p event.op = false) :
    asked p (event :: h) = asked p h := by
  simp [asked, hp]

theorem asked_cons_of_pos {p : S.Op → Bool} {event : Event S ε} (hp : p event.op = true) :
    asked p (event :: h) = asked p h + 1 := by
  simp [asked, hp]

/-- A guard that permits one more of the kind only below a bound keeps every
state of every run within it. -/
theorem wp.atMost {n : Nat} {p : S.Op → Bool} {x : Script S ε α}
    {Q : Except ε α → History S ε → Prop} (hx : wp (.recorded allowed) G x Q h)
    (guard : ∀ h op, G h op → p op → asked p h < n) (h0 : asked p h ≤ n) {y : Script S ε α}
    (hr : Script.Reaches (.recorded allowed) (x, h) (y, h')) : asked p h' ≤ n := by
  suffices ∀ c', Script.Reaches (.recorded allowed) (x, h) c' → asked p c'.2 ≤ n from this _ hr
  intro c' hr
  induction hr with
  | refl => exact h0
  | tail hr hs ih =>
    cases hs with
    | @call t op r t' next hstep =>
      obtain ⟨-, rfl⟩ := hstep
      cases hp : p op with
      | true =>
        have hlt := guard _ _ (hx.calls hr) hp
        rw [asked_cons_of_pos hp]
        omega
      | false =>
        rw [asked_cons_of_neg hp]
        exact ih

/-- Operations not of the kind leave the number of those of the kind alone. -/
theorem unasked_moves {n : Nat} {p : S.Op → Bool} :
    Moves (.recorded allowed) (fun h op => p op → asked p h < n) (fun op => p op = false)
      fun h h' => asked p h' = asked p h where
  refl _ := rfl
  trans _ _ _ hab hbc := hbc.trans hab
  guard h op hop hp := by
    rw [hop] at hp
    cases hp
  step := by
    rintro h op r h' hop ⟨-, rfl⟩
    exact asked_cons_of_neg hop

-- ---------------------------------------------------------------------------
-- Answering functions
-- ---------------------------------------------------------------------------

/-- A run whose operations are answered from the history by a function. -/
def answering (answer : History S ε → (op : S.Op) → Except ε (S.Reply op)) (h : History S ε)
    (op : S.Op) : Except ε (S.Reply op) × History S ε :=
  (answer h op, ⟨op, answer h op⟩ :: h)

theorem reaches_answering (a : History S ε → (op : S.Op) → Except ε (S.Reply op))
    (ha : ∀ h op, allowed h ⟨op, a h op⟩) (x : Script S ε α) (h : History S ε) :
    Script.Reaches (.recorded allowed) (x, h)
      (.ofExcept (x.run (answering a) h).1, (x.run (answering a) h).2) := by
  apply reaches_run
  exact fun h op => ⟨ha h op, rfl⟩

theorem reaches_advancing (a : History S ε → (op : S.Op) → Except ε (S.Reply op))
    (ha : ∀ h op, allowed h ⟨op, a h op⟩) (n : Nat) (x : Script S ε α) (h : History S ε) :
    Script.Reaches (.recorded allowed) (x, h) (x.advance (answering a) n h) := by
  apply reaches_advance
  exact fun h op => ⟨ha h op, rfl⟩

end

end Effects
