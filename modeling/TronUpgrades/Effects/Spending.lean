import TronUpgrades.Effects.History

/-!
# Runs that spend

Some operations of a run spend, and some of those are to happen once. A guard
on the spending ones alone (`whereSpent`) says what has to be known before one
of them is asked for; `Without` is the history going on without one of a kind.
`Ordered.of_wp` reads a triple with such a guard as a law over every run.
-/

namespace Effects

variable {S : Signature} {ε α β : Type}

/-- Later in the same run, with no operation of the kind in between. -/
def Without (p : S.Op → Bool) (h h' : History S ε) : Prop := h <:+ h' ∧ asked p h' = asked p h

/-- A guard on the operations that spend, and on no other. -/
def whereSpent (spends : S.Op → Bool) (P : History S ε → S.Op → Prop) (h : History S ε)
    (op : S.Op) : Prop :=
  spends op = true → P h op

namespace Without

variable {p : S.Op → Bool} {h h' h'' : History S ε}

theorem refl (p : S.Op → Bool) (h : History S ε) : Without p h h := ⟨List.suffix_rfl, rfl⟩

theorem trans (a : Without p h h') (b : Without p h' h'') : Without p h h'' :=
  ⟨a.1.trans b.1, b.2.trans a.2⟩

theorem cons (a : Without p h h') {event : Event S ε} (hop : p event.op = false) :
    Without p h (event :: h') :=
  ⟨a.1.trans (List.suffix_cons ..), (asked_cons_of_neg hop).trans a.2⟩

end Without

section
variable {spends sends : S.Op → Bool} {P : History S ε → S.Op → Prop} {h : History S ε}

theorem unguarded {op : S.Op} (hop : spends op = false) : whereSpent spends P h op := by
  intro hspends
  rw [hop] at hspends
  cases hspends

/-- What does not spend is never guarded. -/
theorem without_moves (hsends : ∀ op, spends op = false → sends op = false) :
    Moves .free (whereSpent spends P) (fun op => spends op = false) (Without sends) where
  refl := Without.refl sends
  trans _ _ _ := Without.trans
  guard _ _ hop := unguarded hop
  step := by
    rintro h op r h' hop ⟨-, rfl⟩
    exact (Without.refl sends h).cons (hsends op hop)

/-- What a part that asks for nothing of the kind knows when it succeeds. -/
abbrev Learns (kind : S.Op → Bool) (P : History S ε → S.Op → Prop) (x : Script S ε α)
    (C : α → History S ε → Prop) (h : History S ε) : Prop :=
  wp .free (whereSpent kind P) x (fun o h' => Without kind h h' ∧ ∀ a, o = .ok a → C a h') h

namespace Learns

variable {kind : S.Op → Bool} {x : Script S ε α} {f : α → Script S ε β}
  {C : α → History S ε → Prop} {D : β → History S ε → Prop}

theorem of_asks (hx : x.Asks fun op => kind op = false) : Learns kind P x (fun _ _ => True) h :=
  wp_mono (fun _ _ stay => ⟨stay, fun _ _ => trivial⟩) ((without_moves fun _ hop => hop).along hx h)

theorem pure {a : α} (ha : C a h) : Learns kind P (.pure a) C h := by
  refine ⟨Without.refl _ h, ?_⟩
  rintro _ ⟨⟩
  exact ha

theorem bind (hx : Learns kind P x C h)
    (next : ∀ a h', h <:+ h' → C a h' → Learns kind P (f a) D h') :
    Learns kind P (x.bind f) D h := by
  refine wp.bind hx ?_ ?_
  · rintro a h' ⟨stay, hC⟩
    refine wp_mono ?_ (next a h' stay.1 (hC a rfl))
    exact fun o h'' hD => ⟨stay.trans hD.1, hD.2⟩
  · exact fun e h' hx => ⟨hx.1, error_returns⟩

theorem ofExcept_bind {r : Except ε α} (next : ∀ a, r = .ok a → Learns kind P (f a) D h) :
    Learns kind P ((Script.ofExcept r).bind f) D h :=
  wp.ofExcept_bind next fun _ _ => ⟨Without.refl _ h, error_returns⟩

theorem perform {op : S.Op} (hop : kind op = false) :
    Learns kind P (.perform op) (fun a h' => Answered h' op a) h := by
  refine wp_perform.mpr ⟨unguarded hop, ?_⟩
  rintro r h' ⟨-, rfl⟩
  refine ⟨(Without.refl kind h).cons hop, ?_⟩
  rintro a rfl
  exact .head

theorem ask {op : S.Op} {f : S.Reply op → Script S ε β} (hop : kind op = false)
    (next : ∀ a, Learns kind P (f a) D (⟨op, .ok a⟩ :: h)) :
    Learns kind P ((Script.perform op).bind f) D h := by
  have stay : ∀ r, Without kind h (⟨op, r⟩ :: h) := fun r => (Without.refl kind h).cons hop
  refine wp.askFree (unguarded hop) (fun a => ?_) fun e => ⟨stay _, error_returns⟩
  exact wp_mono (fun o h' hD => ⟨(stay _).trans hD.1, hD.2⟩) (next a)

end Learns

/-- Every run: `P` wherever it asks for one of the kind, `done` where it
succeeds. -/
structure Obeys (kind : S.Op → Bool) (x : Script S ε α) (P : History S ε → S.Op → Prop)
    (done : History S ε → α → Prop) : Prop where
  cleared : ∀ op next h, Script.Reaches .free (x, []) (.call op next, h) → kind op = true → P h op
  observed : ∀ a h, Script.Reaches .free (x, []) (.pure a, h) → done h a

theorem Obeys.of_wp {kind : S.Op → Bool} {x : Script S ε α} {done : History S ε → α → Prop}
    (hx : wp .free (whereSpent kind P) x (fun o h => ∀ a, o = .ok a → done h a) []) :
    Obeys kind x P done where
  cleared _ _ _ hr := hx.calls hr
  observed a _ hr := hx.returns hr a rfl

/-- Every run: `P` wherever it spends, one operation sent at most, `done` where
it succeeds. -/
structure Ordered (spends sends : S.Op → Bool) (x : Script S ε α)
    (P : History S ε → S.Op → Prop) (done : History S ε → α → Prop) : Prop where
  cleared : ∀ op next h, Script.Reaches .free (x, []) (.call op next, h) → spends op = true → P h op
  once : ∀ y h, Script.Reaches .free (x, []) (y, h) → asked sends h ≤ 1
  observed : ∀ a h, Script.Reaches .free (x, []) (.pure a, h) → done h a

theorem Ordered.of_wp {x : Script S ε α} {done : History S ε → α → Prop}
    (hx : wp .free (whereSpent spends P) x (fun o h => ∀ a, o = .ok a → done h a) [])
    (hsends : ∀ op, spends op = false → sends op = false)
    (first : ∀ h op, P h op → sends op = true → asked sends h = 0) :
    Ordered spends sends x P done where
  cleared _ _ _ hr := hx.calls hr
  once _ _ hr := by
    refine hx.atMost (fun h op hP hop => ?_) (Nat.zero_le 1) hr
    have hspends : spends op = true := by
      cases hspends : spends op with
      | true => rfl
      | false => rw [hsends op hspends] at hop; cases hop
    exact Nat.lt_one_iff.mpr (first h op (hP hspends) hop)
  observed a _ hr := hx.returns hr a rfl

end

end Effects
