import TronUpgrades.Checks.Scan

/-!
# Where a computation returns

`Ends P x R`: `x` returns exactly where `R` holds, and raises nothing but what
`P` holds of. It goes through sequencing and through the loops over a list
whose body reads one element at a time.
-/

namespace Checks

variable {ε α β : Type}

structure Ends (P : ε → Prop) (x : Except ε α) (R : Prop) : Prop where
  returns : (∃ a, x = .ok a) ↔ R
  raises : ∀ e, x = .error e → P e

namespace Ends

variable {P : ε → Prop} {x : Except ε α} {f : α → Except ε β} {R R' Q : Prop} {e : ε}

theorem ok (a : α) : Ends P (.ok a) True := ⟨⟨fun _ => trivial, fun _ => ⟨a, rfl⟩⟩, nofun⟩

theorem error (he : P e) : Ends P (.error e : Except ε α) False := by
  refine ⟨⟨fun ⟨_, h⟩ => (nomatch h), nofun⟩, ?_⟩
  rintro _ ⟨⟩
  exact he

theorem congr (h : Ends P x R) (hr : R ↔ R') : Ends P x R' := ⟨h.returns.trans hr, h.raises⟩

theorem bind (hx : Ends P x R) (hf : ∀ a, x = .ok a → Ends P (f a) Q) :
    Ends P (x >>= f) (R ∧ Q) := by
  cases x with
  | error e =>
    refine ⟨⟨fun ⟨_, h⟩ => (nomatch h), fun h => ?_⟩, ?_⟩
    · obtain ⟨a, ha⟩ := hx.returns.mpr h.1
      cases ha
    · rintro _ ⟨⟩
      exact hx.raises e rfl
  | ok a =>
    have hr : R := hx.returns.mp ⟨a, rfl⟩
    exact (hf a rfl).congr ⟨fun hq => ⟨hr, hq⟩, And.right⟩

/-- A step whose value is known. -/
theorem value {a : α} (hx : x = .ok a) (h : Ends P (f a) R) : Ends P (x >>= f) R := by
  rw [hx]
  exact h

theorem map (hx : Ends P x R) (g : α → β) : Ends P (x.map g) R := by
  cases x with
  | error e =>
    refine ⟨⟨fun ⟨_, h⟩ => (nomatch h), fun h => ?_⟩, ?_⟩
    · obtain ⟨a, ha⟩ := hx.returns.mpr h
      cases ha
    · rintro _ ⟨⟩
      exact hx.raises e rfl
  | ok a => exact (ok (g a)).congr ⟨fun _ => hx.returns.mp ⟨a, rfl⟩, fun _ => trivial⟩

variable {S : α → Prop} {l : List α}

theorem mapM (h : ∀ a ∈ l, Ends P (f a) (S a)) : Ends P (l.mapM f) (∀ a ∈ l, S a) := by
  induction l with
  | nil => exact (ok []).congr (by simp)
  | cons a l ih =>
    rw [List.mapM_cons]
    refine ((h a List.mem_cons_self).bind fun b _ =>
      (ih fun a ha => h a (List.mem_cons_of_mem _ ha)).bind fun _ _ => ok _).congr ?_
    simp

theorem foldlM {g : β → α → Except ε β} (h : ∀ b, ∀ a ∈ l, Ends P (g b a) (S a)) (b : β) :
    Ends P (l.foldlM g b) (∀ a ∈ l, S a) := by
  induction l generalizing b with
  | nil => exact (ok b).congr (by simp)
  | cons a l ih =>
    rw [List.foldlM_cons]
    refine ((h b a List.mem_cons_self).bind fun b' _ =>
      ih (fun b a ha => h b a (List.mem_cons_of_mem _ ha)) b').congr ?_
    simp

theorem filterM {g : α → Except ε Bool} (h : ∀ a ∈ l, Ends P (g a) (S a)) :
    Ends P (l.filterM g) (∀ a ∈ l, S a) := by
  have aux (kept : List α) : Ends P (l.filterAuxM g kept) (∀ a ∈ l, S a) := by
    induction l generalizing kept with
    | nil => exact (ok kept).congr (by simp)
    | cons a l ih =>
      refine ((h a List.mem_cons_self).bind fun keep _ =>
        ih (fun a ha => h a (List.mem_cons_of_mem _ ha)) _).congr ?_
      simp
  exact ((aux []).bind fun _ _ => ok _).congr ⟨And.left, fun h => ⟨h, trivial⟩⟩

/-- A chain of checks returns where each that is reached does. -/
theorem firstFailure {passes : α → Except ε Bool} (h : ∀ a ∈ l, Ends P (passes a) (S a)) :
    Ends P (firstFailure passes l) (∀ a, UpTo (passes · = .ok true) l a → S a) := by
  induction l with
  | nil => exact (ok none).congr ⟨fun _ _ ha => ha.not_nil.elim, fun _ => trivial⟩
  | cons first l ih =>
    have hfirst := h first List.mem_cons_self
    have hrest := ih fun a ha => h a (List.mem_cons_of_mem _ ha)
    rcases hpasses : passes first with e | _ | _
    · rw [firstFailure_raise hpasses]
      refine (error (hfirst.raises e hpasses)).congr ⟨False.elim, fun hall => ?_⟩
      obtain ⟨b, hb⟩ := hfirst.returns.mpr (hall first .head)
      rw [hpasses] at hb
      cases hb
    · rw [firstFailure_fail hpasses]
      refine (ok _).congr ⟨fun _ a ha => ?_, fun _ => trivial⟩
      rcases ha.of_cons with rfl | ⟨hnot, -⟩
      · exact hfirst.returns.mp ⟨false, hpasses⟩
      · rw [hpasses] at hnot
        cases hnot
    · rw [firstFailure_pass hpasses]
      refine hrest.congr ⟨fun hall a ha => ?_, fun hall a ha => hall a (ha.cons hpasses)⟩
      rcases ha.of_cons with rfl | ⟨-, ha⟩
      · exact hfirst.returns.mp ⟨true, hpasses⟩
      · exact hall a ha

end Ends

theorem foldlM_invariant {g : β → α → Except ε β} {I : β → Prop} {l : List α} {b r : β}
    (step : ∀ b a b', I b → g b a = .ok b' → I b') (hb : I b) (h : l.foldlM g b = .ok r) : I r := by
  induction l generalizing b with
  | nil =>
    cases h
    exact hb
  | cons a l ih =>
    rw [List.foldlM_cons] at h
    obtain ⟨b', hstep, hrest⟩ := bind_ok.mp h
    exact ih (step b a b' hb hstep) hrest

/-- What a loop that returns has collected. -/
theorem mem_of_mapM {f : α → Except ε β} {l : List α} {bs : List β} (h : l.mapM f = .ok bs) {b : β} :
    b ∈ bs ↔ ∃ a ∈ l, f a = .ok b := by
  induction l generalizing bs with
  | nil =>
    cases h
    simp
  | cons a l ih =>
    rw [List.mapM_cons] at h
    obtain ⟨b', hb', h⟩ := bind_ok.mp h
    obtain ⟨bs', hbs', h⟩ := bind_ok.mp h
    cases h
    simp [ih hbs', hb', eq_comm]

theorem ok_of_mapM {f : α → Except ε β} {l : List α} {bs : List β} (h : l.mapM f = .ok bs) :
    ∀ a ∈ l, ∃ b, f a = .ok b := by
  induction l generalizing bs with
  | nil => simp
  | cons a l ih =>
    rw [List.mapM_cons] at h
    obtain ⟨b', hb', h⟩ := bind_ok.mp h
    obtain ⟨bs', hbs', -⟩ := bind_ok.mp h
    exact List.forall_mem_cons.mpr ⟨⟨b', hb'⟩, ih hbs'⟩

theorem forM_ok {f : α → Except ε Unit} {l : List α} (h : l.forM f = .ok ()) :
    ∀ a ∈ l, f a = .ok () := by
  induction l with
  | nil => simp
  | cons a l ih =>
    obtain ⟨_, ha, hl⟩ := bind_ok.mp h
    exact List.forall_mem_cons.mpr ⟨ha, ih hl⟩

theorem forM_congr {f g : α → Except ε Unit} {l : List α} (h : ∀ a ∈ l, f a = g a) :
    l.forM f = l.forM g := by
  induction l with
  | nil => rfl
  | cons a l ih =>
    obtain ⟨ha, hl⟩ := List.forall_mem_cons.mp h
    change (f a >>= fun _ => l.forM f) = (g a >>= fun _ => l.forM g)
    rw [ha, ih hl]

/-- What a scan raises, a judgement raised. -/
theorem scan_error {ρ : Type} {judge : α → Except ε (Verdict ρ β)} {l : List α} {e : ε}
    (h : scan judge l = .error e) : ∃ a ∈ l, judge a = .error e := by
  induction l with
  | nil => cases h
  | cons first l ih =>
    cases hfirst : judge first with
    | error e' =>
      simp only [scan, hfirst] at h
      cases h
      exact ⟨first, List.mem_cons_self, hfirst⟩
    | ok verdict =>
      simp only [scan, hfirst] at h
      have later : scan judge l = .error e → ∃ a ∈ first :: l, judge a = .error e := by
        intro hl
        obtain ⟨a, ha, he⟩ := ih hl
        exact ⟨a, List.mem_cons_of_mem _ ha, he⟩
      cases verdict with
      | skip => exact later h
      | reject reason =>
        cases hscan : scan judge l with
        | error e' =>
          rw [hscan] at h
          cases h
          exact later hscan
        | ok found =>
          rw [hscan] at h
          cases h
      | accept value => cases h

end Checks
