/-!
# Scanning candidates through checks

`firstFailure` runs a chain of checks on one candidate and stops at the first
that fails; `scan` takes candidates in order and stops at the first it accepts.
A check may raise, and then everything ends there. Each is told apart by where
in the list it stopped.
-/

namespace Checks

variable {ε α ρ β : Type}

theorem bind_ok {x : Except ε α} {f : α → Except ε β} {b : β} :
    x >>= f = .ok b ↔ ∃ a, x = .ok a ∧ f a = .ok b := by
  cases x <;> simp [bind, Except.bind]

theorem bind_error {x : Except ε α} {f : α → Except ε β} {e : ε} :
    x >>= f = .error e ↔ x = .error e ∨ ∃ a, x = .ok a ∧ f a = .error e := by
  cases x <;> simp [bind, Except.bind]

theorem pure_ok {a b : α} : (pure a : Except ε α) = .ok b ↔ a = b := by
  simp [pure, Except.pure]

/-- Everything before this element of the list is so. -/
def UpTo (p : α → Prop) (l : List α) (a : α) : Prop :=
  ∃ before after, l = before ++ a :: after ∧ ∀ b ∈ before, p b

namespace UpTo

variable {p : α → Prop} {l : List α} {a first : α}

theorem head : UpTo p (a :: l) a := ⟨[], l, rfl, nofun⟩

theorem cons (hfirst : p first) (h : UpTo p l a) : UpTo p (first :: l) a := by
  obtain ⟨before, after, rfl, hbefore⟩ := h
  exact ⟨first :: before, after, rfl, List.forall_mem_cons.mpr ⟨hfirst, hbefore⟩⟩

theorem of_cons (h : UpTo p (first :: l) a) : a = first ∨ p first ∧ UpTo p l a := by
  obtain ⟨_ | ⟨b, before⟩, after, hl, hbefore⟩ := h
  · obtain ⟨rfl, -⟩ := List.cons.inj hl
    exact .inl rfl
  · obtain ⟨rfl, rfl⟩ := List.cons.inj hl
    obtain ⟨hfirst, hbefore⟩ := List.forall_mem_cons.mp hbefore
    exact .inr ⟨hfirst, before, after, rfl, hbefore⟩

theorem not_nil (h : UpTo p [] a) : False := by
  obtain ⟨before, after, hnil, -⟩ := h
  simp at hnil

/-- The first that is not so is one. -/
theorem unique {b : α} (ha : UpTo p l a) (hna : ¬ p a) (hb : UpTo p l b) (hnb : ¬ p b) :
    a = b := by
  induction l with
  | nil => exact ha.not_nil.elim
  | cons first l ih =>
    rcases ha.of_cons with rfl | ⟨hfirst, ha⟩
    · rcases hb.of_cons with rfl | ⟨hfirst, -⟩
      · rfl
      · exact absurd hfirst hna
    · rcases hb.of_cons with rfl | ⟨-, hb⟩
      · exact absurd hfirst hnb
      · exact ih ha hb

theorem mem (h : UpTo p l a) : a ∈ l := by
  obtain ⟨before, after, rfl, -⟩ := h
  exact List.mem_append_right _ List.mem_cons_self

end UpTo

-- ---------------------------------------------------------------------------
-- One candidate
-- ---------------------------------------------------------------------------

/-- The first check that does not pass. -/
def firstFailure (passes : α → Except ε Bool) : List α → Except ε (Option α)
  | [] => .ok none
  | check :: checks =>
    match passes check with
    | .error e => .error e
    | .ok true => firstFailure passes checks
    | .ok false => .ok (some check)

section
variable {passes : α → Except ε Bool} {checks : List α} {check : α} {e : ε}

theorem firstFailure_pass (h : passes check = .ok true) :
    firstFailure passes (check :: checks) = firstFailure passes checks := by
  simp [firstFailure, h]

theorem firstFailure_fail (h : passes check = .ok false) :
    firstFailure passes (check :: checks) = .ok (some check) := by
  simp [firstFailure, h]

theorem firstFailure_raise (h : passes check = .error e) :
    firstFailure passes (check :: checks) = .error e := by
  simp [firstFailure, h]

theorem firstFailure_none : firstFailure passes checks = .ok none ↔
    ∀ check ∈ checks, passes check = .ok true := by
  induction checks with
  | nil => simp [firstFailure]
  | cons first checks ih =>
    unfold firstFailure
    rcases hfirst : passes first with e | _ | _ <;> simp [hfirst, ih]

theorem firstFailure_some : firstFailure passes checks = .ok (some check) ↔
    UpTo (passes · = .ok true) checks check ∧ passes check = .ok false := by
  induction checks with
  | nil =>
    exact ⟨nofun, fun h => h.1.not_nil.elim⟩
  | cons first checks ih =>
    unfold firstFailure
    constructor
    · rcases hfirst : passes first with e | _ | _
      · nofun
      · rintro ⟨⟩
        exact ⟨.head, hfirst⟩
      · intro h
        exact ⟨.cons hfirst (ih.mp h).1, (ih.mp h).2⟩
    · rintro ⟨h, hcheck⟩
      rcases h.of_cons with rfl | ⟨hfirst, h⟩
      · rw [hcheck]
      · rw [hfirst]
        exact ih.mpr ⟨h, hcheck⟩

theorem firstFailure_error : firstFailure passes checks = .error e ↔
    ∃ check, UpTo (passes · = .ok true) checks check ∧ passes check = .error e := by
  induction checks with
  | nil => exact ⟨nofun, fun ⟨_, h, _⟩ => h.not_nil.elim⟩
  | cons first checks ih =>
    unfold firstFailure
    constructor
    · rcases hfirst : passes first with e' | _ | _
      · rintro ⟨⟩
        exact ⟨first, .head, hfirst⟩
      · nofun
      · intro h
        obtain ⟨check, hupTo, hcheck⟩ := ih.mp h
        exact ⟨check, hupTo.cons hfirst, hcheck⟩
    · rintro ⟨check, h, hcheck⟩
      rcases h.of_cons with rfl | ⟨hfirst, h⟩
      · rw [hcheck]
      · rw [hfirst]
        exact ih.mpr ⟨check, h, hcheck⟩

end

-- ---------------------------------------------------------------------------
-- Candidates in order
-- ---------------------------------------------------------------------------

inductive Verdict (ρ β : Type)
  | skip
  | reject (reason : ρ)
  | accept (value : β)

/-- What was rejected before the first that is accepted, and that one. -/
def scan (judge : α → Except ε (Verdict ρ β)) :
    List α → Except ε (List (α × ρ) × Option (α × β))
  | [] => .ok ([], none)
  | a :: l =>
    match judge a with
    | .error e => .error e
    | .ok .skip => scan judge l
    | .ok (.reject reason) => (scan judge l).map fun found => ((a, reason) :: found.1, found.2)
    | .ok (.accept value) => .ok ([], some (a, value))

section
variable {judge : α → Except ε (Verdict ρ β)} {l : List α} {a : α}
  {rejected : List (α × ρ)} {e : ε}

def Accepts (judge : α → Except ε (Verdict ρ β)) (a : α) : Prop :=
  ∃ value, judge a = .ok (.accept value)

theorem not_accepts {verdict : Except ε (Verdict ρ β)} (h : judge a = verdict)
    (hverdict : ∀ value, verdict ≠ .ok (.accept value)) : ¬ Accepts judge a := by
  rintro ⟨value, hvalue⟩
  exact hverdict value (h.symm.trans hvalue)

/-- A scan raises where a candidate raises before one is accepted. -/
theorem scan_raises : (∃ e, scan judge l = .error e) ↔
    ∃ a, UpTo (¬ Accepts judge ·) l a ∧ ∃ e, judge a = .error e := by
  induction l with
  | nil => exact ⟨nofun, fun ⟨_, h, _⟩ => h.not_nil.elim⟩
  | cons first l ih =>
    have later (hfirst : ¬ Accepts judge first) (hok : ∀ e, judge first ≠ .error e) :
        (∃ a, UpTo (¬ Accepts judge ·) (first :: l) a ∧ ∃ e, judge a = .error e) ↔
          ∃ a, UpTo (¬ Accepts judge ·) l a ∧ ∃ e, judge a = .error e := by
      constructor
      · rintro ⟨a, ha, e, he⟩
        rcases ha.of_cons with rfl | ⟨-, ha⟩
        · exact absurd he (hok e)
        · exact ⟨a, ha, e, he⟩
      · rintro ⟨a, ha, he⟩
        exact ⟨a, ha.cons hfirst, he⟩
    unfold scan
    rcases hfirst : judge first with e | _ | reason | value
    · exact ⟨fun _ => ⟨first, .head, e, hfirst⟩, fun _ => ⟨e, rfl⟩⟩
    · rw [later (not_accepts hfirst nofun) (by simp [hfirst])]
      exact ih
    · rw [later (not_accepts hfirst nofun) (by simp [hfirst]), ← ih]
      cases scan judge l <;> simp [Except.map]
    · constructor
      · rintro ⟨e, ⟨⟩⟩
      · rintro ⟨a, ha, e, he⟩
        rcases ha.of_cons with rfl | ⟨hnot, -⟩
        · rw [hfirst] at he
          cases he
        · exact absurd ⟨value, hfirst⟩ hnot

theorem scan_reject {first : α} {reason : ρ} {accepted : Option (α × β)}
    (hfirst : judge first = .ok (.reject reason))
    (h : scan judge (first :: l) = .ok (rejected, accepted)) :
    ∃ rest, scan judge l = .ok (rest, accepted) ∧ rejected = (first, reason) :: rest := by
  simp only [scan, hfirst] at h
  cases hscan : scan judge l with
  | error e =>
    rw [hscan] at h
    cases h
  | ok found =>
    rw [hscan] at h
    cases h
    exact ⟨found.1, rfl, rfl⟩

/-- What a scan accepts is the first that is acceptable. -/
theorem scan_accepted {value : β} (h : scan judge l = .ok (rejected, some (a, value))) :
    UpTo (¬ Accepts judge ·) l a ∧ judge a = .ok (.accept value) := by
  induction l generalizing rejected with
  | nil => cases h
  | cons first l ih =>
    rcases hfirst : judge first with e | _ | reason | v
    · simp [scan, hfirst] at h
    · simp only [scan, hfirst] at h
      exact ⟨(ih h).1.cons (not_accepts hfirst nofun), (ih h).2⟩
    · obtain ⟨rest, hl, -⟩ := scan_reject hfirst h
      exact ⟨(ih hl).1.cons (not_accepts hfirst nofun), (ih hl).2⟩
    · simp only [scan, hfirst] at h
      cases h
      exact ⟨.head, hfirst⟩

/-- Where a scan accepts none, what it rejected is every candidate it did not
skip, in their order. -/
theorem scan_exhausted (counts : α → Bool)
    (skips : ∀ a, judge a = .ok .skip ↔ counts a = false)
    (h : scan judge l = .ok (rejected, none)) :
    (∀ a ∈ l, ¬ Accepts judge a) ∧ rejected.map Prod.fst = l.filter counts ∧
      ∀ a reason, (a, reason) ∈ rejected → judge a = .ok (.reject reason) := by
  induction l generalizing rejected with
  | nil =>
    cases h
    exact ⟨nofun, rfl, nofun⟩
  | cons first l ih =>
    have counted {reason : ρ} (hfirst : judge first = .ok (.reject reason)) :
        counts first = true := by
      rw [← Bool.not_eq_false, ← skips, hfirst]
      nofun
    rcases hfirst : judge first with e | _ | reason | v
    · simp [scan, hfirst] at h
    · simp only [scan, hfirst] at h
      obtain ⟨hnone, hlocated, hrejected⟩ := ih h
      refine ⟨fun a ha => ?_, ?_, hrejected⟩
      · rcases List.mem_cons.mp ha with rfl | ha
        · exact not_accepts hfirst nofun
        · exact hnone a ha
      · rw [List.filter_cons_of_neg (by simp [(skips first).mp hfirst]), hlocated]
    · obtain ⟨rest, hl, rfl⟩ := scan_reject hfirst h
      obtain ⟨hnone, hlocated, hrejected⟩ := ih hl
      refine ⟨fun a ha => ?_, ?_, fun a r ha => ?_⟩
      · rcases List.mem_cons.mp ha with rfl | ha
        · exact not_accepts hfirst nofun
        · exact hnone a ha
      · rw [List.filter_cons_of_pos (counted hfirst), List.map_cons, hlocated]
      · rcases List.mem_cons.mp ha with ha | ha
        · obtain ⟨rfl, rfl⟩ := Prod.mk.inj ha
          exact hfirst
        · exact hrejected a r ha
    · simp [scan, hfirst] at h

end

end Checks
