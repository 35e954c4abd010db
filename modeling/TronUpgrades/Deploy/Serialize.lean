import Mathlib.Logic.Relation
import Mathlib.Tactic.ByContra
import TronUpgrades.Failure

/-!
# One operation at a time per deployer

`serializeOperation` chains the body of each call on the settlement of the
call before it on the same deployer, and refuses every call made from inside a
running body. An operation is known by its place in the order of the calls.
The promises of a call are `chained`, the private tail that absorbs its
outcome, and the one returned; each step is one reaction of one of them, and
reactions that are ready run in any order.
-/

namespace TronUpgrades.Deploy

open Relation (ReflTransGen)

/-- A body before it runs, while it runs, and the outcome it settled with. -/
inductive Phase (α : Type)
  | waiting
  | running
  | settled (outcome : Except Failure α)

structure Operation (Host α : Type) where
  host : Host
  /-- The call whose tail this one is chained on. -/
  after : Option Nat
  phase : Phase α
  /-- The private tail has fulfilled. -/
  absorbed : Bool
  /-- What the returned promise settled with. -/
  returned : Option (Except Failure α)

structure Serializer (Host α : Type) where
  operations : List (Operation Host α)
  /-- `tails`: the last call on each deployer. -/
  tails : Host → Option Nat

/-- What the caller has in hand at once. -/
inductive Answer
  | refused (error : Failure)
  /-- Nothing to key on: the body runs outside of every chain. -/
  | free
  | promise (operation : Nat)

variable {Host α : Type}

def Serializer.empty : Serializer Host α := ⟨[], fun _ => none⟩

def Operation.isRunning (op : Operation Host α) : Prop := op.phase = .running

def Operation.isWaiting (op : Operation Host α) : Prop := op.phase = .waiting

def Operation.isSettled (op : Operation Host α) : Prop := ∃ outcome, op.phase = .settled outcome

section
variable [DecidableEq Host]

/-- `active` is the async-local store where the call is made; a deployer that
is no object is `none`. -/
def serializeOperation (s : Serializer Host α) (active : Option Host) (operation : String)
    (deployer : Option Host) : Serializer Host α × Answer :=
  match active with
  | some _ => (s, .refused (.nestedOperation operation))
  | none =>
    match deployer with
    | none => (s, .free)
    | some host =>
      let phase := if (s.tails host).isNone then .running else .waiting
      let op : Operation Host α := ⟨host, s.tails host, phase, false, none⟩
      let tails := fun h => if h = host then some s.operations.length else s.tails h
      (⟨s.operations ++ [op], tails⟩, .promise s.operations.length)

end

def Serializer.update (s : Serializer Host α) (i : Nat)
    (f : Operation Host α → Operation Host α) : Serializer Host α :=
  { s with operations := s.operations.modify i f }

def Serializer.at? (s : Serializer Host α) (i : Nat) : Option (Operation Host α) :=
  s.operations[i]?

/-- What runs by itself once it is ready. -/
inductive Reacts (s : Serializer Host α) : Serializer Host α → Prop
  /-- The tail settled: `active.run(host, run)`. -/
  | start {i k op tail} : s.at? i = some op → op.isWaiting → op.after = some k →
      s.at? k = some tail → tail.absorbed = true →
      Reacts s (s.update i fun op => { op with phase := .running })
  /-- `chained.then(() => undefined, () => undefined)` -/
  | absorb {i op} : s.at? i = some op → op.isSettled →
      Reacts s (s.update i fun op => { op with absorbed := true })
  /-- `chained.then(value => value)` -/
  | deliver {i op outcome} : s.at? i = some op → op.phase = .settled outcome →
      Reacts s (s.update i fun op => { op with returned := some outcome })

section
variable [DecidableEq Host]

inductive Step (s : Serializer Host α) : Serializer Host α → Prop
  | reacts {t} : Reacts s t → Step s t
  /-- A call from outside of every keyed body. -/
  | call (operation : String) (deployer : Option Host) :
      Step s (serializeOperation s none operation deployer).1
  /-- A call from inside the running body of a keyed one. -/
  | nested {i op} (operation : String) (deployer : Option Host) : s.at? i = some op →
      op.isRunning → Step s (serializeOperation s (some op.host) operation deployer).1
  /-- A body comes to its end, well or badly. -/
  | finish {i op} (outcome : Except Failure α) : s.at? i = some op → op.isRunning →
      Step s (s.update i fun op => { op with phase := .settled outcome })

def Reachable (s : Serializer Host α) : Prop := ReflTransGen Step .empty s

end

-- ---------------------------------------------------------------------------
-- Which call a call is chained on
-- ---------------------------------------------------------------------------

/-- The deployers called on, each with the call chained on. -/
abbrev Calls (Host : Type) := List (Host × Option Nat)

def On (calls : Calls Host) (h : Host) (j : Nat) : Prop := ∃ after, calls[j]? = some (h, after)

/-- The last call on the deployer before the `i`-th, if any. -/
def LastBefore (calls : Calls Host) (h : Host) (i : Nat) : Option Nat → Prop
  | some k => k < i ∧ On calls h k ∧ ∀ j, k < j → j < i → ¬ On calls h j
  | none => ∀ j, j < i → ¬ On calls h j

structure Linked (calls : Calls Host) (tails : Host → Option Nat) : Prop where
  after : ∀ i h after, calls[i]? = some (h, after) → LastBefore calls h i after
  tail : ∀ h, LastBefore calls h calls.length (tails h)

section
variable {calls : Calls Host} {tails : Host → Option Nat} {h h' : Host} {i j k : Nat}
  {after : Option Nat}

theorem On.lt (hj : On calls h j) : j < calls.length := by
  obtain ⟨after, hj⟩ := hj
  exact (List.getElem?_eq_some_iff.mp hj).1

theorem on_snoc : On (calls ++ [(h', after)]) h j ↔ On calls h j ∨ (j = calls.length ∧ h' = h) := by
  unfold On
  rcases Nat.lt_trichotomy j calls.length with hj | rfl | hj
  · rw [List.getElem?_append_left hj]
    simp [Nat.ne_of_lt hj]
  · simp
  · rw [List.getElem?_eq_none (by simp; omega), List.getElem?_eq_none (by omega)]
    simp [Nat.ne_of_gt hj]

theorem LastBefore.snoc {last : Option Nat} (hi : i ≤ calls.length)
    (hl : LastBefore calls h i last) : LastBefore (calls ++ [(h', after)]) h i last := by
  cases last with
  | some k =>
    obtain ⟨hk, hon, hnone⟩ := hl
    refine ⟨hk, on_snoc.mpr (.inl hon), fun j hkj hji hj => ?_⟩
    rcases on_snoc.mp hj with hj | ⟨rfl, -⟩
    · exact hnone j hkj hji hj
    · omega
  | none =>
    intro j hji hj
    rcases on_snoc.mp hj with hj | ⟨rfl, -⟩
    · exact hl j hji hj
    · omega

theorem Linked.empty : Linked ([] : Calls Host) fun _ => none where
  after _ _ _ hi := by simp at hi
  tail _ := fun j hj => absurd hj (Nat.not_lt_zero j)

/-- A call takes the tail it finds and becomes the tail. -/
theorem Linked.call [DecidableEq Host] (hl : Linked calls tails) (host : Host) :
    Linked (calls ++ [(host, tails host)])
      fun h => if h = host then some calls.length else tails h where
  after i h after hi := by
    rcases Nat.lt_trichotomy i calls.length with hlt | rfl | hgt
    · rw [List.getElem?_append_left hlt] at hi
      exact (hl.after i h after hi).snoc (Nat.le_of_lt hlt)
    · simp only [List.getElem?_concat_length, Option.some.injEq, Prod.mk.injEq] at hi
      obtain ⟨rfl, rfl⟩ := hi
      exact (hl.tail host).snoc (Nat.le_refl _)
    · rw [List.getElem?_eq_none (by simp; omega)] at hi
      cases hi
  tail h := by
    rw [List.length_append, List.length_singleton]
    by_cases heq : h = host
    · subst heq
      rw [if_pos rfl]
      refine ⟨Nat.lt_succ_self _, on_snoc.mpr (.inr ⟨rfl, rfl⟩), fun j hlt hgt => ?_⟩
      omega
    · rw [if_neg heq]
      have hlast := hl.tail h
      cases htail : tails h with
      | some k =>
        rw [htail] at hlast
        obtain ⟨hk, hon, hnone⟩ := hlast
        refine ⟨Nat.lt_succ_of_lt hk, on_snoc.mpr (.inl hon), fun j hkj _ hj => ?_⟩
        rcases on_snoc.mp hj with hj | ⟨-, rfl⟩
        · exact hnone j hkj hj.lt hj
        · exact heq rfl
      | none =>
        rw [htail] at hlast
        intro j _ hj
        rcases on_snoc.mp hj with hj | ⟨-, rfl⟩
        · exact hlast j hj.lt hj
        · exact heq rfl

/-- A call is chained on no call before an earlier one on its deployer. -/
theorem Linked.chained (hl : Linked calls tails) (hi : On calls h i) (hij : i < j)
    (hj : calls[j]? = some (h, after)) : ∃ k, after = some k ∧ i ≤ k ∧ k < j ∧ On calls h k := by
  have hlast := hl.after j h after hj
  cases after with
  | some k =>
    obtain ⟨hk, hon, hnone⟩ := hlast
    refine ⟨k, rfl, ?_, hk, hon⟩
    by_contra hki
    exact hnone i (Nat.lt_of_not_le hki) hij hi
  | none => exact absurd hi (hlast i hij)

end

-- ---------------------------------------------------------------------------
-- The invariant
-- ---------------------------------------------------------------------------

def Serializer.calls (s : Serializer Host α) : Calls Host :=
  s.operations.map fun op => (op.host, op.after)

def Serializer.Absorbed (s : Serializer Host α) (k : Nat) : Prop :=
  ∃ prev, s.at? k = some prev ∧ prev.absorbed = true

/-- What holds of every operation by itself. -/
structure Operation.Ok (s : Serializer Host α) (op : Operation Host α) : Prop where
  opened : ¬ op.isWaiting → ∀ k, op.after = some k → s.Absorbed k
  chained : op.isWaiting → ∃ k, op.after = some k
  absorbed : op.absorbed = true → op.isSettled
  returned : ∀ outcome, op.returned = some outcome → op.phase = .settled outcome

structure Serializer.Ok (s : Serializer Host α) : Prop where
  linked : Linked s.calls s.tails
  each : ∀ i op, s.at? i = some op → op.Ok s

section
variable {s t : Serializer Host α} {i j : Nat} {op a b : Operation Host α} {h : Host}
  {f : Operation Host α → Operation Host α}

theorem Serializer.on_of_at? (hi : s.at? i = some op) : On s.calls op.host i :=
  ⟨op.after, by rw [Serializer.calls, List.getElem?_map, show s.operations[i]? = _ from hi]; rfl⟩

theorem Serializer.calls_at? (hi : s.at? i = some op) : s.calls[i]? = some (op.host, op.after) := by
  rw [Serializer.calls, List.getElem?_map, show s.operations[i]? = _ from hi]
  rfl

theorem Serializer.at?_of_on (hi : On s.calls h i) : ∃ op, s.at? i = some op ∧ op.host = h := by
  obtain ⟨after, hi⟩ := hi
  rw [Serializer.calls, List.getElem?_map, Option.map_eq_some_iff] at hi
  obtain ⟨op, hop, heq⟩ := hi
  exact ⟨op, hop, (Prod.mk.inj heq).1⟩

theorem Serializer.update_self (hi : s.at? i = some op) : (s.update i f).at? i = some (f op) := by
  rw [Serializer.at?, Serializer.update, List.getElem?_modify_eq, show s.operations[i]? = _ from hi]
  rfl

theorem Serializer.update_of_ne (hij : i ≠ j) : (s.update i f).at? j = s.at? j :=
  List.getElem?_modify_ne f s.operations hij

theorem Serializer.update_calls (hf : ∀ op, (f op).host = op.host ∧ (f op).after = op.after) :
    (s.update i f).calls = s.calls := by
  apply List.ext_getElem?
  intro j
  simp only [Serializer.calls, Serializer.update, List.getElem?_map, List.getElem?_modify]
  by_cases hij : i = j
  · cases s.operations[j]? with
    | none => simp [hij]
    | some op => simp [hij, hf op]
  · simp [hij]

/-- What has been absorbed stays so. -/
theorem Operation.Ok.mono (hop : op.Ok s) (h : ∀ k, s.Absorbed k → t.Absorbed k) : op.Ok t where
  opened hw k hk := h k (hop.opened hw k hk)
  chained := hop.chained
  absorbed := hop.absorbed
  returned := hop.returned

/-- A step of one operation that keeps what holds of it. -/
theorem Serializer.Ok.update (hs : s.Ok) (hi : s.at? i = some op)
    (hf : ∀ op, (f op).host = op.host ∧ (f op).after = op.after)
    (absorbed : op.absorbed = true → (f op).absorbed = true) (hop : (f op).Ok s) :
    (s.update i f).Ok := by
  have later : ∀ k, s.Absorbed k → (s.update i f).Absorbed k := by
    rintro k ⟨prev, hk, hprev⟩
    by_cases hik : i = k
    · subst hik
      rw [hi] at hk
      cases hk
      exact ⟨f op, Serializer.update_self hi, absorbed hprev⟩
    · exact ⟨prev, (Serializer.update_of_ne hik).trans hk, hprev⟩
  constructor
  · rw [Serializer.update_calls hf]
    exact hs.linked
  · intro j other hj
    by_cases hij : i = j
    · subst hij
      rw [Serializer.update_self hi] at hj
      cases hj
      exact hop.mono later
    · rw [Serializer.update_of_ne hij] at hj
      exact (hs.each j other hj).mono later

theorem Serializer.Ok.reacts (hs : s.Ok) (hr : Reacts s t) : t.Ok := by
  cases hr with
  | @start i k op tail hi hwaiting hafter hk hopen =>
    have hop := hs.each i op hi
    refine hs.update hi (fun _ => ⟨rfl, rfl⟩) id ⟨?_, nofun, ?_, ?_⟩
    · rintro - k' hk'
      rw [show op.after = some k from hafter] at hk'
      cases hk'
      exact ⟨tail, hk, hopen⟩
    · intro habsorbed
      obtain ⟨outcome, hsettled⟩ := hop.absorbed habsorbed
      rw [Operation.isWaiting, hsettled] at hwaiting
      cases hwaiting
    · intro outcome hreturned
      have hsettled := hop.returned outcome hreturned
      rw [Operation.isWaiting, hsettled] at hwaiting
      cases hwaiting
  | @absorb i op hi hsettled =>
    have hop := hs.each i op hi
    exact hs.update hi (fun _ => ⟨rfl, rfl⟩) (fun _ => rfl)
      ⟨hop.opened, hop.chained, fun _ => hsettled, hop.returned⟩
  | @deliver i op outcome hi hsettled =>
    have hop := hs.each i op hi
    refine hs.update hi (fun _ => ⟨rfl, rfl⟩) id ⟨hop.opened, hop.chained, hop.absorbed, ?_⟩
    intro outcome' heq
    cases heq
    exact hsettled

variable [DecidableEq Host]

/-- A call that is not refused, on a deployer. -/
theorem Serializer.Ok.append (hs : s.Ok) (host : Host) :
    (serializeOperation s none "" (some host)).1.Ok := by
  have later : ∀ k, s.Absorbed k →
      (serializeOperation (α := α) s none "" (some host)).1.Absorbed k := by
    rintro k ⟨prev, hk, hprev⟩
    refine ⟨prev, ?_, hprev⟩
    exact (List.getElem?_append_left (List.getElem?_eq_some_iff.mp hk).1).trans hk
  constructor
  · simpa [Serializer.calls, serializeOperation] using hs.linked.call host
  · intro i op hi
    rcases Nat.lt_trichotomy i s.operations.length with hlt | rfl | hgt
    · have hi := (List.getElem?_append_left hlt).symm.trans hi
      exact (hs.each i op hi).mono later
    · have hi := List.getElem?_concat_length.symm.trans hi
      cases hi
      refine ⟨?_, ?_, nofun, nofun⟩
      · intro hopen k hk
        simp only [show s.tails host = some k from hk, Operation.isWaiting] at hopen
        exact absurd rfl hopen
      · intro hwaiting
        simp only [Operation.isWaiting] at hwaiting
        split at hwaiting
        · cases hwaiting
        next hsome =>
          show ∃ k, s.tails host = some k
          exact Option.ne_none_iff_exists'.mp (by simpa using hsome)
    · have hi : (s.operations ++ [_])[i]? = some op := hi
      rw [List.getElem?_eq_none (by simp; omega)] at hi
      cases hi

theorem Serializer.Ok.call (hs : s.Ok) (active : Option Host) (operation : String)
    (deployer : Option Host) : (serializeOperation s active operation deployer).1.Ok := by
  cases active with
  | some _ => exact hs
  | none =>
    cases deployer with
    | none => exact hs
    | some host => exact hs.append host

theorem Serializer.Ok.step (hs : s.Ok) (hst : Step s t) : t.Ok := by
  cases hst with
  | reacts hr => exact hs.reacts hr
  | call operation deployer => exact hs.call none operation deployer
  | @nested i op operation deployer hi hrunning => exact hs.call (some op.host) operation deployer
  | @finish i op outcome hi hrunning =>
    have hop := hs.each i op hi
    have notWaiting : ¬ op.isWaiting := by
      intro hwaiting
      rw [Operation.isWaiting, show op.phase = .running from hrunning] at hwaiting
      cases hwaiting
    refine hs.update hi (fun _ => ⟨rfl, rfl⟩) id
      ⟨fun _ => hop.opened notWaiting, nofun, fun _ => ⟨outcome, rfl⟩, ?_⟩
    intro outcome' hreturned
    have hsettled := hop.returned outcome' hreturned
    rw [show op.phase = .running from hrunning] at hsettled
    cases hsettled

theorem Reachable.ok (hs : Reachable s) : s.Ok := by
  induction hs with
  | refl => exact ⟨.empty, fun i op hi => by simp [Serializer.at?, Serializer.empty] at hi⟩
  | tail _ hst ih => exact ih.step hst

end

-- ---------------------------------------------------------------------------
-- Runs
-- ---------------------------------------------------------------------------

section
variable {s t : Serializer Host α} {i j : Nat} {a b op : Operation Host α}

theorem Operation.isSettled.not_running (h : op.isSettled) : ¬ op.isRunning := by
  obtain ⟨outcome, h⟩ := h
  rw [Operation.isRunning, h]
  exact nofun

theorem Operation.isSettled.not_waiting (h : op.isSettled) : ¬ op.isWaiting := by
  obtain ⟨outcome, h⟩ := h
  rw [Operation.isWaiting, h]
  exact nofun

theorem Operation.isRunning.not_waiting (h : op.isRunning) : ¬ op.isWaiting := by
  rw [Operation.isRunning] at h
  rw [Operation.isWaiting, h]
  exact nofun

theorem Operation.settled_of (hw : ¬ op.isWaiting) (hr : ¬ op.isRunning) : op.isSettled := by
  cases h : op.phase with
  | waiting => exact absurd h hw
  | running => exact absurd h hr
  | settled outcome => exact ⟨outcome, h⟩

/-- A body starts only after every earlier one on its deployer has settled. By
induction along the calls that `b` is chained on. -/
theorem Serializer.Ok.ordered (hs : s.Ok) (ha : s.at? i = some a) (hb : s.at? j = some b)
    (hhost : a.host = b.host) (hij : i < j) (hopen : ¬ b.isWaiting) : a.isSettled := by
  induction j using Nat.strongRecOn generalizing b with
  | ind j ih =>
    have hon := Serializer.on_of_at? ha
    rw [hhost] at hon
    obtain ⟨k, hafter, hik, hkj, honk⟩ := hs.linked.chained hon hij (Serializer.calls_at? hb)
    obtain ⟨prev, hprev, habsorbed⟩ := (hs.each j b hb).opened hopen k hafter
    have hsettled := (hs.each k prev hprev).absorbed habsorbed
    rcases Nat.lt_or_eq_of_le hik with hlt | rfl
    · obtain ⟨prev', hprev', hhost'⟩ := Serializer.at?_of_on honk
      rw [hprev] at hprev'
      cases hprev'
      exact ih k hkj hprev (hhost.trans hhost'.symm) hlt hsettled.not_waiting
    · rw [ha] at hprev
      cases hprev
      exact hsettled

theorem Serializer.Ok.exclusive (hs : s.Ok) (ha : s.at? i = some a) (hb : s.at? j = some b)
    (hhost : a.host = b.host) (hra : a.isRunning) (hrb : b.isRunning) : i = j := by
  rcases Nat.lt_trichotomy i j with hij | hij | hji
  · exact absurd hra (hs.ordered ha hb hhost hij hrb.not_waiting).not_running
  · exact hij
  · exact absurd hrb (hs.ordered hb ha hhost.symm hji hra.not_waiting).not_running

/-- The call it is chained on has settled; two reactions later it runs. -/
theorem Serializer.Ok.ready (hs : s.Ok) (ha : s.at? i = some a) (hwaiting : a.isWaiting)
    (hidle : ∀ j b, s.at? j = some b → b.host = a.host → ¬ b.isRunning)
    (hfirst : ∀ j b, s.at? j = some b → b.host = a.host → j < i → ¬ b.isWaiting) :
    ∃ t, ReflTransGen Reacts s t ∧ ∃ b, t.at? i = some b ∧ b.isRunning := by
  obtain ⟨k, hafter⟩ := (hs.each i a ha).chained hwaiting
  have hlast := hs.linked.after i a.host a.after (Serializer.calls_at? ha)
  rw [hafter] at hlast
  obtain ⟨hki, hon, -⟩ := hlast
  obtain ⟨prev, hprev, hhost⟩ := Serializer.at?_of_on hon
  have hsettled : prev.isSettled := Operation.settled_of
    (hfirst k prev hprev hhost hki) (hidle k prev hprev hhost)
  have hne : k ≠ i := Nat.ne_of_lt hki
  have habsorbs : Reacts s (s.update k fun op => { op with absorbed := true }) :=
    .absorb hprev hsettled
  have hself := (Serializer.update_of_ne (f := fun op => { op with absorbed := true }) hne).trans ha
  have hstarts := Reacts.start hself hwaiting hafter (Serializer.update_self hprev) rfl
  exact ⟨_, .tail (.single habsorbs) hstarts, _, Serializer.update_self hself, rfl⟩

-- ---------------------------------------------------------------------------
-- Outcomes
-- ---------------------------------------------------------------------------

variable {β : Type} (f : Except Failure α → Except Failure β)

def Phase.map : Phase α → Phase β
  | .waiting => .waiting
  | .running => .running
  | .settled outcome => .settled (f outcome)

def Operation.map (op : Operation Host α) : Operation Host β where
  host := op.host
  after := op.after
  phase := op.phase.map f
  absorbed := op.absorbed
  returned := op.returned.map f

def Serializer.map (s : Serializer Host α) : Serializer Host β where
  operations := s.operations.map (·.map f)
  tails := s.tails

variable {f}

theorem Serializer.at?_map (hi : s.at? i = some op) : (s.map f).at? i = some (op.map f) := by
  rw [Serializer.at?, Serializer.map, List.getElem?_map, show s.operations[i]? = _ from hi]
  rfl

theorem Serializer.map_update {g : Operation Host α → Operation Host α}
    {q : Operation Host β → Operation Host β} (hg : ∀ op, (g op).map f = q (op.map f)) :
    (s.update i g).map f = (s.map f).update i q := by
  have hlists : (s.operations.modify i g).map (·.map f) =
      (s.operations.map (·.map f)).modify i q := by
    apply List.ext_getElem?
    intro j
    simp only [List.getElem?_map, List.getElem?_modify]
    by_cases hij : i = j
    · cases s.operations[j]? with
      | none => simp [hij]
      | some op => simp [hij, hg op]
    · simp [hij]
  simp only [Serializer.update, Serializer.map, hlists]

theorem Reacts.map (hr : Reacts s t) : Reacts (s.map f) (t.map f) := by
  cases hr with
  | @start i k op tail hi hwaiting hafter hk hopen =>
    rw [Serializer.map_update (q := fun op => { op with phase := .running }) fun _ => rfl]
    refine .start (Serializer.at?_map hi) ?_ hafter (Serializer.at?_map hk) hopen
    exact congrArg (Phase.map f) hwaiting
  | @absorb i op hi hsettled =>
    rw [Serializer.map_update (q := fun op => { op with absorbed := true }) fun _ => rfl]
    obtain ⟨outcome, hsettled⟩ := hsettled
    exact .absorb (Serializer.at?_map hi) ⟨f outcome, congrArg (Phase.map f) hsettled⟩
  | @deliver i op outcome hi hsettled =>
    rw [Serializer.map_update (q := fun op => { op with returned := some (f outcome) }) fun _ => rfl]
    exact .deliver (Serializer.at?_map hi) (congrArg (Phase.map f) hsettled)

variable [DecidableEq Host]

theorem serializeOperation_map (active : Option Host) (operation : String)
    (deployer : Option Host) : (serializeOperation s active operation deployer).1.map f =
      (serializeOperation (s.map f) active operation deployer).1 := by
  cases active with
  | some _ => rfl
  | none =>
    cases deployer with
    | none => rfl
    | some host =>
      by_cases hnone : (s.tails host).isNone <;>
        simp [serializeOperation, Serializer.map, Operation.map, Phase.map, hnone]

theorem Step.map (hst : Step s t) : Step (s.map f) (t.map f) := by
  cases hst with
  | reacts hr => exact .reacts hr.map
  | call operation deployer =>
    rw [serializeOperation_map]
    exact .call operation deployer
  | @nested i op operation deployer hi hrunning =>
    rw [serializeOperation_map]
    exact .nested operation deployer (Serializer.at?_map hi) (congrArg (Phase.map f) hrunning)
  | @finish i op outcome hi hrunning =>
    rw [Serializer.map_update (q := fun op => { op with phase := .settled (f outcome) }) fun _ => rfl]
    exact .finish (f outcome) (Serializer.at?_map hi) (congrArg (Phase.map f) hrunning)

theorem Reachable.map (hs : Reachable s) : Reachable (s.map f) := by
  induction hs with
  | refl => exact .refl
  | tail _ hst ih => exact ih.tail hst.map

end

-- ---------------------------------------------------------------------------
-- Serialisation
-- ---------------------------------------------------------------------------

/-- What holds in every reachable state, whatever the deployers, the calls and
the outcomes. -/
structure Serialised [DecidableEq Host] (s : Serializer Host α) : Prop where
  /-- A call from outside on a deployer takes its place behind the calls before
  it, and is answered with it. -/
  called : ∀ operation host, ∃ op, serializeOperation s none operation (some host) =
      (⟨s.operations ++ [op], fun h => if h = host then some s.operations.length else s.tails h⟩,
        .promise s.operations.length) ∧
    op.host = host ∧ op.after = s.tails host ∧ ¬ op.isSettled ∧ op.returned = none
  exclusive : ∀ i j a b, s.at? i = some a → s.at? j = some b → a.host = b.host →
    a.isRunning → b.isRunning → i = j
  /-- In the order of the calls: what has started had every earlier body settled. -/
  ordered : ∀ i j a b, s.at? i = some a → s.at? j = some b → a.host = b.host → i < j →
    ¬ b.isWaiting → a.isSettled
  /-- A caller gets its own body's outcome. -/
  own : ∀ i a outcome, s.at? i = some a → a.returned = some outcome → a.phase = .settled outcome
  /-- The same run was open to every other outcome of the bodies. -/
  blind : ∀ {β : Type} (f : Except Failure α → Except Failure β), Reachable (s.map f)
  /-- From inside a keyed body every call is refused, and nothing waits for it. -/
  nested : ∀ (i : Nat) (a : Operation Host α) operation deployer, s.at? i = some a →
    a.isRunning → serializeOperation s (some a.host) operation deployer =
      (s, .refused (.nestedOperation operation))
  /-- The first to wait on an idle deployer starts by itself. -/
  ready : ∀ i a, s.at? i = some a → a.isWaiting →
    (∀ j b, s.at? j = some b → b.host = a.host → ¬ b.isRunning) →
    (∀ j b, s.at? j = some b → b.host = a.host → j < i → ¬ b.isWaiting) →
    ∃ t, ReflTransGen Reacts s t ∧ ∃ b, t.at? i = some b ∧ b.isRunning

theorem reachable_serialised [DecidableEq Host] {s : Serializer Host α} (hs : Reachable s) :
    Serialised s where
  called operation host := by
    refine ⟨_, rfl, rfl, rfl, ?_, rfl⟩
    rintro ⟨outcome, hsettled⟩
    dsimp only at hsettled
    split at hsettled <;> cases hsettled
  exclusive _ _ _ _ ha hb := hs.ok.exclusive ha hb
  ordered _ _ _ _ ha hb := hs.ok.ordered ha hb
  own i a outcome ha := (hs.ok.each i a ha).returned outcome
  blind _ := hs.map
  nested _ _ _ _ _ _ := rfl
  ready _ _ ha hwaiting := hs.ok.ready ha hwaiting

/-- Two calls on one deployer: the first body fails, which rejects its own
caller, and the second starts behind it and succeeds. -/
theorem twoCalls_serialised : ∃ s : Serializer Unit Unit, Reachable s ∧
    s.operations.map (·.returned) = [some (.error (.error "REVERT opcode executed")), some (.ok ())] ∧
    Serialised s := by
  have hcalls := ReflTransGen.single (Step.call (s := (.empty : Serializer Unit Unit))
    "deployProxy" (some ()))
  have hcalls := hcalls.tail (.call "upgradeProxy" (some ()))
  have hfails := hcalls.tail (.finish (i := 0) (.error (.error "REVERT opcode executed")) rfl rfl)
  have hrejects := hfails.tail (.reacts (.deliver (i := 0) rfl rfl))
  have habsorbs := hrejects.tail (.reacts (.absorb (i := 0) rfl ⟨_, rfl⟩))
  have hstarts := habsorbs.tail (.reacts (.start (i := 1) (k := 0) rfl rfl rfl rfl rfl))
  have hends := hstarts.tail (.finish (i := 1) (.ok ()) rfl rfl)
  have hreached := hends.tail (.reacts (.deliver (i := 1) rfl rfl))
  exact ⟨_, hreached, rfl, reachable_serialised hreached⟩

end TronUpgrades.Deploy
