import TronUpgrades.Deploy.Serialize

/-!
# The bridge over the host's queue

`runThroughQueue` queues a step on the host and answers with a promise of its
own. The host is a native promise, or the deferred chain of a migration that
has not started, whose `then` takes one handler and appends a catch that
rethrows, and whose `catch` is real. A promise of the host's is a cell: what
it is registered on, what reacts, and what it settled with; reactions run in
any order once the promise they wait for has settled.
-/

namespace TronUpgrades.Deploy

open Relation (ReflTransGen)

inductive Handler
  /-- Settled from outside: `start()`, or whoever owns a native promise. -/
  | external
  /-- A step that the migration queued itself. -/
  | user
  | step (call : Nat)
  /-- The catch that the chain's `then` appends: it reports and rethrows. -/
  | hostCatch
  | bridgeCatch (call : Nat)
  deriving DecidableEq

structure Cell where
  source : Option Nat
  handler : Handler
  phase : Phase Unit

/-- The closure of one call: its flag, what `resolve` and `reject` were called
with, and where its two links are. The promise keeps the first settlement. -/
structure Call (α : Type) where
  settled : Bool
  settlements : List (Except Failure α)
  /-- How the step ended, where it ran. -/
  ran : Option (Except Failure α)
  upstream : Nat
  link : Nat
  caught : Nat

structure HostQueue (α : Type) where
  cells : List Cell
  calls : List (Call α)
  /-- The deferred chain's promise. -/
  chain : Nat

/-- A value with a `then`. -/
inductive QueueHost
  | native (promise : Nat)
  | deferred

variable {α : Type}

-- ---------------------------------------------------------------------------
-- Registering
-- ---------------------------------------------------------------------------

namespace HostQueue

/-- A chain that has not started. -/
def initial : HostQueue α := ⟨[⟨none, .external, .waiting⟩], [], 0⟩

def register (q : HostQueue α) (source : Nat) (handler : Handler) : HostQueue α × Nat :=
  ({ q with cells := q.cells ++ [⟨some source, handler, .waiting⟩] }, q.cells.length)

/-- The promise that a handler is registered on. -/
def promiseOf (q : HostQueue α) : QueueHost → Nat
  | .native promise => promise
  | .deferred => q.chain

def Has (q : HostQueue α) : QueueHost → Prop
  | .native promise => promise < q.cells.length
  | .deferred => True

def thenOn (q : HostQueue α) (host : QueueHost) (handler : Handler) : HostQueue α × QueueHost :=
  match host with
  | .native promise =>
    let (q, chained) := q.register promise handler
    (q, .native chained)
  | .deferred =>
    let (q, link) := q.register q.chain handler
    let (q, rethrown) := q.register link .hostCatch
    ({ q with chain := rethrown }, .deferred)

def catchOn (q : HostQueue α) (host : QueueHost) (handler : Handler) : HostQueue α × QueueHost :=
  match host with
  | .native promise =>
    let (q, chained) := q.register promise handler
    (q, .native chained)
  | .deferred =>
    let (q, link) := q.register q.chain handler
    ({ q with chain := link }, .deferred)

end HostQueue

def runThroughQueue (q : HostQueue α) (host : QueueHost) : HostQueue α :=
  let call := q.calls.length
  let link := q.cells.length
  let (queued, chained) := q.thenOn host (.step call)
  let caught := queued.cells.length
  let (queued, _) := queued.catchOn chained (.bridgeCatch call)
  { queued with calls := q.calls ++ [⟨false, [], none, q.promiseOf host, link, caught⟩] }

-- ---------------------------------------------------------------------------
-- Settling
-- ---------------------------------------------------------------------------

def settledTwice : Failure :=
  .error ("Internal error in the deployment seam: a queued step settled twice. This is a bug in " ++
    "@openzeppelin/tronbox-upgrades — please report it.")

def settleOnce (outcome : Except Failure α) (call : Call α) : Except Failure (Call α) :=
  if call.settled then .error settledTwice
  else .ok { call with settled := true, settlements := call.settlements ++ [outcome] }

/-- `settleOnce(() => reject(failure))`, whose own failure goes to the chain. -/
def rejectOnce (failure : Failure) (call : Call α) : Except Failure Unit × Call α :=
  match settleOnce (.error failure) call with
  | .ok call => (.ok (), call)
  | .error e => (.error e, call)

/-- The queued function, once `step()` has ended. -/
def queuedStep (outcome : Except Failure α) (call : Call α) : Except Failure Unit × Call α :=
  let call := { call with ran := some outcome }
  match outcome with
  | .ok value =>
    match settleOnce (.ok value) call with
    | .ok call => (.ok (), call)
    -- still inside of the `try`
    | .error e => rejectOnce e call
  | .error failure => rejectOnce failure call

/-- The catch that the bridge appends: it rethrows. -/
def onRejected (failure : Failure) (call : Call α) : Except Failure Unit × Call α :=
  if call.settled then (.error failure, call)
  else
    match settleOnce (.error failure) call with
    | .ok call => (.error failure, call)
    | .error e => (.error e, call)

namespace HostQueue

def settleCell (q : HostQueue α) (i : Nat) (phase : Phase Unit) : HostQueue α :=
  { q with cells := q.cells.modify i fun cell => { cell with phase } }

def setCall (q : HostQueue α) (c : Nat) (call : Call α) : HostQueue α :=
  { q with calls := q.calls.set c call }

/-- A promise is settled with what its reaction made of its source's outcome. -/
inductive Reacts (q : HostQueue α) : HostQueue α → Prop
  | skip {i u cell src e} : q.cells[i]? = some cell → cell.phase = .waiting →
      cell.source = some u → q.cells[u]? = some src → src.phase = .settled (.error e) →
      cell.handler = .user ∨ (∃ c, cell.handler = .step c) ∨ cell.handler = .hostCatch →
      Reacts q (q.settleCell i (.settled (.error e)))
  | run {i u cell src} : q.cells[i]? = some cell → cell.phase = .waiting →
      cell.source = some u → q.cells[u]? = some src → src.phase = .settled (.ok ()) →
      cell.handler = .user ∨ (∃ c, cell.handler = .step c) →
      Reacts q (q.settleCell i .running)
  | pass {i u cell src} : q.cells[i]? = some cell → cell.phase = .waiting →
      cell.source = some u → q.cells[u]? = some src → src.phase = .settled (.ok ()) →
      cell.handler = .hostCatch ∨ (∃ c, cell.handler = .bridgeCatch c) →
      Reacts q (q.settleCell i (.settled (.ok ())))
  | caught {i u c cell src e call} : q.cells[i]? = some cell → cell.phase = .waiting →
      cell.source = some u → q.cells[u]? = some src → src.phase = .settled (.error e) →
      cell.handler = .bridgeCatch c → q.calls[c]? = some call →
      Reacts q ((q.settleCell i (.settled (onRejected e call).1)).setCall c (onRejected e call).2)

inductive Step (q : HostQueue α) : HostQueue α → Prop
  | reacts {t} : Reacts q t → Step q t
  /-- A step of the migration's own comes to its end. -/
  | user {i cell} (r : Except Failure Unit) : q.cells[i]? = some cell → cell.phase = .running →
      cell.handler = .user → Step q (q.settleCell i (.settled r))
  /-- A queued step comes to its end: a value, a rejection or a throw. -/
  | step {i c cell call} (outcome : Except Failure α) : q.cells[i]? = some cell →
      cell.phase = .running → cell.handler = .step c → q.calls[c]? = some call →
      Step q ((q.settleCell i (.settled (queuedStep outcome call).1)).setCall c
        (queuedStep outcome call).2)
  | outside {i cell} (r : Except Failure Unit) : q.cells[i]? = some cell →
      cell.phase = .waiting → cell.handler = .external → Step q (q.settleCell i (.settled r))
  /-- A native promise, from wherever. -/
  | promise : Step q { q with cells := q.cells ++ [⟨none, .external, .waiting⟩] }
  | queued (host : QueueHost) : q.Has host → Step q (q.thenOn host .user).1
  | call (host : QueueHost) : q.Has host → Step q (runThroughQueue q host)

def Reachable (q : HostQueue α) : Prop := ReflTransGen Step .initial q

end HostQueue

-- ---------------------------------------------------------------------------
-- Cells
-- ---------------------------------------------------------------------------

namespace HostQueue

variable {q t : HostQueue α} {i j u : Nat} {phase : Phase Unit} {r : Except Failure Unit}

/-- What never changes of a cell. -/
def shape (q : HostQueue α) (i : Nat) : Option (Option Nat × Handler) :=
  q.cells[i]?.map fun cell => (cell.source, cell.handler)

def phase? (q : HostQueue α) (i : Nat) : Option (Phase Unit) := q.cells[i]?.map (·.phase)

def Settled (q : HostQueue α) (i : Nat) (r : Except Failure Unit) : Prop :=
  q.phase? i = some (.settled r)

theorem Settled.unique {r' : Except Failure Unit} (h : q.Settled i r) (h' : q.Settled i r') :
    r = r' := by
  have heq := h.symm.trans h'
  cases heq
  rfl

@[simp] theorem shape_settleCell : (q.settleCell j phase).shape i = q.shape i := by
  simp only [shape, settleCell, List.getElem?_modify]
  by_cases hij : j = i
  · cases q.cells[i]? <;> simp [hij]
  · simp [hij]

theorem phase?_settleCell_self (h : q.phase? j = some old) :
    (q.settleCell j phase).phase? j = some phase := by
  simp only [phase?, Option.map_eq_some_iff] at h
  obtain ⟨cell, hcell, -⟩ := h
  simp [phase?, settleCell, hcell]

theorem phase?_settleCell_of_ne (hij : j ≠ i) :
    (q.settleCell j phase).phase? i = q.phase? i := by
  simp only [phase?, settleCell, List.getElem?_modify_ne _ _ hij]

/-- Settled is for good: only what has not settled settles. -/
theorem Settled.settleCell (h : q.Settled i r) (hj : ¬ ∃ r, q.Settled j r) :
    (q.settleCell j phase).Settled i r := by
  by_cases hij : j = i
  · subst hij
    exact absurd ⟨r, h⟩ hj
  · exact (phase?_settleCell_of_ne hij).trans h

end HostQueue

-- ---------------------------------------------------------------------------
-- The invariant
-- ---------------------------------------------------------------------------

/-- What carries its source's outcome on; a user's own step may fail. -/
def Handler.Carries : Handler → Prop
  | .step _ | .hostCatch | .bridgeCatch _ => True
  | .external | .user => False

def Call.Fresh (call : Call α) : Prop :=
  call.settled = false ∧ call.settlements = [] ∧ call.ran = none

def Call.Done (call : Call α) (ran : Option (Except Failure α)) (outcome : Except Failure α) :
    Prop :=
  call.settled = true ∧ call.settlements = [outcome] ∧ call.ran = ran

/-- Where a call hangs on the host's queue. -/
def Call.places (call : Call α) : Nat × Nat × Nat := (call.upstream, call.link, call.caught)

/-- A call beside its step's link and its own catch. -/
def Call.Fits (call : Call α) : Phase Unit → Phase Unit → Prop
  | .settled (.ok _), _ => ∃ outcome, call.Done (some outcome) outcome
  | .settled (.error _), .settled (.error failure) => call.Done none (.error failure)
  | _, _ => call.Fresh

/-- The catch is registered on the link, or on the chain's own catch after it. -/
structure Call.Placed (q : HostQueue α) (c : Nat) (call : Call α) : Prop where
  link : q.shape call.link = some (some call.upstream, .step c)
  caught : ∃ p, q.shape call.caught = some (some p, .bridgeCatch c) ∧
    (p = call.link ∨ q.shape p = some (some call.link, .hostCatch))

structure HostQueue.Ok (q : HostQueue α) : Prop where
  link : ∀ i source c, q.shape i = some (source, .step c) →
    ∃ call, q.calls[c]? = some call ∧ call.link = i
  caught : ∀ i source c, q.shape i = some (source, .bridgeCatch c) →
    ∃ call, q.calls[c]? = some call ∧ call.caught = i
  carries : ∀ i u handler r, q.shape i = some (some u, handler) → handler.Carries →
    q.Settled i r → q.Settled u r
  running : ∀ i u handler, q.shape i = some (some u, handler) → handler.Carries →
    q.phase? i = some .running → (∃ c, handler = .step c) ∧ q.Settled u (.ok ())
  placed : ∀ (c : Nat) call, q.calls[c]? = some call → call.Placed q c
  fits : ∀ (c : Nat) call link caught, q.calls[c]? = some call → q.phase? call.link = some link →
    q.phase? call.caught = some caught → call.Fits link caught

section
variable {q t : HostQueue α} {i j u c : Nat} {phase old : Phase Unit} {r : Except Failure Unit}
  {call call' : Call α} {handler : Handler} {source : Option Nat}

/-- What the catch is registered on settles as the link did. -/
theorem HostQueue.Ok.link_of_source (hq : q.Ok) (hc : q.calls[c]? = some call)
    (hshape : q.shape call.caught = some (some u, handler)) (hr : q.Settled u r) :
    q.Settled call.link r := by
  obtain ⟨p, hcaught, hp⟩ := (hq.placed c call hc).caught
  rw [hshape] at hcaught
  cases hcaught
  rcases hp with rfl | hp
  · exact hr
  · exact hq.carries _ _ _ _ hp trivial hr

theorem HostQueue.Ok.through (hq : q.Ok) (hc : q.calls[c]? = some call)
    (hr : q.Settled call.caught r) : q.Settled call.link r := by
  obtain ⟨p, hcaught, -⟩ := (hq.placed c call hc).caught
  exact hq.link_of_source hc hcaught (hq.carries _ _ _ _ hcaught trivial hr)

theorem HostQueue.Ok.upstream (hq : q.Ok) (hc : q.calls[c]? = some call)
    (hr : q.Settled call.link r) : q.Settled call.upstream r :=
  hq.carries _ _ _ _ (hq.placed c call hc).link trivial hr

theorem Call.Placed.mono (h : call.Placed q c) (hshape : ∀ i s, q.shape i = some s →
    t.shape i = some s) : call.Placed t c := by
  obtain ⟨hlink, p, hcaught, hp⟩ := h
  exact ⟨hshape _ _ hlink, p, hshape _ _ hcaught, hp.imp_right (hshape _ _)⟩

/-- One cell goes on, and with it at most the call that it belongs to. -/
theorem HostQueue.Ok.settle (hq : q.Ok) (hj : q.phase? j = some old)
    (hopen : ¬ ∃ r, q.Settled j r) (hshape : q.shape j = some (source, handler))
    (hcarries : ∀ u r, source = some u → handler.Carries → phase = .settled r → q.Settled u r)
    (hrunning : ∀ u, source = some u → handler.Carries → phase = .running →
      (∃ c, handler = .step c) ∧ q.Settled u (.ok ()))
    (calls : List (Call α))
    (hplaces : ∀ c : Nat, calls[c]?.map Call.places = q.calls[c]?.map Call.places)
    (hfits : ∀ (c : Nat) call link caught, calls[c]? = some call →
      (q.settleCell j phase).phase? call.link = some link →
      (q.settleCell j phase).phase? call.caught = some caught → call.Fits link caught) :
    HostQueue.Ok { q.settleCell j phase with calls } := by
  have keep : ∀ {i r}, q.Settled i r → (q.settleCell j phase).Settled i r := fun h =>
    h.settleCell hopen
  have lookup : ∀ (c : Nat) prev, q.calls[c]? = some prev →
      ∃ call, calls[c]? = some call ∧ call.places = prev.places := by
    intro c prev hprev
    have hmap := hplaces c
    rw [hprev, Option.map_some, Option.map_eq_some_iff] at hmap
    exact hmap
  refine ⟨?_, ?_, ?_, ?_, ?_, hfits⟩
  · intro i source c hi
    obtain ⟨prev, hprev, rfl⟩ := hq.link i source c (shape_settleCell.symm.trans hi)
    obtain ⟨call, hcall, hplace⟩ := lookup c prev hprev
    exact ⟨call, hcall, congrArg (·.2.1) hplace⟩
  · intro i source c hi
    obtain ⟨prev, hprev, rfl⟩ := hq.caught i source c (shape_settleCell.symm.trans hi)
    obtain ⟨call, hcall, hplace⟩ := lookup c prev hprev
    exact ⟨call, hcall, congrArg (·.2.2) hplace⟩
  · intro i u handler' r hi hh hr
    have hi := shape_settleCell.symm.trans hi
    by_cases hij : j = i
    · subst hij
      have hphase : some phase = some (.settled r) :=
        (phase?_settleCell_self hj).symm.trans hr
      rw [hshape] at hi
      cases hi
      exact keep (hcarries u r rfl hh (Option.some.inj hphase))
    · exact keep (hq.carries i u handler' r hi hh ((phase?_settleCell_of_ne hij).symm.trans hr))
  · intro i u handler' hi hh hr
    have hi := shape_settleCell.symm.trans hi
    by_cases hij : j = i
    · subst hij
      have hphase : some phase = some .running := (phase?_settleCell_self hj).symm.trans hr
      rw [hshape] at hi
      cases hi
      exact (hrunning u rfl hh (Option.some.inj hphase)).imp_right keep
    · have hr := (phase?_settleCell_of_ne hij).symm.trans hr
      exact (hq.running i u handler' hi hh hr).imp_right keep
  · intro c call hc
    have hmap := hplaces c
    rw [show calls[c]? = some call from hc, Option.map_some, eq_comm,
      Option.map_eq_some_iff] at hmap
    obtain ⟨prev, hprev, hplace⟩ := hmap
    obtain ⟨hlink, p, hcaught, hp⟩ := hq.placed c prev hprev
    obtain ⟨hup, hplace⟩ := Prod.mk.inj hplace
    obtain ⟨hl, hcat⟩ := Prod.mk.inj hplace
    rw [hl, hup] at hlink
    rw [hcat] at hcaught
    rw [hl] at hp
    exact ⟨shape_settleCell.trans hlink, p, shape_settleCell.trans hcaught,
      hp.imp_right shape_settleCell.trans⟩

theorem HostQueue.shape_of {cell : Cell} (hi : q.cells[i]? = some cell) :
    q.shape i = some (cell.source, cell.handler) := by
  rw [HostQueue.shape, hi]
  rfl

theorem HostQueue.phase?_of {cell : Cell} (hi : q.cells[i]? = some cell) :
    q.phase? i = some cell.phase := by
  rw [HostQueue.phase?, hi]
  rfl

theorem HostQueue.setCall_self (hc : q.calls[c]? = some call) : q.setCall c call = q := by
  obtain ⟨hlt, rfl⟩ := List.getElem?_eq_some_iff.mp hc
  rw [HostQueue.setCall, List.set_getElem_self]

theorem HostQueue.Ok.link_ne (hq : q.Ok) (hc : q.calls[c]? = some call)
    (hj : q.shape j = some (source, handler)) (hh : handler ≠ .step c) : call.link ≠ j := by
  rintro rfl
  rw [(hq.placed c call hc).link] at hj
  cases hj
  exact hh rfl

theorem HostQueue.Ok.caught_ne (hq : q.Ok) (hc : q.calls[c]? = some call)
    (hj : q.shape j = some (source, handler)) (hh : handler ≠ .bridgeCatch c) :
    call.caught ≠ j := by
  rintro rfl
  obtain ⟨p, hp, -⟩ := (hq.placed c call hc).caught
  rw [hp] at hj
  cases hj
  exact hh rfl

theorem HostQueue.Ok.fits_of_ne (hq : q.Ok) (hc : q.calls[c]? = some call) (hl : call.link ≠ j)
    (hcat : call.caught ≠ j) {link caught : Phase Unit}
    (hlink : (q.settleCell j phase).phase? call.link = some link)
    (hcaught : (q.settleCell j phase).phase? call.caught = some caught) :
    call.Fits link caught := by
  rw [HostQueue.phase?_settleCell_of_ne (Ne.symm hl)] at hlink
  rw [HostQueue.phase?_settleCell_of_ne (Ne.symm hcat)] at hcaught
  exact hq.fits c call link caught hc hlink hcaught

/-- A cell of no call. -/
theorem HostQueue.Ok.foreign (hq : q.Ok) (hj : q.phase? j = some old)
    (hopen : ¬ ∃ r, q.Settled j r) (hshape : q.shape j = some (source, handler))
    (hstep : ∀ c, handler ≠ .step c) (hcatch : ∀ c, handler ≠ .bridgeCatch c)
    (hcarries : ∀ u, source = some u → handler.Carries →
      ∃ r, phase = .settled r ∧ q.Settled u r) :
    (q.settleCell j phase).Ok := by
  refine hq.settle hj hopen hshape ?_ ?_ q.calls (fun _ => rfl) fun c _ _ _ hc =>
    hq.fits_of_ne hc (hq.link_ne hc hshape (hstep c)) (hq.caught_ne hc hshape (hcatch c))
  · intro u r hu hh hr
    obtain ⟨r', hr', hup⟩ := hcarries u hu hh
    rw [hr] at hr'
    cases hr'
    exact hup
  · intro u hu hh hr
    obtain ⟨r', hr', -⟩ := hcarries u hu hh
    rw [hr] at hr'
    cases hr'

/-- The link of a step, or its catch, and the call they belong to. -/
theorem HostQueue.Ok.own (hq : q.Ok) (hj : q.phase? j = some old)
    (hopen : ¬ ∃ r, q.Settled j r) (hshape : q.shape j = some (some u, handler))
    (hown : handler = .step c ∨ handler = .bridgeCatch c) (hc : q.calls[c]? = some call)
    (hcarries : ∀ r, phase = .settled r → q.Settled u r)
    (hrunning : phase = .running → handler = .step c ∧ q.Settled u (.ok ()))
    (hplaces : call'.places = call.places)
    (hfits : ∀ link caught, (q.settleCell j phase).phase? call.link = some link →
      (q.settleCell j phase).phase? call.caught = some caught → call'.Fits link caught) :
    ((q.settleCell j phase).setCall c call').Ok := by
  obtain ⟨hlt, hget⟩ := List.getElem?_eq_some_iff.mp hc
  refine hq.settle hj hopen hshape ?_ ?_ (q.calls.set c call') ?_ ?_
  · rintro _ r ⟨⟩ - hr
    exact hcarries r hr
  · rintro _ ⟨⟩ - hr
    exact (hrunning hr).imp_left fun hh => ⟨c, hh⟩
  · intro c'
    by_cases heq : c = c'
    · subst heq
      simp [hlt, hplaces, ← hget]
    · rw [List.getElem?_set_ne heq]
  · intro c' other link caught hother hlink hcaught
    by_cases heq : c = c'
    · subst heq
      rw [List.getElem?_set_self hlt] at hother
      cases hother
      obtain ⟨hl, hcat⟩ := Prod.mk.inj (Prod.mk.inj hplaces).2
      rw [hl] at hlink
      rw [hcat] at hcaught
      exact hfits link caught hlink hcaught
    · rw [List.getElem?_set_ne heq] at hother
      have hstep : handler ≠ .step c' := by
        rintro rfl
        exact hown.elim (fun h => heq (Handler.step.inj h).symm) nofun
      have hcatch : handler ≠ .bridgeCatch c' := by
        rintro rfl
        exact hown.elim nofun fun h => heq (Handler.bridgeCatch.inj h).symm
      exact hq.fits_of_ne hother (hq.link_ne hother hshape hstep)
        (hq.caught_ne hother hshape hcatch) hlink hcaught

theorem HostQueue.Ok.linked (hq : q.Ok) (hj : q.phase? j = some old)
    (hopen : ¬ ∃ r, q.Settled j r) (hshape : q.shape j = some (some u, .step c))
    (hc : q.calls[c]? = some call) (hcarries : ∀ r, phase = .settled r → q.Settled u r)
    (hrunning : phase = .running → q.Settled u (.ok ())) (hplaces : call'.places = call.places)
    (hfits : ∀ caught, q.phase? call.caught = some caught → call'.Fits phase caught) :
    ((q.settleCell j phase).setCall c call').Ok := by
  obtain ⟨call₁, hc₁, rfl⟩ := hq.link _ _ _ hshape
  rw [hc] at hc₁
  cases hc₁
  refine hq.own hj hopen hshape (.inl rfl) hc hcarries (fun hr => ⟨rfl, hrunning hr⟩) hplaces ?_
  intro link caught hlink hcaught
  rw [phase?_settleCell_self hj] at hlink
  cases hlink
  rw [phase?_settleCell_of_ne (hq.caught_ne hc hshape nofun).symm] at hcaught
  exact hfits caught hcaught

theorem HostQueue.Ok.catches (hq : q.Ok) (hj : q.phase? j = some old)
    (hopen : ¬ ∃ r, q.Settled j r) (hshape : q.shape j = some (some u, .bridgeCatch c))
    (hc : q.calls[c]? = some call) (hr : q.Settled u r) (hplaces : call'.places = call.places)
    (hfits : q.Settled call.link r → call'.Fits (.settled r) (.settled r)) :
    ((q.settleCell j (.settled r)).setCall c call').Ok := by
  obtain ⟨call₁, hc₁, rfl⟩ := hq.caught _ _ _ hshape
  rw [hc] at hc₁
  cases hc₁
  have hlinked := hq.link_of_source hc hshape hr
  refine hq.own hj hopen hshape (.inr rfl) hc ?_ nofun hplaces ?_
  · rintro _ ⟨⟩
    exact hr
  · intro link caught hlink hcaught
    rw [phase?_settleCell_self hj] at hcaught
    cases hcaught
    rw [phase?_settleCell_of_ne (hq.link_ne hc hshape nofun).symm, hlinked] at hlink
    cases hlink
    exact hfits hlinked

-- ---------------------------------------------------------------------------
-- Steps
-- ---------------------------------------------------------------------------

theorem queuedStep_fresh (outcome : Except Failure α) (h : call.Fresh) :
    ∃ call', queuedStep outcome call = (.ok (), call') ∧ call'.Done (some outcome) outcome ∧
      call'.places = call.places := by
  obtain ⟨hsettled, hnone, -⟩ := h
  cases outcome <;>
    simp [queuedStep, rejectOnce, settleOnce, Call.Done, Call.places, hsettled, hnone]

theorem onRejected_fresh (failure : Failure) (h : call.Fresh) :
    ∃ call', onRejected failure call = (.error failure, call') ∧
      call'.Done none (.error failure) ∧ call'.places = call.places := by
  obtain ⟨hsettled, hnone, hran⟩ := h
  simp [onRejected, settleOnce, Call.Done, Call.places, hsettled, hnone, hran]

theorem not_settled_of_phase? (hi : q.phase? i = some phase) (hopen : ∀ r, phase ≠ .settled r) :
    ¬ ∃ r, q.Settled i r := by
  rintro ⟨r, hr⟩
  rw [HostQueue.Settled, hi] at hr
  exact hopen r (Option.some.inj hr)

/-- While its link has not settled a call is as it was made. -/
theorem HostQueue.Ok.fresh (hq : q.Ok) (hc : q.calls[c]? = some call)
    (hi : q.phase? call.link = some phase) (hopen : ∀ r, phase ≠ .settled r) : call.Fresh := by
  obtain ⟨p, hp, -⟩ := (hq.placed c call hc).caught
  rw [HostQueue.shape, Option.map_eq_some_iff] at hp
  obtain ⟨cell, hcell, -⟩ := hp
  have hfits := hq.fits c call _ _ hc hi (HostQueue.phase?_of hcell)
  cases phase with
  | waiting => exact hfits
  | running => exact hfits
  | settled r => exact absurd rfl (hopen r)

theorem HostQueue.Ok.caught_open (hq : q.Ok) (hc : q.calls[c]? = some call)
    (hi : q.phase? call.link = some phase) (hopen : ∀ r, phase ≠ .settled r) :
    ¬ ∃ r, q.Settled call.caught r := by
  rintro ⟨r, hr⟩
  exact not_settled_of_phase? hi hopen ⟨r, hq.through hc hr⟩

/-- A call whose step was skipped, before its own catch reacts. -/
theorem Call.Fresh.fits_skipped (h : call.Fresh) {failure : Failure} {caught : Phase Unit}
    (hopen : ∀ r, caught ≠ .settled r) : call.Fits (.settled (.error failure)) caught := by
  cases caught with
  | waiting => exact h
  | running => exact h
  | settled r => exact absurd rfl (hopen r)

theorem HostQueue.Ok.reacts (hq : q.Ok) (hr : q.Reacts t) : t.Ok := by
  cases hr with
  | @skip i u cell src e hi hwaiting hsource hu hsettled hhandler =>
    have hphase := HostQueue.phase?_of hi
    have hshape := HostQueue.shape_of hi
    rw [hwaiting] at hphase
    rw [hsource] at hshape
    have hup : q.Settled u (.error e) := (HostQueue.phase?_of hu).trans (congrArg some hsettled)
    have hopen := not_settled_of_phase? hphase nofun
    rcases hhandler with hh | ⟨c, hh⟩ | hh <;> rw [hh] at hshape
    · exact hq.foreign hphase hopen hshape nofun nofun fun _ _ h => h.elim
    · obtain ⟨call, hc, rfl⟩ := hq.link _ _ _ hshape
      rw [← HostQueue.setCall_self (q := q.settleCell _ _) hc]
      refine hq.linked hphase hopen hshape hc ?_ nofun rfl ?_
      · rintro _ ⟨⟩
        exact hup
      · intro caught hcaught
        refine (hq.fresh hc hphase nofun).fits_skipped ?_
        rintro r rfl
        exact hq.caught_open hc hphase nofun ⟨r, hcaught⟩
    · refine hq.foreign hphase hopen hshape nofun nofun ?_
      rintro _ ⟨⟩ -
      exact ⟨_, rfl, hup⟩
  | @run i u cell src hi hwaiting hsource hu hsettled hhandler =>
    have hphase := HostQueue.phase?_of hi
    have hshape := HostQueue.shape_of hi
    rw [hwaiting] at hphase
    rw [hsource] at hshape
    have hup : q.Settled u (.ok ()) := (HostQueue.phase?_of hu).trans (congrArg some hsettled)
    have hopen := not_settled_of_phase? hphase nofun
    rcases hhandler with hh | ⟨c, hh⟩ <;> rw [hh] at hshape
    · exact hq.foreign hphase hopen hshape nofun nofun fun _ _ h => h.elim
    · obtain ⟨call, hc, rfl⟩ := hq.link _ _ _ hshape
      rw [← HostQueue.setCall_self (q := q.settleCell _ _) hc]
      exact hq.linked hphase hopen hshape hc nofun (fun _ => hup) rfl
        fun caught _ => hq.fresh hc hphase nofun
  | @pass i u cell src hi hwaiting hsource hu hsettled hhandler =>
    have hphase := HostQueue.phase?_of hi
    have hshape := HostQueue.shape_of hi
    rw [hwaiting] at hphase
    rw [hsource] at hshape
    have hup : q.Settled u (.ok ()) := (HostQueue.phase?_of hu).trans (congrArg some hsettled)
    have hopen := not_settled_of_phase? hphase nofun
    rcases hhandler with hh | ⟨c, hh⟩ <;> rw [hh] at hshape
    · refine hq.foreign hphase hopen hshape nofun nofun ?_
      rintro _ ⟨⟩ -
      exact ⟨_, rfl, hup⟩
    · obtain ⟨call, hc, rfl⟩ := hq.caught _ _ _ hshape
      rw [← HostQueue.setCall_self (q := q.settleCell _ _) hc]
      refine hq.catches hphase hopen hshape hc hup rfl fun hlinked => ?_
      have hdone : call.Fits (.settled (.ok ())) .waiting := hq.fits c call _ _ hc hlinked hphase
      exact hdone
  | @caught i u c cell src e call hi hwaiting hsource hu hsettled hhandler hc =>
    have hphase := HostQueue.phase?_of hi
    have hshape := HostQueue.shape_of hi
    rw [hwaiting] at hphase
    rw [hsource, hhandler] at hshape
    have hup : q.Settled u (.error e) := (HostQueue.phase?_of hu).trans (congrArg some hsettled)
    have hopen := not_settled_of_phase? hphase nofun
    obtain ⟨call₁, hc₁, rfl⟩ := hq.caught _ _ _ hshape
    rw [hc] at hc₁
    cases hc₁
    have hlinked := hq.link_of_source hc hshape hup
    have hfresh : call.Fresh := hq.fits c call _ _ hc hlinked hphase
    obtain ⟨call', heq, hdone, hplaces⟩ := onRejected_fresh e hfresh
    rw [heq]
    exact hq.catches hphase hopen hshape hc hup hplaces fun _ => hdone

/-- The promises and the calls that an operation adds. -/
def HostQueue.append (q : HostQueue α) (new : List Cell) (calls : List (Call α)) (chain : Nat) :
    HostQueue α :=
  ⟨q.cells ++ new, q.calls ++ calls, chain⟩

theorem getElem?_append_cases {β : Type} {l new : List β} {x : β} (h : (l ++ new)[i]? = some x) :
    l[i]? = some x ∨ ∃ k, i = l.length + k ∧ new[k]? = some x := by
  rcases Nat.lt_or_ge i l.length with hlt | hge
  · exact .inl ((List.getElem?_append_left hlt).symm.trans h)
  · exact .inr ⟨i - l.length, (Nat.add_sub_cancel' hge).symm,
      (List.getElem?_append_right hge).symm.trans h⟩

theorem getElem?_append_of_some {β : Type} {l : List β} {x : β} (new : List β)
    (h : l[i]? = some x) : (l ++ new)[i]? = some x :=
  (List.getElem?_append_left (List.getElem?_eq_some_iff.mp h).1).trans h

variable {new : List Cell} {calls : List (Call α)} {chain : Nat}

theorem HostQueue.shape_append_cases {s : Option Nat × Handler}
    (h : (q.append new calls chain).shape i = some s) : q.shape i = some s ∨
      ∃ k cell, i = q.cells.length + k ∧ new[k]? = some cell ∧ (cell.source, cell.handler) = s := by
  obtain ⟨cell, hcell, rfl⟩ := Option.map_eq_some_iff.mp h
  rcases getElem?_append_cases hcell with hcell | ⟨k, rfl, hk⟩
  · exact .inl (HostQueue.shape_of hcell)
  · exact .inr ⟨k, cell, rfl, hk, rfl⟩

theorem HostQueue.shape_append {s : Option Nat × Handler} (h : q.shape i = some s) :
    (q.append new calls chain).shape i = some s := by
  obtain ⟨cell, hcell, rfl⟩ := Option.map_eq_some_iff.mp h
  exact HostQueue.shape_of (getElem?_append_of_some new hcell)

theorem HostQueue.phase?_append (h : q.phase? i = some phase) :
    (q.append new calls chain).phase? i = some phase := by
  obtain ⟨cell, hcell, rfl⟩ := Option.map_eq_some_iff.mp h
  exact HostQueue.phase?_of (getElem?_append_of_some new hcell)

theorem HostQueue.phase?_append_cases (hnew : ∀ cell ∈ new, cell.phase = .waiting)
    (h : (q.append new calls chain).phase? i = some phase) :
    q.phase? i = some phase ∨ phase = .waiting := by
  obtain ⟨cell, hcell, rfl⟩ := Option.map_eq_some_iff.mp h
  rcases getElem?_append_cases hcell with hcell | ⟨k, rfl, hk⟩
  · exact .inl (HostQueue.phase?_of hcell)
  · exact .inr (hnew cell (List.mem_of_getElem? hk))

theorem HostQueue.shape_of_phase? (h : q.phase? i = some phase) : ∃ s, q.shape i = some s := by
  obtain ⟨cell, hcell, -⟩ := Option.map_eq_some_iff.mp h
  exact ⟨_, HostQueue.shape_of hcell⟩

theorem HostQueue.Ok.append (hq : q.Ok) (hnew : ∀ cell ∈ new, cell.phase = .waiting)
    (hlink : ∀ (k : Nat) cell c, new[k]? = some cell → cell.handler = .step c →
      ∃ call, (q.calls ++ calls)[c]? = some call ∧ call.link = q.cells.length + k)
    (hcaught : ∀ (k : Nat) cell c, new[k]? = some cell → cell.handler = .bridgeCatch c →
      ∃ call, (q.calls ++ calls)[c]? = some call ∧ call.caught = q.cells.length + k)
    (hcalls : ∀ (k : Nat) call, calls[k]? = some call → call.Fresh ∧
      (q.append new calls chain).phase? call.link = some .waiting ∧
      call.Placed (q.append new calls chain) (q.calls.length + k)) :
    (q.append new calls chain).Ok := by
  have keep : ∀ {u r}, q.Settled u r → (q.append new calls chain).Settled u r :=
    HostQueue.phase?_append
  constructor
  · intro i source c hi
    rcases HostQueue.shape_append_cases hi with hi | ⟨k, cell, rfl, hk, hcell⟩
    · obtain ⟨call, hc, hl⟩ := hq.link i source c hi
      exact ⟨call, getElem?_append_of_some calls hc, hl⟩
    · exact hlink k cell c hk (Prod.mk.inj hcell).2
  · intro i source c hi
    rcases HostQueue.shape_append_cases hi with hi | ⟨k, cell, rfl, hk, hcell⟩
    · obtain ⟨call, hc, hl⟩ := hq.caught i source c hi
      exact ⟨call, getElem?_append_of_some calls hc, hl⟩
    · exact hcaught k cell c hk (Prod.mk.inj hcell).2
  · intro i u handler r hi hh hr
    rcases HostQueue.phase?_append_cases hnew hr with hr | hr
    · obtain ⟨s, hs⟩ := HostQueue.shape_of_phase? hr
      rw [HostQueue.shape_append hs] at hi
      cases hi
      exact keep (hq.carries i u handler r hs hh hr)
    · cases hr
  · intro i u handler hi hh hr
    rcases HostQueue.phase?_append_cases hnew hr with hr | hr
    · obtain ⟨s, hs⟩ := HostQueue.shape_of_phase? hr
      rw [HostQueue.shape_append hs] at hi
      cases hi
      exact (hq.running i u handler hs hh hr).imp_right keep
    · cases hr
  · intro c call hc
    rcases getElem?_append_cases hc with hc | ⟨k, rfl, hk⟩
    · exact (hq.placed c call hc).mono fun _ _ => HostQueue.shape_append
    · exact (hcalls k call hk).2.2
  · intro c call link caught hc hl hcat
    rcases getElem?_append_cases hc with hc | ⟨k, rfl, hk⟩
    · obtain ⟨hplink, p, hpcaught, -⟩ := hq.placed c call hc
      obtain ⟨cl, hcl, -⟩ := Option.map_eq_some_iff.mp hplink
      obtain ⟨cc, hcc, -⟩ := Option.map_eq_some_iff.mp hpcaught
      have hl₀ := HostQueue.phase?_of hcl
      have hcat₀ := HostQueue.phase?_of hcc
      rw [HostQueue.phase?_append hl₀] at hl
      rw [HostQueue.phase?_append hcat₀] at hcat
      cases hl
      cases hcat
      exact hq.fits c call _ _ hc hl₀ hcat₀
    · obtain ⟨hfresh, hwaiting, -⟩ := hcalls k call hk
      rw [hwaiting] at hl
      cases hl
      exact hfresh

/-- Promises of no call. -/
theorem HostQueue.Ok.extend (hq : q.Ok) (new : List Cell) (hnew : ∀ cell ∈ new, cell.phase = .waiting)
    (hstep : ∀ cell ∈ new, ∀ c, cell.handler ≠ .step c)
    (hcatch : ∀ cell ∈ new, ∀ c, cell.handler ≠ .bridgeCatch c) (chain : Nat) :
    HostQueue.Ok ⟨q.cells ++ new, q.calls, chain⟩ := by
  have happend : (q.append new [] chain).Ok := by
    refine hq.append hnew ?_ ?_ ?_
    · intro k cell c hk hh
      exact absurd hh (hstep cell (List.mem_of_getElem? hk) c)
    · intro k cell c hk hh
      exact absurd hh (hcatch cell (List.mem_of_getElem? hk) c)
    · intro k call hk
      simp at hk
  rwa [HostQueue.append, List.append_nil] at happend

theorem HostQueue.Ok.queued (hq : q.Ok) (host : QueueHost) : (q.thenOn host .user).1.Ok := by
  cases host with
  | native promise =>
    exact hq.extend [⟨some promise, .user, .waiting⟩] (by simp) (by simp) (by simp) _
  | deferred =>
    have hextend := hq.extend [⟨some q.chain, .user, .waiting⟩,
      ⟨some q.cells.length, .hostCatch, .waiting⟩] (by simp) (by simp) (by simp)
    simpa [HostQueue.thenOn, HostQueue.register] using hextend (q.cells.length + 1)

theorem runThroughQueue_native (promise : Nat) : runThroughQueue q (.native promise) =
    q.append [⟨some promise, .step q.calls.length, .waiting⟩,
        ⟨some q.cells.length, .bridgeCatch q.calls.length, .waiting⟩]
      [⟨false, [], none, promise, q.cells.length, q.cells.length + 1⟩] q.chain := by
  simp [runThroughQueue, HostQueue.thenOn, HostQueue.catchOn, HostQueue.register,
    HostQueue.append, HostQueue.promiseOf]

theorem runThroughQueue_deferred : runThroughQueue q .deferred =
    q.append [⟨some q.chain, .step q.calls.length, .waiting⟩,
        ⟨some q.cells.length, .hostCatch, .waiting⟩,
        ⟨some (q.cells.length + 1), .bridgeCatch q.calls.length, .waiting⟩]
      [⟨false, [], none, q.chain, q.cells.length, q.cells.length + 2⟩] (q.cells.length + 2) := by
  simp [runThroughQueue, HostQueue.thenOn, HostQueue.catchOn, HostQueue.register,
    HostQueue.append, HostQueue.promiseOf]

theorem HostQueue.shape_append_new {k : Nat} {s : Option Nat × Handler}
    (hk : (new[k]?.map fun cell => (cell.source, cell.handler)) = some s) :
    (q.append new calls chain).shape (q.cells.length + k) = some s := by
  rw [HostQueue.shape, HostQueue.append, List.getElem?_append_right (Nat.le_add_right _ _),
    Nat.add_sub_cancel_left]
  exact hk

theorem HostQueue.phase?_append_new {k : Nat} {cell : Cell} (hk : new[k]? = some cell) :
    (q.append new calls chain).phase? (q.cells.length + k) = some cell.phase := by
  apply HostQueue.phase?_of
  rw [HostQueue.append, List.getElem?_append_right (Nat.le_add_right _ _),
    Nat.add_sub_cancel_left]
  exact hk

/-- A call that was just made: its link is the first new promise, its catch one of them. -/
theorem HostQueue.Ok.callWith (hq : q.Ok) (hc : call.Fresh) (hl : call.link = q.cells.length)
    (hnew : ∀ cell ∈ new, cell.phase = .waiting)
    (hfirst : new[0]? = some ⟨some call.upstream, .step q.calls.length, .waiting⟩)
    (hstep : ∀ (k : Nat) cell c, new[k]? = some cell → cell.handler = .step c →
      k = 0 ∧ c = q.calls.length)
    (hcatch : ∀ (k : Nat) cell c, new[k]? = some cell → cell.handler = .bridgeCatch c →
      call.caught = q.cells.length + k ∧ c = q.calls.length)
    (hplaced : ∃ p, (q.append new [call] chain).shape call.caught =
        some (some p, .bridgeCatch q.calls.length) ∧
      (p = call.link ∨
        (q.append new [call] chain).shape p = some (some call.link, .hostCatch))) :
    (q.append new [call] chain).Ok := by
  have hlast : (q.calls ++ [call])[q.calls.length]? = some call := List.getElem?_concat_length
  refine hq.append hnew ?_ ?_ ?_
  · intro k cell c hk hh
    obtain ⟨rfl, rfl⟩ := hstep k cell c hk hh
    exact ⟨call, hlast, hl⟩
  · intro k cell c hk hh
    obtain ⟨heq, rfl⟩ := hcatch k cell c hk hh
    exact ⟨call, hlast, heq⟩
  · intro k other hk
    obtain ⟨rfl, rfl⟩ : k = 0 ∧ other = call := by
      cases k with
      | zero => exact ⟨rfl, (Option.some.inj hk).symm⟩
      | succ k => simp at hk
    refine ⟨hc, ?_, ?_, hplaced⟩
    · rw [hl]
      exact HostQueue.phase?_append_new hfirst
    · rw [hl]
      exact HostQueue.shape_append_new (k := 0) (by rw [hfirst]; rfl)

theorem HostQueue.Ok.bridged (hq : q.Ok) (host : QueueHost) : (runThroughQueue q host).Ok := by
  cases host with
  | native promise =>
    rw [runThroughQueue_native]
    refine hq.callWith ⟨rfl, rfl, rfl⟩ rfl (by simp) rfl ?_ ?_
      ⟨q.cells.length, HostQueue.shape_append_new (k := 1) rfl, .inl rfl⟩
    · rintro (_ | _ | k) cell c ⟨⟩ ⟨⟩
      exact ⟨rfl, rfl⟩
    · rintro (_ | _ | k) cell c ⟨⟩ ⟨⟩
      exact ⟨rfl, rfl⟩
  | deferred =>
    rw [runThroughQueue_deferred]
    refine hq.callWith ⟨rfl, rfl, rfl⟩ rfl (by simp) rfl ?_ ?_
      ⟨q.cells.length + 1, HostQueue.shape_append_new (k := 2) rfl,
        .inr (HostQueue.shape_append_new (k := 1) rfl)⟩
    · rintro (_ | _ | _ | k) cell c ⟨⟩ ⟨⟩
      exact ⟨rfl, rfl⟩
    · rintro (_ | _ | _ | k) cell c ⟨⟩ ⟨⟩
      exact ⟨rfl, rfl⟩

theorem HostQueue.Ok.step (hq : q.Ok) (hst : q.Step t) : t.Ok := by
  cases hst with
  | reacts hr => exact hq.reacts hr
  | @user i cell r hi hrunning hhandler =>
    have hphase := HostQueue.phase?_of hi
    have hshape := HostQueue.shape_of hi
    rw [hrunning] at hphase
    rw [hhandler] at hshape
    exact hq.foreign hphase (not_settled_of_phase? hphase nofun) hshape nofun nofun
      fun _ _ h => h.elim
  | @step i c cell call outcome hi hrunning hhandler hc =>
    have hphase := HostQueue.phase?_of hi
    have hshape := HostQueue.shape_of hi
    rw [hrunning] at hphase
    rw [hhandler] at hshape
    obtain ⟨call₁, hc₁, rfl⟩ := hq.link _ _ _ hshape
    rw [hc] at hc₁
    cases hc₁
    have hlink := (hq.placed c call hc).link
    have hup := (hq.running _ _ _ hlink trivial hphase).2
    obtain ⟨call', heq, hdone, hplaces⟩ := queuedStep_fresh outcome (hq.fresh hc hphase nofun)
    rw [heq]
    refine hq.linked hphase (not_settled_of_phase? hphase nofun) hlink hc ?_ nofun hplaces
      fun _ _ => ⟨outcome, hdone⟩
    rintro _ ⟨⟩
    exact hup
  | @outside i cell r hi hwaiting hhandler =>
    have hphase := HostQueue.phase?_of hi
    have hshape := HostQueue.shape_of hi
    rw [hwaiting] at hphase
    rw [hhandler] at hshape
    exact hq.foreign hphase (not_settled_of_phase? hphase nofun) hshape nofun nofun
      fun _ _ h => h.elim
  | promise => exact hq.extend _ (by simp) (by simp) (by simp) q.chain
  | queued host _ => exact hq.queued host
  | call host _ => exact hq.bridged host

theorem HostQueue.Ok.initial : HostQueue.Ok (HostQueue.initial (α := α)) := by
  have hempty : HostQueue.Ok (⟨[], [], 0⟩ : HostQueue α) := by
    constructor <;> intros <;> simp_all [HostQueue.shape]
  exact hempty.extend [⟨none, .external, .waiting⟩] (by simp) (by simp) (by simp) 0

theorem HostQueue.Reachable.ok (hq : q.Reachable) : q.Ok := by
  induction hq with
  | refl => exact .initial
  | tail _ hst ih => exact ih.step hst

-- ---------------------------------------------------------------------------
-- Every reaction comes
-- ---------------------------------------------------------------------------

def Cell.isWaiting (cell : Cell) : Bool :=
  match cell.phase with
  | .waiting => true
  | _ => false

/-- How many promises have yet to react. -/
def HostQueue.unsettled (q : HostQueue α) : Nat := q.cells.countP Cell.isWaiting

theorem HostQueue.unsettled_settleCell {cell : Cell} (hi : q.cells[i]? = some cell)
    (hwaiting : cell.phase = .waiting) (hphase : phase ≠ .waiting) :
    (q.settleCell i phase).unsettled < q.unsettled := by
  obtain ⟨hlt, rfl⟩ := List.getElem?_eq_some_iff.mp hi
  have hbefore : q.unsettled =
      (q.cells.take i ++ q.cells[i] :: q.cells.drop (i + 1)).countP Cell.isWaiting := by
    rw [List.getElem_cons_drop, List.take_append_drop]
    rfl
  have hafter : (q.settleCell i phase).cells =
      q.cells.take i ++ { q.cells[i] with phase } :: q.cells.drop (i + 1) :=
    List.modify_eq_take_cons_drop hlt
  have hwas : q.cells[i].isWaiting = true := by rw [Cell.isWaiting, hwaiting]
  have hnow : Cell.isWaiting { q.cells[i] with phase } = false := by
    cases phase <;> first | rfl | exact absurd rfl hphase
  rw [hbefore, HostQueue.unsettled, hafter, List.countP_append, List.countP_append,
    List.countP_cons_of_pos hwas, List.countP_cons_of_neg (by simp [hnow])]
  omega

theorem HostQueue.Reacts.unsettled (hr : q.Reacts t) : t.unsettled < q.unsettled := by
  cases hr with
  | skip hi hwaiting => exact HostQueue.unsettled_settleCell hi hwaiting nofun
  | run hi hwaiting => exact HostQueue.unsettled_settleCell hi hwaiting nofun
  | pass hi hwaiting => exact HostQueue.unsettled_settleCell hi hwaiting nofun
  | caught hi hwaiting => exact HostQueue.unsettled_settleCell hi hwaiting nofun

/-- No run of reactions is infinite. -/
theorem HostQueue.reacts_acc (q : HostQueue α) : Acc (fun t q => q.Reacts t) q :=
  (Subrelation.wf (r := InvImage (· < ·) HostQueue.unsettled) HostQueue.Reacts.unsettled
    (InvImage.wf _ Nat.lt_wfRel.wf)).apply q

/-- Where nothing reacts, what carries its source's outcome on has it. -/
theorem HostQueue.Ok.quiet (hq : q.Ok) (hquiet : ∀ t, ¬ q.Reacts t)
    (hshape : q.shape i = some (some u, handler)) (hh : handler.Carries) (hu : q.Settled u r)
    (hrunning : q.phase? i ≠ some .running) : q.Settled i r := by
  obtain ⟨cell, hi, heq⟩ := Option.map_eq_some_iff.mp hshape
  obtain ⟨hsource, rfl⟩ := Prod.mk.inj heq
  obtain ⟨src, hsrc, hsettled⟩ := Option.map_eq_some_iff.mp hu
  have hphase := HostQueue.phase?_of hi
  cases hp : cell.phase with
  | running => exact absurd (hphase.trans (congrArg some hp)) hrunning
  | settled r' =>
    have hr' : q.Settled i r' := hphase.trans (congrArg some hp)
    rwa [hu.unique (hq.carries _ _ _ _ hshape hh hr')]
  | waiting =>
    exfalso
    cases hhandler : cell.handler with
    | external => exact (hhandler ▸ hh : Handler.external.Carries)
    | user => exact (hhandler ▸ hh : Handler.user.Carries)
    | step c =>
      cases r with
      | ok _ => exact hquiet _ (.run hi hp hsource hsrc hsettled (.inr ⟨c, hhandler⟩))
      | error e => exact hquiet _ (.skip hi hp hsource hsrc hsettled (.inr (.inl ⟨c, hhandler⟩)))
    | hostCatch =>
      cases r with
      | ok _ => exact hquiet _ (.pass hi hp hsource hsrc hsettled (.inl hhandler))
      | error e => exact hquiet _ (.skip hi hp hsource hsrc hsettled (.inr (.inr hhandler)))
    | bridgeCatch c =>
      cases r with
      | ok _ => exact hquiet _ (.pass hi hp hsource hsrc hsettled (.inr ⟨c, hhandler⟩))
      | error e =>
        rw [hhandler] at hshape
        obtain ⟨call, hc, -⟩ := hq.caught _ _ _ hshape
        exact hquiet _ (.caught hi hp hsource hsrc hsettled hhandler hc)

-- ---------------------------------------------------------------------------
-- The bridge
-- ---------------------------------------------------------------------------

/-- A call in a state of the host's queue. -/
structure Call.Bridged (q : HostQueue α) (call : Call α) : Prop where
  once : call.settlements.length ≤ 1
  own : ∀ outcome, call.ran = some outcome → call.settlements = [outcome]
  skipped : ∀ outcome, call.ran = none → call.settlements = [outcome] →
    ∃ failure, outcome = .error failure ∧ q.Settled call.upstream (.error failure)
  /-- Behind a rejection no step runs. -/
  skips : ∀ failure, q.Settled call.upstream (.error failure) →
    call.ran = none ∧ q.phase? call.link ≠ some .running
  /-- However the step ends, the promise settles so and the host's link is fulfilled. -/
  ends : ∀ outcome, q.phase? call.link = some .running → queuedStep outcome call =
    (.ok (), { call with settled := true, settlements := [outcome], ran := some outcome })
  /-- The host's chain goes on behind the call as it came to it. -/
  link : ∀ r, q.Settled call.link r → q.Settled call.upstream r
  chain : ∀ r, q.Settled call.caught r → q.Settled call.upstream r
  /-- Nothing hangs on a chain that has settled. -/
  settles : (∀ t, ¬ q.Reacts t) → ∀ r, q.Settled call.upstream r →
    q.phase? call.link ≠ some .running →
    ∃ outcome, call.settlements = [outcome] ∧ q.Settled call.caught r

/-- A call later on: where it hangs stays, and so does what its promise settled with. -/
structure Call.Becomes (call later : Call α) : Prop where
  places : later.places = call.places
  kept : call.settlements <+: later.settlements

/-- A call of `runThroughQueue`, and the host's queue after it. -/
structure HostQueue.Bridges (q : HostQueue α) (host : QueueHost) : Prop where
  /-- The call is a new one, on the promise that the host stands for; a deferred chain goes on
  from the call's own catch. -/
  made : ∃ call, (runThroughQueue q host).calls = q.calls ++ [call] ∧ call.Fresh ∧
    call.upstream = q.promiseOf host ∧
    (host = .deferred → (runThroughQueue q host).chain = call.caught)
  later : ∀ t, ReflTransGen Step (runThroughQueue q host) t → ∃ call,
    t.calls[q.calls.length]? = some call ∧ call.upstream = q.promiseOf host ∧ call.Bridged t ∧
    ∀ u, ReflTransGen Step t u →
      ∃ last, u.calls[q.calls.length]? = some last ∧ call.Becomes last
  finite : ∀ t, ReflTransGen Step (runThroughQueue q host) t → Acc (fun t q => q.Reacts t) t

/-- What a call came to, by how its link and its catch settled. -/
theorem HostQueue.Ok.outcomes (hq : q.Ok) (hc : q.calls[c]? = some call) :
    call.Fresh ∨
      (∃ outcome, call.Done (some outcome) outcome ∧ q.Settled call.link (.ok ())) ∨
      ∃ failure, call.Done none (.error failure) ∧ q.Settled call.link (.error failure) := by
  obtain ⟨hplink, p, hpcaught, -⟩ := hq.placed c call hc
  obtain ⟨link, hl, -⟩ := Option.map_eq_some_iff.mp hplink
  obtain ⟨caught, hcat, -⟩ := Option.map_eq_some_iff.mp hpcaught
  have hlink := HostQueue.phase?_of hl
  have hcaught := HostQueue.phase?_of hcat
  have hfits := hq.fits c call _ _ hc hlink hcaught
  cases hlp : link.phase with
  | waiting =>
    rw [hlp] at hfits
    exact .inl hfits
  | running =>
    rw [hlp] at hfits
    exact .inl hfits
  | settled r =>
    rw [hlp] at hfits hlink
    cases r with
    | ok _ => exact .inr (.inl (hfits.imp fun _ hdone => ⟨hdone, hlink⟩))
    | error e =>
      cases hcp : caught.phase with
      | waiting =>
        rw [hcp] at hfits
        exact .inl hfits
      | running =>
        rw [hcp] at hfits
        exact .inl hfits
      | settled r' =>
        rw [hcp] at hfits hcaught
        have hthrough : q.Settled call.link r' := hq.through hc hcaught
        cases HostQueue.Settled.unique hlink hthrough
        exact .inr (.inr ⟨e, hfits, hlink⟩)

theorem HostQueue.Ok.bridge (hq : q.Ok) (hc : q.calls[c]? = some call) : call.Bridged q := by
  have houtcomes := hq.outcomes hc
  have hplaced := hq.placed c call hc
  refine ⟨?_, ?_, ?_, ?_, ?_, fun r => hq.upstream hc, fun r hr => hq.upstream hc
    (hq.through hc hr), ?_⟩
  · rcases houtcomes with ⟨-, hnone, -⟩ | ⟨outcome, ⟨-, hone, -⟩, -⟩ | ⟨failure, ⟨-, hone, -⟩, -⟩
    · simp [hnone]
    · simp [hone]
    · simp [hone]
  · intro outcome hran
    rcases houtcomes with ⟨-, -, h⟩ | ⟨own, ⟨-, hone, h⟩, -⟩ | ⟨failure, ⟨-, -, h⟩, -⟩ <;>
      rw [hran] at h <;> cases h
    exact hone
  · intro outcome hran hone
    rcases houtcomes with ⟨-, h, -⟩ | ⟨own, ⟨-, -, h⟩, -⟩ | ⟨failure, ⟨-, h, -⟩, hlinked⟩
    · rw [hone] at h
      cases h
    · rw [hran] at h
      cases h
    · rw [hone] at h
      cases h
      exact ⟨failure, rfl, hq.upstream hc hlinked⟩
  · intro failure hup
    refine ⟨?_, fun hrunning => ?_⟩
    · rcases houtcomes with ⟨-, -, h⟩ | ⟨own, -, hlinked⟩ | ⟨_, ⟨-, -, h⟩, -⟩
      · exact h
      · cases hup.unique (hq.upstream hc hlinked)
      · exact h
    · cases hup.unique (hq.running _ _ _ hplaced.link trivial hrunning).2
  · intro outcome hrunning
    obtain ⟨hsettled, hnone, -⟩ := hq.fresh hc hrunning nofun
    cases outcome <;> simp [queuedStep, rejectOnce, settleOnce, hsettled, hnone]
  · intro hquiet r hup hrunning
    have hlinked := hq.quiet hquiet hplaced.link trivial hup hrunning
    obtain ⟨p, hcaught, hvia⟩ := hplaced.caught
    have idle : ∀ {i u handler}, q.shape i = some (some u, handler) → handler.Carries →
        (∀ c, handler ≠ .step c) → q.phase? i ≠ some .running := by
      intro i u handler hi hh hstep hrunning
      obtain ⟨c, rfl⟩ := (hq.running i u handler hi hh hrunning).1
      exact hstep c rfl
    have hsource : q.Settled p r := by
      rcases hvia with rfl | hvia
      · exact hlinked
      · exact hq.quiet hquiet hvia trivial hlinked (idle hvia trivial nofun)
    have hdone := hq.quiet hquiet hcaught trivial hsource (idle hcaught trivial nofun)
    have hfits := hq.fits c call _ _ hc hlinked hdone
    cases r with
    | ok _ => exact hfits.imp fun _ h => ⟨h.2.1, hdone⟩
    | error e => exact ⟨.error e, hfits.2.1, hdone⟩

end

-- ---------------------------------------------------------------------------
-- A call in the states after it
-- ---------------------------------------------------------------------------

section
variable {q t : HostQueue α} {c c' : Nat} {call call' later : Call α} {host : QueueHost}

theorem Call.Becomes.refl (call : Call α) : call.Becomes call :=
  ⟨rfl, List.prefix_rfl⟩

theorem Call.Becomes.trans (h : call.Becomes call') (h' : call'.Becomes later) :
    call.Becomes later :=
  ⟨h'.places.trans h.places, h.kept.trans h'.kept⟩

theorem settleOnce_becomes {outcome : Except Failure α} (h : settleOnce outcome call = .ok call') :
    call.Becomes call' := by
  unfold settleOnce at h
  split at h
  · cases h
  · cases h
    exact ⟨rfl, List.prefix_append _ _⟩

theorem rejectOnce_becomes (failure : Failure) (call : Call α) :
    call.Becomes (rejectOnce failure call).2 := by
  unfold rejectOnce
  split
  · rename_i h
    exact settleOnce_becomes h
  · exact .refl call

theorem queuedStep_becomes (outcome : Except Failure α) (call : Call α) :
    call.Becomes (queuedStep outcome call).2 := by
  have hran : call.Becomes { call with ran := some outcome } := ⟨rfl, List.prefix_rfl⟩
  unfold queuedStep
  cases outcome with
  | error failure => exact hran.trans (rejectOnce_becomes failure _)
  | ok value =>
    simp only
    split
    · rename_i h
      exact hran.trans (settleOnce_becomes h)
    · exact hran.trans (rejectOnce_becomes _ _)

theorem onRejected_becomes (failure : Failure) (call : Call α) :
    call.Becomes (onRejected failure call).2 := by
  unfold onRejected
  split
  · exact .refl call
  · split
    · rename_i h
      exact settleOnce_becomes h
    · exact .refl call

theorem HostQueue.becomes_setCall (hc : q.calls[c]? = some call) (hc' : q.calls[c']? = some call')
    (h : call'.Becomes later) :
    ∃ last, (q.setCall c' later).calls[c]? = some last ∧ call.Becomes last := by
  by_cases heq : c' = c
  · subst heq
    rw [hc] at hc'
    cases hc'
    obtain ⟨hlt, -⟩ := List.getElem?_eq_some_iff.mp hc
    exact ⟨later, List.getElem?_set_self hlt, h⟩
  · exact ⟨call, (List.getElem?_set_ne heq).trans hc, .refl call⟩

theorem HostQueue.calls_thenOn (q : HostQueue α) (host : QueueHost) (handler : Handler) :
    (q.thenOn host handler).1.calls = q.calls := by
  cases host <;> rfl

theorem runThroughQueue_made (q : HostQueue α) (host : QueueHost) : ∃ call, (runThroughQueue q host).calls = q.calls ++ [call] ∧
    call.Fresh ∧ call.upstream = q.promiseOf host ∧
    (host = .deferred → (runThroughQueue q host).chain = call.caught) := by
  cases host with
  | native promise =>
    rw [runThroughQueue_native]
    exact ⟨_, rfl, ⟨rfl, rfl, rfl⟩, rfl, nofun⟩
  | deferred =>
    rw [runThroughQueue_deferred]
    exact ⟨_, rfl, ⟨rfl, rfl, rfl⟩, rfl, fun _ => rfl⟩

theorem HostQueue.Step.becomes (hst : q.Step t) (hc : q.calls[c]? = some call) :
    ∃ later, t.calls[c]? = some later ∧ call.Becomes later := by
  cases hst with
  | reacts hr =>
    cases hr with
    | skip => exact ⟨call, hc, .refl call⟩
    | run => exact ⟨call, hc, .refl call⟩
    | pass => exact ⟨call, hc, .refl call⟩
    | caught _ _ _ _ _ _ hc' =>
      exact HostQueue.becomes_setCall (q := q.settleCell _ _) hc hc' (onRejected_becomes _ _)
  | user => exact ⟨call, hc, .refl call⟩
  | step outcome _ _ _ hc' =>
    exact HostQueue.becomes_setCall (q := q.settleCell _ _) hc hc' (queuedStep_becomes outcome _)
  | outside => exact ⟨call, hc, .refl call⟩
  | promise => exact ⟨call, hc, .refl call⟩
  | queued host _ => exact ⟨call, (q.calls_thenOn host .user).symm ▸ hc, .refl call⟩
  | call host _ =>
    obtain ⟨new, heq, -⟩ := runThroughQueue_made q host
    exact ⟨call, heq ▸ getElem?_append_of_some [new] hc, .refl call⟩

theorem HostQueue.becomes (hrun : ReflTransGen HostQueue.Step q t)
    (hc : q.calls[c]? = some call) : ∃ later, t.calls[c]? = some later ∧ call.Becomes later := by
  induction hrun with
  | refl => exact ⟨call, hc, .refl call⟩
  | tail _ hst ih =>
    obtain ⟨mid, hmid, hbecomes⟩ := ih
    obtain ⟨later, hlater, hnext⟩ := hst.becomes hmid
    exact ⟨later, hlater, hbecomes.trans hnext⟩

end

theorem runThroughQueue_bridges {q : HostQueue α} {host : QueueHost} (hq : q.Reachable)
    (hhost : q.Has host) : q.Bridges host where
  made := runThroughQueue_made q host
  later t ht := by
    obtain ⟨call, hcalls, -, hup, -⟩ := runThroughQueue_made q host
    have hnew : (runThroughQueue q host).calls[q.calls.length]? = some call := by
      rw [hcalls]
      exact List.getElem?_concat_length
    obtain ⟨later, hlater, hbecomes⟩ := HostQueue.becomes ht hnew
    have hok : t.Ok := HostQueue.Reachable.ok ((hq.tail (.call host hhost)).trans ht)
    exact ⟨later, hlater, (Prod.mk.inj hbecomes.places).1.trans hup, hok.bridge hlater,
      fun u hu => HostQueue.becomes hu hlater⟩
  finite t _ := t.reacts_acc

/-- A migration that has not started: a step through the bridge, and one of its own. -/
def migrationQueue : HostQueue Unit :=
  ((runThroughQueue .initial .deferred).thenOn .deferred .user).1

theorem migrationQueue_reachable : migrationQueue.Reachable :=
  .tail (.single (.call .deferred trivial)) (.queued .deferred trivial)

def reverted : Failure := .error "REVERT opcode executed"

def outOfEnergy : Failure := .error "OUT_OF_ENERGY"

/-- The migration starts: the first step runs and fails, the migration's own step fails behind
it, and the step of the call made last is skipped. -/
theorem migrationQueue_run : ∃ t,
    ReflTransGen HostQueue.Step (runThroughQueue migrationQueue .deferred) t ∧
      t.calls = [⟨true, [.error reverted], some (.error reverted), 0, 1, 3⟩,
        ⟨true, [.error outOfEnergy], none, 5, 6, 8⟩] := by
  have hstart := ReflTransGen.single (HostQueue.Step.outside
    (q := runThroughQueue migrationQueue .deferred) (i := 0) (.ok ()) rfl rfl rfl)
  have hruns := hstart.tail (.reacts (.run (i := 1) rfl rfl rfl rfl rfl (.inr ⟨0, rfl⟩)))
  have hfails := hruns.tail (.step (i := 1) (.error reverted) rfl rfl rfl rfl)
  have hpass := hfails.tail (.reacts (.pass (i := 2) rfl rfl rfl rfl rfl (.inl rfl)))
  have hpass := hpass.tail (.reacts (.pass (i := 3) rfl rfl rfl rfl rfl (.inr ⟨0, rfl⟩)))
  have hown := hpass.tail (.reacts (.run (i := 4) rfl rfl rfl rfl rfl (.inl rfl)))
  have hfails := hown.tail (.user (i := 4) (.error outOfEnergy) rfl rfl rfl)
  have hskip := hfails.tail (.reacts (.skip (i := 5) rfl rfl rfl rfl rfl (.inr (.inr rfl))))
  have hskip := hskip.tail (.reacts (.skip (i := 6) rfl rfl rfl rfl rfl (.inr (.inl ⟨1, rfl⟩))))
  have hskip := hskip.tail (.reacts (.skip (i := 7) rfl rfl rfl rfl rfl (.inr (.inr rfl))))
  exact ⟨_, hskip.tail (.reacts (.caught (i := 8) rfl rfl rfl rfl rfl rfl rfl)), rfl⟩

/-- Both calls of that run, each over everything that may follow it. -/
theorem migrationQueue_bridges : (HostQueue.initial : HostQueue Unit).Bridges .deferred ∧
    migrationQueue.Bridges .deferred ∧ ∃ t,
      ReflTransGen HostQueue.Step (runThroughQueue migrationQueue .deferred) t ∧
      t.calls.map (fun call => (call.ran, call.settlements)) =
        [(some (.error reverted), [.error reverted]), (none, [.error outOfEnergy])] := by
  refine ⟨runThroughQueue_bridges .refl trivial,
    runThroughQueue_bridges migrationQueue_reachable trivial, ?_⟩
  obtain ⟨t, hrun, hcalls⟩ := migrationQueue_run
  exact ⟨t, hrun, by rw [hcalls]; rfl⟩

end TronUpgrades.Deploy
