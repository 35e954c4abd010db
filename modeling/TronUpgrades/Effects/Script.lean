/-!
# Scripts over effects

An asynchronous program, seen from outside, asks its surroundings for one
operation after another; each is answered by a value or by a rejection, and
the program goes on from the answer. A `Script` is such a program with its
continuations written out. Nothing here says which answers are possible:
that is a `World`'s business.
-/

namespace Effects

/-- The operations a script may ask for, each with the type of its reply. -/
structure Signature where
  Op : Type
  Reply : Op → Type

inductive Script (S : Signature) (ε α : Type)
  | pure (value : α)
  | throw (error : ε)
  | call (op : S.Op) (next : Except ε (S.Reply op) → Script S ε α)

namespace Script

variable {S : Signature} {ε α β : Type}

def bind : Script S ε α → (α → Script S ε β) → Script S ε β
  | .pure a, f => f a
  | .throw e, _ => .throw e
  | .call op next, f => .call op fun r => (next r).bind f

/-- `try … catch`: the handler takes over where the script throws. -/
def catching : Script S ε α → (ε → Script S ε α) → Script S ε α
  | .pure a, _ => .pure a
  | .throw e, handler => handler e
  | .call op next, handler => .call op fun r => (next r).catching handler

instance : Monad (Script S ε) where
  pure := .pure
  bind := bind

instance : MonadExceptOf ε (Script S ε) where
  throw := .throw
  tryCatch := catching

def ofExcept : Except ε α → Script S ε α
  | .ok a => .pure a
  | .error e => .throw e

/-- One operation whose rejection is the script's own failure. -/
def perform (op : S.Op) : Script S ε (S.Reply op) := .call op ofExcept

/-- The outcome of a script as a value, so that whoever started it may go on
from a failure too. -/
def attempt (x : Script S ε α) : Script S ε (Except ε α) :=
  (x.bind fun a => .pure (.ok a)).catching fun e => .pure (.error e)

/-- `if (c) await x`. -/
def when (c : Prop) [Decidable c] (x : Script S ε Unit) : Script S ε Unit :=
  if c then x else .pure ()

@[simp] theorem bind_eq (x : Script S ε α) (f : α → Script S ε β) : x >>= f = x.bind f := rfl

@[simp] theorem pure_eq (a : α) : (Pure.pure a : Script S ε α) = .pure a := rfl

@[simp] theorem throw_eq (e : ε) : (MonadExcept.throw e : Script S ε α) = .throw e := rfl

@[simp] theorem throwThe_eq (e : ε) : (throwThe ε e : Script S ε α) = .throw e := rfl

@[simp] theorem tryCatch_eq (x : Script S ε α) (handler : ε → Script S ε α) :
    (tryCatch x handler) = x.catching handler := rfl

@[simp] theorem bind_pure (a : α) (f : α → Script S ε β) : (Script.pure a).bind f = f a := rfl

@[simp] theorem bind_throw (e : ε) (f : α → Script S ε β) :
    (Script.throw e).bind f = .throw e := rfl

@[simp] theorem ofExcept_ok (a : α) : (ofExcept (.ok a) : Script S ε α) = .pure a := rfl

@[simp] theorem ofExcept_error (e : ε) : (ofExcept (.error e) : Script S ε α) = .throw e := rfl

theorem bind_assoc {γ : Type} (x : Script S ε α) (f : α → Script S ε β)
    (g : β → Script S ε γ) : (x.bind f).bind g = x.bind fun a => (f a).bind g := by
  induction x with
  | pure a => rfl
  | throw e => rfl
  | call op next ih => simp only [bind]; congr 1; funext r; exact ih r

/-- A script run to its end against a function that answers every operation. -/
def run {σ : Type} (answer : σ → (op : S.Op) → Except ε (S.Reply op) × σ) :
    Script S ε α → σ → Except ε α × σ
  | .pure a, s => (.ok a, s)
  | .throw e, s => (.error e, s)
  | .call op next, s => (next (answer s op).1).run answer (answer s op).2

/-- The first `n` operations of the same run, with what is left to do. -/
def advance {σ : Type} (answer : σ → (op : S.Op) → Except ε (S.Reply op) × σ) :
    Nat → Script S ε α → σ → Script S ε α × σ
  | n + 1, .call op next, s => (next (answer s op).1).advance answer n (answer s op).2
  | _, x, s => (x, s)

-- ---------------------------------------------------------------------------
-- Answered by a function
-- ---------------------------------------------------------------------------

/-- A script whose every operation is answered the same way whenever it is asked. -/
def interpret (answer : (op : S.Op) → Except ε (S.Reply op)) : Script S ε α → Except ε α
  | .pure a => .ok a
  | .throw e => .error e
  | .call op next => (next (answer op)).interpret answer

section
variable {answer : (op : S.Op) → Except ε (S.Reply op)}

@[simp] theorem interpret_ofExcept (r : Except ε α) : (ofExcept r).interpret answer = r := by
  cases r <;> rfl

@[simp] theorem interpret_perform (op : S.Op) : (perform op).interpret answer = answer op :=
  interpret_ofExcept _

@[simp] theorem interpret_bind (x : Script S ε α) (f : α → Script S ε β) :
    (x.bind f).interpret answer = x.interpret answer >>= fun a => (f a).interpret answer := by
  induction x with
  | pure a => rfl
  | throw e => rfl
  | call op next ih => exact ih (answer op)

theorem interpret_catching (x : Script S ε α) (handler : ε → Script S ε α) :
    (x.catching handler).interpret answer =
      tryCatch (x.interpret answer) fun e => (handler e).interpret answer := by
  induction x with
  | pure a => rfl
  | throw e => rfl
  | call op next ih => exact ih (answer op)

@[simp] theorem interpret_attempt (x : Script S ε α) :
    x.attempt.interpret answer = .ok (x.interpret answer) := by
  rw [attempt, interpret_catching, interpret_bind]
  cases x.interpret answer <;> rfl

end

end Script

end Effects
