import PacketPolicy.Failure

namespace PacketPolicy

/-!
# Processes

Several clients work on the same policy at the same time.  What one of them does is a
process: a sequence of steps, each of which happens as a whole, and between which the
others may take theirs.  Only one process at a time holds the change lock.

* `Process` -- what is left to do; `Process.run` -- a process that nobody interrupts;
* `Lockable` -- states that hold locks;
* `Operation` -- a process that may fail; `Operation.underLock` -- a part of it during
  which nobody else holds the lock.
-/

/-- The change lock as a client knows it. -/
structure ChangeLock where
  /-- The path of its file. -/
  path : String
  /-- How long to wait while it is held; without a time, for ever. -/
  patience : Option Span
deriving DecidableEq, Repr, Inhabited

/-- What is left to do, on states `σ` and with a result `α`. -/
inductive Process (σ α : Type) where
  | done (a : α)
  /-- A step: its effect on the state, and what follows; both are told the state before. -/
  | act (effect : σ → σ) (next : σ → Process σ α)
  /-- Takes the lock; what follows is told whether it was had. -/
  | acquire (lock : ChangeLock) (next : Except Failure Unit → Process σ α)
  /-- Gives the lock back. -/
  | release (lock : ChangeLock) (next : Process σ α)

/-- States that hold locks. -/
class Lockable (σ : Type) where
  /-- The state with the lock held, or why it cannot be had. -/
  acquire : ChangeLock → σ → Except Failure σ
  /-- The state with the lock free. -/
  release : ChangeLock → σ → σ

namespace Process

variable {σ α β : Type}

/-- One process after another. -/
protected def bind (f : α → Process σ β) : Process σ α → Process σ β
  | done a => f a
  | act effect next => act effect fun s => (next s).bind f
  | acquire lock next => acquire lock fun had => (next had).bind f
  | release lock next => release lock (next.bind f)

instance : Monad (Process σ) where
  pure := done
  bind p f := p.bind f

/-- A process that nobody interrupts: its result and the state afterwards. -/
def run [Lockable σ] : Process σ α → σ → α × σ
  | done a, s => (a, s)
  | act effect next, s => (next s).run (effect s)
  | acquire lock next, s =>
      match Lockable.acquire lock s with
      | .ok s => (next (.ok ())).run s
      | .error e => (next (.error e)).run s
  | release lock next, s => next.run (Lockable.release lock s)

/-- One step with a result. -/
def step (f : σ → α × σ) : Process σ α :=
  act (fun s => (f s).2) fun s => done (f s).1

end Process

/-- A process that may fail. -/
abbrev Operation (σ α : Type) : Type :=
  ExceptT Failure (Process σ) α

namespace Operation

variable {σ α : Type}

/-- One step that may fail. -/
def step (f : σ → Except Failure α × σ) : Operation σ α :=
  ExceptT.mk (Process.step f)

/-- The outcome of an operation that nobody interrupts and the state afterwards. -/
def run [Lockable σ] (o : Operation σ α) (s : σ) : Except Failure α × σ :=
  Process.run (ExceptT.run o) s

/-- Does something while nobody else holds the lock.  The lock is given back whether it
succeeds or fails; if the lock cannot be had, nothing is done. -/
def underLock (lock : ChangeLock) (body : Operation σ α) : Operation σ α :=
  ExceptT.mk <|
    Process.acquire lock fun
      | .error e => .done (.error e)
      | .ok () => (ExceptT.run body).bind fun outcome => .release lock (.done outcome)

end Operation
end PacketPolicy
