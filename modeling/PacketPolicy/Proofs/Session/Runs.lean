import PacketPolicy.Session.Process

/-!
# Runs of operations

How the run of an operation is made up of the runs of its parts, and what an operation keeps.

* `Process.run_bind`, `Operation.run_bind` -- one after another;
* `Operation.run_step`, `run_catch`, `run_underLock` -- the parts;
* `Process.Keeps` -- a property that no step of a process destroys, whoever takes steps between;
* `Operation.keeps_bind`, `keeps_step`, `keeps_catch`, `keeps_underLock` -- it passes from the
  parts to the whole; `Process.Keeps.run` -- it holds after the run if it held before;
* `Process.states`, `Process.Keeps.states` -- the states on the way, in all of which it holds.
-/

namespace PacketPolicy

variable {σ α β : Type} [Lockable σ]

namespace Process

theorem run_bind (p : Process σ α) (f : α → Process σ β) (s : σ) :
    (p.bind f).run s = (f (p.run s).1).run (p.run s).2 := by
  induction p generalizing s with
  | done a => rfl
  | act effect next ih => exact ih s (effect s)
  | acquire lock next ih =>
      simp only [Process.bind, run]
      cases Lockable.acquire lock s with
      | ok s => exact ih _ s
      | error e => exact ih _ s
  | release lock next ih => exact ih (Lockable.release lock s)

/-- Each step of the process keeps the property.  What follows a step may count on the property,
as all others keep it too. -/
def Keeps (P : σ → Prop) : Process σ α → Prop
  | done _ => True
  | act effect next => (∀ s, P s → P (effect s)) ∧ ∀ s, P s → (next s).Keeps P
  | acquire lock next =>
      (∀ s s', P s → Lockable.acquire lock s = .ok s' → P s') ∧ ∀ had, (next had).Keeps P
  | release lock next => (∀ s, P s → P (Lockable.release lock s)) ∧ next.Keeps P

variable {P : σ → Prop}

theorem Keeps.bind {p : Process σ α} {f : α → Process σ β} (hp : p.Keeps P)
    (hf : ∀ a, (f a).Keeps P) : (p.bind f).Keeps P := by
  induction p with
  | done a => exact hf a
  | act effect next ih => exact ⟨hp.1, fun s hs => ih s (hp.2 s hs)⟩
  | acquire lock next ih => exact ⟨hp.1, fun had => ih had (hp.2 had)⟩
  | release lock next ih => exact ⟨hp.1, ih hp.2⟩

/-- What every step keeps, the whole run keeps. -/
theorem Keeps.run {p : Process σ α} (hp : p.Keeps P) {s : σ} (hs : P s) : P (p.run s).2 := by
  induction p generalizing s with
  | done a => exact hs
  | act effect next ih => exact ih s (hp.2 s hs) (hp.1 s hs)
  | acquire lock next ih =>
      simp only [Process.run]
      cases hacquire : Lockable.acquire lock s with
      | ok s' => exact ih _ (hp.2 _) (hp.1 s s' hs hacquire)
      | error e => exact ih _ (hp.2 _) hs
  | release lock next ih => exact ih hp.2 (hp.1 s hs)

/-- The states on the way of a process that nobody interrupts, the first one first. -/
def states : Process σ α → σ → List σ
  | done _, s => [s]
  | act effect next, s => s :: (next s).states (effect s)
  | acquire lock next, s =>
      s :: match Lockable.acquire lock s with
        | .ok s' => (next (.ok ())).states s'
        | .error e => (next (.error e)).states s
  | release lock next, s => s :: next.states (Lockable.release lock s)

/-- What every step keeps holds in all states on the way. -/
theorem Keeps.states {p : Process σ α} (hp : p.Keeps P) {s now : σ} (hs : P s)
    (hnow : now ∈ p.states s) : P now := by
  induction p generalizing s with
  | done a =>
      rw [List.mem_singleton.mp hnow]
      exact hs
  | act effect next ih =>
      rcases List.mem_cons.mp hnow with rfl | hlater
      · exact hs
      · exact ih s (hp.2 s hs) (hp.1 s hs) hlater
  | acquire lock next ih =>
      rw [Process.states] at hnow
      rcases List.mem_cons.mp hnow with rfl | hlater
      · exact hs
      · cases hacquire : Lockable.acquire lock s with
        | ok s' =>
            rw [hacquire] at hlater
            exact ih _ (hp.2 _) (hp.1 s s' hs hacquire) hlater
        | error e =>
            rw [hacquire] at hlater
            exact ih _ (hp.2 _) hs hlater
  | release lock next ih =>
      rcases List.mem_cons.mp hnow with rfl | hlater
      · exact hs
      · exact ih hp.2 (hp.1 s hs) hlater

end Process

namespace Operation

/-! ## Runs -/

theorem run_step (f : σ → Except Failure α × σ) (s : σ) :
    Operation.run (.step f) s = f s := rfl

/-- What follows is done after a success only. -/
theorem run_bind (o : Operation σ α) (k : α → Operation σ β) (s : σ) :
    Operation.run (o >>= k) s =
      match Operation.run o s with
      | (.ok a, s) => Operation.run (k a) s
      | (.error e, s) => (.error e, s) := by
  refine (Process.run_bind (ExceptT.run o) _ s).trans ?_
  unfold Operation.run
  obtain ⟨outcome, s'⟩ := Process.run (ExceptT.run o) s
  cases outcome <;> rfl

theorem run_bind_ok {o : Operation σ α} {k : α → Operation σ β} {s s' : σ} {a : α}
    (h : Operation.run o s = (.ok a, s')) :
    Operation.run (o >>= k) s = Operation.run (k a) s' := by
  rw [run_bind, h]

theorem run_bind_error {o : Operation σ α} {k : α → Operation σ β} {s s' : σ} {e : Failure}
    (h : Operation.run o s = (.error e, s')) :
    Operation.run (o >>= k) s = (.error e, s') := by
  rw [run_bind, h]

/-- What is done about a failure is done after a failure only. -/
theorem run_catch (o : Operation σ α) (handle : Failure → Operation σ α) (s : σ) :
    Operation.run (tryCatch o handle) s =
      match Operation.run o s with
      | (.ok a, s) => (.ok a, s)
      | (.error e, s) => Operation.run (handle e) s := by
  refine (Process.run_bind (ExceptT.run o) _ s).trans ?_
  unfold Operation.run
  obtain ⟨outcome, s'⟩ := Process.run (ExceptT.run o) s
  cases outcome <;> rfl

/-- The lock is given back after the body, whatever came of it. -/
theorem run_underLock (lock : ChangeLock) (body : Operation σ α) (s : σ) :
    Operation.run (underLock lock body) s =
      match Lockable.acquire lock s with
      | .ok s => ((Operation.run body s).1, Lockable.release lock (Operation.run body s).2)
      | .error e => (.error e, s) := by
  show Process.run (.acquire lock _) s = _
  unfold Process.run
  cases Lockable.acquire lock s with
  | error e => rfl
  | ok s => exact Process.run_bind (ExceptT.run body) _ s

/-! ## What is kept -/

/-- Each step of the operation keeps the property. -/
def Keeps (P : σ → Prop) (o : Operation σ α) : Prop :=
  Process.Keeps P (ExceptT.run o)

variable {P : σ → Prop}

theorem keeps_pure (a : α) : Keeps P (pure a : Operation σ α) :=
  trivial

theorem keeps_throw (e : Failure) : Keeps P (throw e : Operation σ α) :=
  trivial

theorem keeps_step {f : σ → Except Failure α × σ} (h : ∀ s, P s → P (f s).2) :
    Keeps P (.step f) :=
  ⟨h, fun _ _ => trivial⟩

theorem keeps_bind {o : Operation σ α} {k : α → Operation σ β} (ho : Keeps P o)
    (hk : ∀ a, Keeps P (k a)) : Keeps P (o >>= k) := by
  refine Process.Keeps.bind ho fun outcome => ?_
  cases outcome with
  | ok a => exact hk a
  | error e => trivial

theorem keeps_catch {o : Operation σ α} {handle : Failure → Operation σ α} (ho : Keeps P o)
    (hhandle : ∀ e, Keeps P (handle e)) : Keeps P (tryCatch o handle) := by
  refine Process.Keeps.bind ho fun outcome => ?_
  cases outcome with
  | ok a => trivial
  | error e => exact hhandle e

theorem keeps_underLock {lock : ChangeLock} {body : Operation σ α}
    (hacquire : ∀ s s', P s → Lockable.acquire lock s = .ok s' → P s')
    (hrelease : ∀ s, P s → P (Lockable.release lock s)) (hbody : Keeps P body) :
    Keeps P (underLock lock body) := by
  -- without the lock nothing is done; with it, the release follows whatever came of the body
  refine ⟨hacquire, fun had => ?_⟩
  cases had with
  | error e => trivial
  | ok _ => exact Process.Keeps.bind hbody fun outcome => ⟨hrelease, trivial⟩

theorem Keeps.run {o : Operation σ α} (ho : Keeps P o) {s : σ} (hs : P s) :
    P (Operation.run o s).2 :=
  Process.Keeps.run ho hs

/-- The states on the way of an operation that nobody interrupts. -/
def states (o : Operation σ α) (s : σ) : List σ :=
  Process.states (ExceptT.run o) s

theorem Keeps.states {o : Operation σ α} (ho : Keeps P o) {s now : σ} (hs : P s)
    (hnow : now ∈ Operation.states o s) : P now :=
  Process.Keeps.states ho hs hnow

end Operation
end PacketPolicy
