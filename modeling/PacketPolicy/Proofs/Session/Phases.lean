import PacketPolicy.Proofs.Session.Replay

/-!
# Phases of a change

A change goes through three phases: before it has the lock, while it has it, and after that.  What
it does in the first one takes time and nothing else; what it does in the second one is what it
would do without interruption, as long as the others let nothing but time pass.

* `Site.Passes` -- nothing but time lies between two sites;
* `World.Outside` -- what is left to do of an errand that has not had the lock; `Outside.act`,
  `Outside.acquire`, `Outside.done` -- its steps;
* `World.Inside` -- what is left to do of the one that has it; `Inside.act`, `Inside.release` -- its
  steps; `Inside.passes` -- the steps of all others.
-/

namespace PacketPolicy

open Operation

/-- Requests that change something. -/
def Request.isChange : Request → Bool
  | addRule _ | deleteRule _ | setDefaults _ | importPolicy _ | apply => true
  | _ => false

theorem Request.exists_task {c : Client} {r : Request} (h : r.isChange = true) :
    ∃ deed task, r.task? c = some (deed, task) := by
  cases r <;> first | exact ⟨_, _, rfl⟩ | cases h

namespace Site

/-- Nothing but time lies between the two. -/
def Passes (s s' : Site) : Prop :=
  ∃ now clock, s' = s.atTime now clock

theorem Passes.refl (s : Site) : s.Passes s :=
  ⟨s.now, s.clock, rfl⟩

theorem Passes.trans {s s' s'' : Site} (h : s.Passes s') (h' : s'.Passes s'') : s.Passes s'' := by
  obtain ⟨now, clock, rfl⟩ := h
  obtain ⟨now', clock', rfl⟩ := h'
  exact ⟨now', clock', rfl⟩

end Site

namespace World

/-- What can be left to do of an errand that has not had the lock: all of it; what is done under the
lock, if the users that there are allow it; or nothing, because it has failed. -/
inductive Outside (users : Option (List Ledger.UserRow)) (e : Errand) : Process Site Answer → Prop
  where
  | begun : Outside users e e.process
  | allowed {deed : Client.Deed} {task : Except Failure (Operation Site e.request.Result)}
      {body : Operation Site e.request.Result} (looks : Option Nat)
      (htask : e.request.task? e.client = some (deed, task)) (hbody : task = .ok body)
      (hallowed : ∀ (s : Site) (now : Timestamp) (clock : List (Option Nat)),
        s.ledger.users = users →
          Operation.run e.operation (s.atTime now (looks :: clock)) =
            Operation.run (underLock e.client.lock body) (s.atTime now clock)) :
      Outside users e ((ExceptT.run (underLock e.client.lock body)).bind e.tell)
  | failed (f : Failure) : Outside users e (e.tell (.error f))

/-- What is left of the errand ends, at that moment and with that much time, as the whole errand
does without interruption when it begins where the lock was free. -/
def Replayed (e : Errand) (free site : Site) (q : Process Site (Except Failure e.request.Result))
    (now : Timestamp) (clock : List (Option Nat)) : Prop :=
  ∃ now' clock',
    Operation.run e.operation (free.atTime now' clock') =
      ((q.run (site.atTime now clock)).1,
        Lockable.release e.client.lock (q.run (site.atTime now clock)).2)

/-- What can be left to do of the errand that has the lock, where the lock was free on one site and
the present one is another.  Once the moment has been looked at, only that moment will do. -/
inductive Inside (users : Option (List Ledger.UserRow)) (e : Errand) (free site : Site) :
    Process Site Answer → Prop where
  | holding {q : Process Site (Except Failure e.request.Result)}
      (hkeeps : q.Keeps (Site.Around users site.lock))
      (hreplayed : (q.Dated ∧ ∀ now clock, Replayed e free site q now clock) ∨
        q.Undated ∧ ∃ now, ∀ clock, Replayed e free site q now clock) :
      Inside users e free site
        (q.bind fun result => .release e.client.lock (e.tell result))

variable {users : Option (List Ledger.UserRow)} {e : Errand} {s free : Site}
  {p : Process Site Answer}

/-- What a change begins with. -/
theorem exists_first_step (he : e.request.isChange = true) :
    ∃ deed task decide, e.request.task? e.client = some (deed, task) ∧
      e.operation = (e.client.consult fun _ => Ledger.lookUpRole e.client.actor) >>= decide ∧
      ∀ found, (∃ f, decide found = throw f) ∨
        ∃ body, task = .ok body ∧ decide found = underLock e.client.lock body := by
  obtain ⟨deed, task, htask⟩ := Request.exists_task (c := e.client) he
  obtain ⟨decide, hguarded, hdecide⟩ := Client.guarded_eq (c := e.client) deed task
  exact ⟨deed, task, decide, htask, (Request.operation_eq_guarded htask).trans hguarded, hdecide⟩

theorem process_eq_act (he : e.request.isChange = true) :
    ∃ next, e.process = .act Site.later next := by
  obtain ⟨deed, task, decide, -, hoperation, -⟩ := exists_first_step he
  unfold Errand.process
  rw [hoperation, Client.consult_bind]
  exact ⟨_, rfl⟩

/-- The first step takes time and nothing else, and depends on the users and on the time it has. -/
theorem Outside.act {effect : Site → Site} {next : Site → Process Site Answer}
    (he : e.request.isChange = true) (h : Outside users e (.act effect next))
    (hs : s.ledger.users = users) : effect s = s.later ∧ Outside users e (next s) := by
  obtain ⟨deed, task, decide, htask, hoperation, hdecide⟩ := exists_first_step he
  generalize hp : Process.act effect next = p at h
  cases h with
  | begun =>
      unfold Errand.process at hp
      rw [hoperation, Client.consult_bind] at hp
      obtain ⟨rfl, rfl⟩ := Process.act.inj hp
      refine ⟨rfl, ?_⟩
      cases hlook : ((Ledger.lookUpRole e.client.actor).commit (s.deadline e.client.budget)
          s.ledger).1 with
      | error f =>
          simp only [hlook]
          exact .failed f
      | ok found =>
          simp only [hlook]
          rcases hdecide found with ⟨f, hfail⟩ | ⟨body, hbody, hgo⟩
          · rw [hfail]
            exact .failed f
          · rw [hgo]
            refine .allowed s.clock.head?.join htask hbody fun s' now clock hs' => ?_
            -- the users are the same there, and so is the time that is left
            have hsame : Operation.run (e.client.consult fun _ =>
                Ledger.lookUpRole e.client.actor) (s'.atTime now (s.clock.head?.join :: clock)) =
                (.ok found, s'.atTime now clock) := by
              refine Prod.ext ?_ rfl
              rw [← hlook]
              exact Ledger.lookUpRole_congr (hs'.trans hs.symm) e.client.actor _
            rw [hoperation, run_bind_ok hsame, hgo]
  | allowed => cases hp
  | failed => cases hp

/-- The lock is had, or not, at whatever time. -/
theorem acquire_atTime (lock : ChangeLock) (s : Site) (now : Timestamp)
    (clock : List (Option Nat)) :
    Lockable.acquire lock (s.atTime now clock) =
      (Lockable.acquire lock s).map fun s' => s'.atTime now clock := by
  show Site.acquire lock (s.atTime now clock) = (Site.acquire lock s).map _
  obtain ⟨ledger, mayWrite, ⟨fault, present, held⟩, programs, handOffs, _, _⟩ := s
  cases fault with
  | some fault => rfl
  | none => cases held <;> rfl

/-- An errand that does not get the lock fails, and one that gets it is the one that has it. -/
theorem Outside.acquire {lock : ChangeLock} {next : Except Failure Unit → Process Site Answer}
    (he : e.request.isChange = true) (h : Outside users e (.acquire lock next)) :
    (∀ f, Outside users e (next (.error f))) ∧
      ∀ s s', s.ledger.users = users → Lockable.acquire lock s = .ok s' →
        s' = s.locked ∧ Inside users e s s' (next (.ok ())) := by
  generalize hp : Process.acquire lock next = p at h
  cases h with
  | begun =>
      obtain ⟨_, hact⟩ := process_eq_act he
      rw [hact] at hp
      cases hp
  | @allowed deed task body looks htask hbody hallowed =>
      obtain ⟨rfl, rfl⟩ := Process.acquire.inj hp
      refine ⟨fun f => .failed f, fun s s' hs hacquire => ?_⟩
      obtain rfl := Site.eq_locked_of_acquire hacquire
      refine ⟨rfl, ?_⟩
      show Inside users e s s.locked (((ExceptT.run body).bind _).bind e.tell)
      rw [Process.bind_assoc]
      refine .holding (q := ExceptT.run body) (Client.keeps_around_task htask hbody)
        (Or.inl ⟨Client.dated_task htask hbody, fun now clock => ?_⟩)
      refine ⟨now, looks :: clock, ?_⟩
      rw [hallowed s now clock hs, run_underLock, acquire_atTime, hacquire]
      rfl
  | failed => cases hp

theorem Outside.release {lock : ChangeLock} {next : Process Site Answer}
    (he : e.request.isChange = true) (h : Outside users e (.release lock next)) : False := by
  generalize hp : Process.release lock next = p at h
  cases h with
  | begun =>
      obtain ⟨_, hact⟩ := process_eq_act he
      rw [hact] at hp
      cases hp
  | allowed => cases hp
  | failed => cases hp

/-- Without the lock an errand ends with a failure only. -/
theorem Outside.done {a : Answer} (he : e.request.isChange = true)
    (h : Outside users e (.done a)) : ∃ f, a = ⟨e.request, .error f⟩ := by
  generalize hp : Process.done a = p at h
  cases h with
  | begun =>
      obtain ⟨_, hact⟩ := process_eq_act he
      rw [hact] at hp
      cases hp
  | allowed => cases hp
  | failed f => exact ⟨f, Process.done.inj hp⟩

/-! ## With the lock -/

theorem Replayed.act {effect : Site → Site}
    {next : Site → Process Site (Except Failure e.request.Result)} {now : Timestamp}
    (hreplays : Process.Replays effect next now s)
    (h : ∀ clock, Replayed e free s (.act effect next) now clock) (clock : List (Option Nat)) :
    Replayed e free (effect s) (next s) now clock := by
  obtain ⟨before, heffect, hnext⟩ := hreplays clock
  obtain ⟨now', clock', hrun⟩ := h before
  have hstep : Process.run (.act effect next) (s.atTime now before) =
      (next s).run ((effect s).atTime now clock) := by
    rw [← heffect, ← hnext]
    rfl
  rw [hstep] at hrun
  exact ⟨now', clock', hrun⟩

/-- A step of the errand that has the lock. -/
theorem Inside.act {effect : Site → Site} {next : Site → Process Site Answer}
    (h : Inside users e free s (.act effect next)) (hs : s.ledger.users = users) :
    Site.Around users s.lock (effect s) ∧ Inside users e free (effect s) (next s) := by
  generalize hp : Process.act effect next = p at h
  cases h with
  | @holding q hkeeps hreplayed =>
      cases q with
      | act effect' next' =>
          obtain ⟨rfl, rfl⟩ := Process.act.inj hp
          have haround : Site.Around users s.lock (effect s) := hkeeps.1 s ⟨hs, rfl⟩
          refine ⟨haround, .holding (q := next' s) ?_ ?_⟩
          · rw [haround.2]
            exact hkeeps.2 s ⟨hs, rfl⟩
          · rcases hreplayed with ⟨hdated, hall⟩ | ⟨hundated, now, hnow⟩
            · rcases hdated with ⟨hreplays, hrest⟩ | ⟨hreplays, hrest⟩
              · exact Or.inl ⟨hrest s, fun now =>
                  Replayed.act (hreplays s now) (hall now)⟩
              · exact Or.inr ⟨hrest s, s.now, Replayed.act (hreplays s) (hall s.now)⟩
            · exact Or.inr ⟨hundated.2 s, now, Replayed.act (hundated.1 s now) hnow⟩
      | _ => cases hp

theorem Inside.acquire {lock : ChangeLock} {next : Except Failure Unit → Process Site Answer}
    (h : Inside users e free s (.acquire lock next)) : False := by
  generalize hp : Process.acquire lock next = p at h
  cases h with
  | @holding q hkeeps hreplayed =>
      cases q with
      | acquire lock' next' =>
          rcases hreplayed with ⟨hdated, -⟩ | ⟨hundated, -⟩
          · exact hdated
          · exact hundated
      | _ => cases hp

/-- When the errand that has the lock gives it back, its result is there; and it has ended as it
does without interruption. -/
theorem Inside.release {lock : ChangeLock} {next : Process Site Answer}
    (h : Inside users e free s (.release lock next)) :
    ∃ result now' clock' now clock, next = e.tell result ∧
      Operation.run e.operation (free.atTime now' clock') =
        (result, (Lockable.release lock s).atTime now clock) := by
  generalize hp : Process.release lock next = p at h
  cases h with
  | @holding q hkeeps hreplayed =>
      cases q with
      | done result =>
          obtain ⟨rfl, rfl⟩ := Process.release.inj hp
          have hended : ∃ now, Replayed e free s (.done result) now [] := by
            rcases hreplayed with ⟨-, hall⟩ | ⟨-, now, hnow⟩
            · exact ⟨s.now, hall s.now []⟩
            · exact ⟨now, hnow []⟩
          obtain ⟨now, now', clock', hrun⟩ := hended
          exact ⟨result, now', clock', now, [], rfl, hrun⟩
      | release lock' next' =>
          rcases hreplayed with ⟨hdated, -⟩ | ⟨hundated, -⟩
          · exact hdated.elim
          · exact hundated.elim
      | _ => cases hp

/-- While the others take their steps before the lock, time passes for the one that has it. -/
theorem Inside.passes {s' : Site} (h : Inside users e free s p) (htime : s.Passes s') :
    Inside users e free s' p := by
  obtain ⟨now, clock, rfl⟩ := htime
  cases h with
  | holding hkeeps hreplayed => exact .holding hkeeps hreplayed

end World
end PacketPolicy
