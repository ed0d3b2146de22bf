import PacketPolicy.Proofs.Session.Interleaving

/-!
# Changes at another time

What is done under the lock looks at the moment once at most, when the journal gets its entry; and
of the clock each transaction sees no more than the time that it has itself.  So whatever was done
while time passed could as well have been done at one moment.

* `Process.Undated`, `Process.Dated` -- processes that do not look at the moment, and those that do
  so once at most;
* `Request.forall_task` -- what is done under the lock is one of five things;
* `dated_task` -- all of them look at the moment once at most;
* `keeps_around_task` -- none of them touches the users or the lock;
* `guarded_eq`, `lookUpRole_congr` -- what comes before the lock is one step, which
  depends on the users and on the time it has.
-/

namespace PacketPolicy

open Operation

/-! ## Moments -/

/-- At a moment the step does what it does on the site as it is, if its transaction has as much
time; what is left of the clock then may be anything. -/
def Process.Replays {α : Type} (effect : Site → Site) (next : Site → Process Site α)
    (now : Timestamp) (s : Site) : Prop :=
  ∀ clock, ∃ before,
    effect (s.atTime now before) = (effect s).atTime now clock ∧
      next (s.atTime now before) = next s

namespace Process

variable {α β : Type}

/-- No step of the process looks at the moment, and none has to do with the lock. -/
def Undated : Process Site α → Prop
  | done _ => True
  | act effect next => (∀ s now, Replays effect next now s) ∧ ∀ s, (next s).Undated
  | _ => False

/-- One step of the process at most looks at the moment, and none has to do with the lock. -/
def Dated : Process Site α → Prop
  | done _ => True
  | act effect next =>
      ((∀ s now, Replays effect next now s) ∧ ∀ s, (next s).Dated) ∨
        (∀ s, Replays effect next s.now s) ∧ ∀ s, (next s).Undated
  | _ => False

theorem Replays.bind {effect : Site → Site} {next : Site → Process Site α} {now : Timestamp}
    {s : Site} (h : Replays effect next now s) (f : α → Process Site β) :
    Replays effect (fun s => (next s).bind f) now s := by
  intro clock
  obtain ⟨before, heffect, hnext⟩ := h clock
  exact ⟨before, heffect, congrArg (Process.bind f) hnext⟩

theorem Undated.dated {p : Process Site α} (h : p.Undated) : p.Dated := by
  cases p with
  | done a => exact trivial
  | act effect next => exact Or.inr ⟨fun s => h.1 s s.now, h.2⟩
  | acquire lock next => exact h.elim
  | release lock next => exact h.elim

theorem Undated.bind {p : Process Site α} {f : α → Process Site β} (hp : p.Undated)
    (hf : ∀ a, (f a).Undated) : (p.bind f).Undated := by
  induction p with
  | done a => exact hf a
  | act effect next ih =>
      exact ⟨fun s now => (hp.1 s now).bind f, fun s => ih s (hp.2 s)⟩
  | acquire lock next => exact hp.elim
  | release lock next => exact hp.elim

theorem Undated.bind_dated {p : Process Site α} {f : α → Process Site β} (hp : p.Undated)
    (hf : ∀ a, (f a).Dated) : (p.bind f).Dated := by
  induction p with
  | done a => exact hf a
  | act effect next ih =>
      exact Or.inl ⟨fun s now => (hp.1 s now).bind f, fun s => ih s (hp.2 s)⟩
  | acquire lock next => exact hp.elim
  | release lock next => exact hp.elim

theorem Dated.bind_undated {p : Process Site α} {f : α → Process Site β} (hp : p.Dated)
    (hf : ∀ a, (f a).Undated) : (p.bind f).Dated := by
  induction p with
  | done a => exact (hf a).dated
  | act effect next ih =>
      rcases hp with ⟨hreplays, hrest⟩ | ⟨hreplays, hrest⟩
      · exact Or.inl ⟨fun s now => (hreplays s now).bind f, fun s => ih s (hrest s)⟩
      · exact Or.inr ⟨fun s => (hreplays s).bind f, fun s => (hrest s).bind hf⟩
  | acquire lock next => exact hp.elim
  | release lock next => exact hp.elim

end Process

namespace Operation

variable {α β : Type}

/-- No step of the operation looks at the moment, and none has to do with the lock. -/
def Undated (o : Operation Site α) : Prop :=
  Process.Undated (ExceptT.run o)

/-- One step of the operation at most looks at the moment, and none has to do with the lock. -/
def Dated (o : Operation Site α) : Prop :=
  Process.Dated (ExceptT.run o)

theorem undated_pure (a : α) : Undated (pure a : Operation Site α) :=
  trivial

theorem undated_bind {o : Operation Site α} {k : α → Operation Site β} (ho : Undated o)
    (hk : ∀ a, Undated (k a)) : Undated (o >>= k) := by
  refine Process.Undated.bind ho fun outcome => ?_
  cases outcome with
  | ok a => exact hk a
  | error e => exact trivial

/-- What is undated may be followed by what looks at the moment. -/
theorem dated_of_undated_bind {o : Operation Site α} {k : α → Operation Site β} (ho : Undated o)
    (hk : ∀ a, Dated (k a)) : Dated (o >>= k) := by
  refine Process.Undated.bind_dated ho fun outcome => ?_
  cases outcome with
  | ok a => exact hk a
  | error e => exact trivial

/-- What looks at the moment may be followed by what is undated. -/
theorem dated_bind_undated {o : Operation Site α} {k : α → Operation Site β} (ho : Dated o)
    (hk : ∀ a, Undated (k a)) : Dated (o >>= k) := by
  refine Process.Dated.bind_undated ho fun outcome => ?_
  cases outcome with
  | ok a => exact hk a
  | error e => exact trivial

theorem dated_catch {o : Operation Site α} {handle : Failure → Operation Site α} (ho : Dated o)
    (hhandle : ∀ e, Undated (handle e)) : Dated (tryCatch o handle) := by
  refine Process.Dated.bind_undated ho fun outcome => ?_
  cases outcome with
  | ok a => exact trivial
  | error e => exact hhandle e

end Operation

namespace Client

variable {α β : Type} {c : Client}

/-- The deadline is the same at another time at which the clock allows as much. -/
theorem deadline_atTime (s : Site) (now : Timestamp) (clock : List (Option Nat)) (budget : Span) :
    (s.atTime now (s.clock.head?.join :: clock)).deadline budget = s.deadline budget := rfl

theorem undated_consult (f : Ledger.Transaction α) : Undated (c.consult fun _ => f) :=
  ⟨fun s _ clock => ⟨s.clock.head?.join :: clock, rfl, rfl⟩, fun _ => trivial⟩

/-- A transaction that writes has the same end at another time, if it is the same transaction
there. -/
theorem transact_atTime {t : Site → Ledger.Transaction α} {s : Site} {now : Timestamp}
    (ht : ∀ clock, t (s.atTime now clock) = t s) (clock : List (Option Nat)) :
    Operation.run (c.transact t) (s.atTime now (s.clock.head?.join :: clock)) =
      ((Operation.run (c.transact t) s).1,
        (Operation.run (c.transact t) s).2.atTime now clock) := by
  unfold transact
  simp only [run_step, ht, deadline_atTime]
  obtain ⟨ledger, mayWrite, lock, programs, handOffs, now, clock⟩ := s
  cases mayWrite <;> rfl

theorem replays_transact {t : Site → Ledger.Transaction α} {s : Site} {now : Timestamp}
    (ht : ∀ clock, t (s.atTime now clock) = t s) :
    Process.Replays (fun s => (Operation.run (c.transact t) s).2)
      (fun s => .done (Operation.run (c.transact t) s).1) now s := by
  intro clock
  have hsame := transact_atTime (c := c) ht clock
  exact ⟨s.clock.head?.join :: clock, congrArg Prod.snd hsame,
    congrArg (fun outcome => Process.done outcome.1) hsame⟩

theorem undated_transact (f : Ledger.Transaction α) : Undated (c.transact fun _ => f) :=
  ⟨fun _ _ => replays_transact fun _ => rfl, fun _ => trivial⟩

theorem dated_transact (t : Site → Ledger.Transaction α)
    (ht : ∀ s clock, t (s.atTime s.now clock) = t s) : Dated (c.transact t) :=
  Or.inr ⟨fun s => replays_transact (ht s), fun _ => trivial⟩

/-- The loader does not ask for the time. -/
theorem handOff_atTime (task : Loader.Task) (text : String) (s : Site) (now : Timestamp)
    (clock : List (Option Nat)) :
    Operation.run (c.handOff task text) (s.atTime now clock) =
      ((Operation.run (c.handOff task text) s).1,
        (Operation.run (c.handOff task text) s).2.atTime now clock) := by
  unfold handOff
  simp only [run_step]
  split
  · rfl
  · rw [show (s.atTime now clock).programs = s.programs from rfl]
    cases s.programs ⟨c.loader.program, c.loader.arguments ++ task.options, text⟩ <;> rfl

theorem undated_handOff (task : Loader.Task) (text : String) : Undated (c.handOff task text) := by
  refine ⟨fun s now clock => ⟨clock, ?_⟩, fun _ => trivial⟩
  have hsame := handOff_atTime (c := c) task text s now clock
  exact ⟨congrArg Prod.snd hsame, congrArg (fun outcome => Process.done outcome.1) hsame⟩

theorem dated_note (kind : Event.Kind) (object : String) (details : Json.Value) :
    Dated (c.note kind object details) :=
  dated_catch (dated_transact _ fun _ _ => rfl) fun _ => undated_pure _

end Client

/-! ## What is done under the lock -/

namespace Client

variable {c : Client} {r : Request} {deed : Deed} {task : Except Failure (Operation Site r.Result)}
  {body : Operation Site r.Result}

/-- Whatever is done under the lock, the moment is looked at for the journal only. -/
theorem dated_task (h : r.task? c = some (deed, task)) (hbody : task = .ok body) :
    Dated body := by
  have hnoted {β : Type} (kind : Event.Kind) (object : String) (details : Json.Value) (b : β) :
      Dated (c.note kind object details >>= fun _ => pure b) :=
    dated_bind_undated (dated_note kind object details) fun _ => undated_pure b
  refine Request.forall_task (Q := fun _ body => Dated body) (fun d r _ => ?_) (fun id => ?_)
    (fun d defaults _ => ?_) (fun d p _ => ?_) ?_ h hbody
  · exact dated_of_undated_bind (undated_transact _) fun id => hnoted _ _ _ _
  · refine dated_of_undated_bind (undated_transact _) fun found => ?_
    cases found with
    | false => exact (undated_pure false).dated
    | true => exact hnoted _ _ _ _
  · exact dated_of_undated_bind (undated_transact _) fun _ => hnoted _ _ _ _
  · exact dated_of_undated_bind (undated_transact _) fun _ => hnoted _ _ _ _
  · refine dated_of_undated_bind (undated_bind (undated_consult _) fun found => ?_) fun d => ?_
    · cases found with
      | some d => exact undated_pure d
      | none => exact undated_transact _
    · refine dated_of_undated_bind (undated_consult _) fun rules => ?_
      exact dated_of_undated_bind (undated_handOff _ _) fun _ => hnoted _ _ _ _

end Client

/-- The users and the lock are these. -/
def Site.Around (users : Option (List Ledger.UserRow)) (lock : LockFile) (s : Site) : Prop :=
  s.ledger.users = users ∧ s.lock = lock

namespace Client

variable {α : Type} {c : Client} {users : Option (List Ledger.UserRow)} {lock : LockFile}

theorem keeps_around_transact {t : Site → Ledger.Transaction α} {tables : List Table}
    (ht : ∀ s, Ledger.Transaction.Footprint tables (t s)) (husers : .users ∉ tables) :
    Keeps (Site.Around users lock) (c.transact t) := by
  refine keeps_step fun s hs => ?_
  have hagree := Ledger.Transaction.agree_commit (ht s) (s.deadline c.budget) s.ledger
  show Site.Around users lock (if s.mayWrite then _ else _ : Except Failure α × Site).2
  cases s.mayWrite with
  | true => exact ⟨Eq.trans (hagree.outside .users husers) hs.1, hs.2⟩
  | false => exact hs

theorem keeps_around_note (kind : Event.Kind) (object : String) (details : Json.Value) :
    Keeps (Site.Around users lock) (c.note kind object details) :=
  keeps_catch (keeps_around_transact (fun _ => Ledger.footprint_append _) (by decide)) fun _ =>
    keeps_pure _

theorem keeps_around_consult (t : Site → Ledger.Transaction α) :
    Keeps (Site.Around users lock) (c.consult t) :=
  keeps_step fun _ hs => hs

theorem keeps_around_handOff (task : Loader.Task) (text : String) :
    Keeps (Site.Around users lock) (c.handOff task text) := by
  refine keeps_step fun s hs => ?_
  dsimp only
  split
  · exact hs
  · split
    · exact hs
    · exact hs

/-- Whatever is done under the lock, the users stay who they are, and so does the lock. -/
theorem keeps_around_task {r : Request} {deed : Deed}
    {task : Except Failure (Operation Site r.Result)} {body : Operation Site r.Result}
    (h : r.task? c = some (deed, task)) (hbody : task = .ok body) :
    Keeps (Site.Around users lock) body := by
  have hnoted {β : Type} (kind : Event.Kind) (object : String) (details : Json.Value) (b : β) :
      Keeps (Site.Around users lock) (c.note kind object details >>= fun _ => pure b) :=
    keeps_bind (keeps_around_note kind object details) fun _ => keeps_pure b
  have hpolicy {β : Type} {f : Ledger.Transaction β}
      (hf : Ledger.Transaction.Footprint Table.ofPolicy f) :
      Keeps (Site.Around users lock) (c.transact fun _ => f) :=
    keeps_around_transact (fun _ => hf) (by decide)
  refine Request.forall_task (Q := fun _ body => Keeps (Site.Around users lock) body)
    (fun d r _ => ?_) (fun id => ?_) (fun d defaults _ => ?_) (fun d p _ => ?_) ?_ h hbody
  · exact keeps_bind (hpolicy (Ledger.footprint_storeRule r)) fun id => hnoted _ _ _ _
  · refine keeps_bind (hpolicy (Ledger.footprint_delete id)) fun found => ?_
    cases found with
    | false => exact keeps_pure false
    | true => exact hnoted _ _ _ _
  · exact keeps_bind (hpolicy (Ledger.footprint_setDefaults defaults)) fun _ => hnoted _ _ _ _
  · exact keeps_bind (hpolicy (Ledger.footprint_replaceAll p.defaults p.rules)) fun _ =>
      hnoted _ _ _ _
  · refine keeps_bind (keeps_bind (keeps_around_consult _) fun found => ?_) fun d => ?_
    · cases found with
      | some d => exact keeps_pure d
      | none => exact hpolicy Ledger.footprint_seedDefaults
    · refine keeps_bind (keeps_around_consult _) fun rules => ?_
      exact keeps_bind (keeps_around_handOff _ _) fun _ => hnoted _ _ _ _

end Client

/-! ## What comes before the lock -/

namespace Ledger

/-- A query of two ledgers in which it finds the same has the same end within the same time. -/
theorem Transaction.commit_query_congr {α : Type} {f : Ledger → Except Fault α} {l m : Ledger}
    (h : f m = f l) (d : Deadline) :
    ((query f).commit d m).1 = ((query f).commit d l).1 := by
  unfold commit query
  rw [whole_apply, whole_apply]
  dsimp only
  by_cases hover : d.isOver
  · rw [if_pos hover, if_pos hover]
  · rw [if_neg hover, if_neg hover, statement_apply, statement_apply, h]
    by_cases hlate : d.afterLook.isOver
    · rw [if_pos hlate, if_pos hlate]
    · rw [if_neg hlate, if_neg hlate]
      cases f l with
      | error fault => rfl
      | ok a =>
          by_cases hlast : d.afterLook.afterLook.isOver
          · simp only [Except.map, if_pos hlast]
          · simp only [Except.map, if_neg hlast]

/-- What is found out about the role of a user depends on the users and on the time there is. -/
theorem lookUpRole_congr {l m : Ledger} (husers : m.users = l.users) (name : String)
    (d : Deadline) :
    ((lookUpRole name).commit d m).1 = ((lookUpRole name).commit d l).1 := by
  refine Transaction.commit_query_congr ?_ d
  unfold roleOf
  rw [husers]

end Ledger

namespace Client

variable {β : Type} {c : Client}

/-- Once the role of the user has been looked up, the request fails or waits for the lock. -/
theorem guarded_eq (deed : Deed) (task : Except Failure (Operation Site β)) :
    ∃ decide : Option String → Operation Site β,
      c.guarded deed task = (c.consult fun _ => Ledger.lookUpRole c.actor) >>= decide ∧
      ∀ found, (∃ e, decide found = throw e) ∨
        ∃ body, task = .ok body ∧ decide found = underLock c.lock body := by
  unfold guarded authorize roleFor
  rw [Operation.bind_assoc, Operation.bind_assoc]
  refine ⟨_, rfl, fun found => ?_⟩
  cases found with
  | none => exact Or.inl ⟨_, rfl⟩
  | some name =>
      cases hrole : (Named.ofName? name : Option Role) with
      | none => exact Or.inl ⟨_, by simp only [hrole]; rfl⟩
      | some role =>
          simp only [hrole]
          change (∃ e, (if role.covers deed.required then pure () else throw _ :
              Operation Site Unit) >>= _ = throw e) ∨
            ∃ body, task = .ok body ∧ (if role.covers deed.required then pure () else throw _ :
              Operation Site Unit) >>= _ = underLock c.lock body
          cases role.covers deed.required with
          | false => exact Or.inl ⟨_, rfl⟩
          | true =>
              cases task with
              | error refusal => exact Or.inl ⟨_, rfl⟩
              | ok body => exact Or.inr ⟨body, rfl, rfl⟩

end Client
end PacketPolicy
