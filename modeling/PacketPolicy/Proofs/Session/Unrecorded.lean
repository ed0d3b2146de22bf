import PacketPolicy.Proofs.Ledger.Blindness
import PacketPolicy.Proofs.Session.Rights

/-!
# Changes that cannot be recorded

The journal is a record and nothing else.  Whatever becomes of it, in whatever state it is and even
where there is none, clients get the same answers, unless it is the journal that they ask for; the
same policy lasts, under the same numbers; the same scripts are handed over; and the lock is as free
afterwards as it was.

* `Site.withJournal`, `Lasting.withJournal` -- the same with another journal, or with none;
* `Operation.Overlooks` -- an operation to which the journal makes no difference;
* `overlooks_pure`, `overlooks_bind`, `overlooks_consult`, `overlooks_transact`, `overlooks_note`,
  ... -- the steps of clients;
* `overlooks_request` -- every request but the one for the journal;
* `lock_held_request` -- the lock after a request;
* `Visit.run_withJournal`, `session_withJournal` -- one visit, and any number of them;
* `journal_makes_no_difference` -- all of this together.
-/

namespace PacketPolicy

open Operation

/-- The site with another journal, or with none. -/
def Site.withJournal (s : Site) (journal : Option Ledger.JournalTable) : Site :=
  { s with ledger := s.ledger.withJournal journal }

/-! ## Operations -/

namespace Operation

variable {α β : Type}

/-- With another journal the operation ends as it does, and leaves the same but for the journal.
Where there is no journal, none comes. -/
def Overlooks (o : Operation Site α) : Prop :=
  ∀ s journal, ∃ last,
    Operation.run o (s.withJournal journal) =
      ((Operation.run o s).1, (Operation.run o s).2.withJournal last) ∧
    (journal = none → last = none)

/-- An operation that leaves even the journal as it is. -/
theorem overlooks_of_same {o : Operation Site α}
    (h : ∀ s journal, Operation.run o (s.withJournal journal) =
      ((Operation.run o s).1, (Operation.run o s).2.withJournal journal)) : Overlooks o :=
  fun s journal => ⟨journal, h s journal, id⟩

theorem overlooks_pure (a : α) : Overlooks (pure a : Operation Site α) :=
  overlooks_of_same fun _ _ => rfl

theorem overlooks_throw (e : Failure) : Overlooks (throw e : Operation Site α) :=
  overlooks_of_same fun _ _ => rfl

theorem overlooks_bind {o : Operation Site α} {k : α → Operation Site β} (ho : Overlooks o)
    (hk : ∀ a, Overlooks (k a)) : Overlooks (o >>= k) := by
  intro s journal
  obtain ⟨between, hfirst, hnone⟩ := ho s journal
  rw [run_bind, run_bind, hfirst]
  rcases Operation.run o s with ⟨e | a, s'⟩
  · exact ⟨between, rfl, hnone⟩
  · obtain ⟨last, hrest, hstill⟩ := hk a s' between
    exact ⟨last, hrest, fun h => hstill (hnone h)⟩

/-- The lock has nothing to do with the journal. -/
theorem acquire_withJournal (lock : ChangeLock) (s : Site)
    (journal : Option Ledger.JournalTable) :
    Lockable.acquire lock (s.withJournal journal) =
      (Lockable.acquire lock s).map fun s => s.withJournal journal := by
  obtain ⟨ledger, mayWrite, ⟨fault, present, held⟩, programs, handOffs, now, clock⟩ := s
  cases fault with
  | some fault => rfl
  | none => cases held <;> rfl

theorem overlooks_underLock {lock : ChangeLock} {body : Operation Site α}
    (hbody : Overlooks body) : Overlooks (underLock lock body) := by
  intro s journal
  rw [run_underLock, run_underLock, acquire_withJournal]
  cases Lockable.acquire lock s with
  | error e => exact ⟨journal, rfl, id⟩
  | ok s' =>
      obtain ⟨last, hrun, hnone⟩ := hbody s' journal
      refine ⟨last, ?_, hnone⟩
      show ((Operation.run body (s'.withJournal journal)).1, Lockable.release lock _) = _
      rw [hrun]
      rfl

end Operation

namespace Client

variable {c : Client} {α β : Type}

theorem run_consult_withJournal {t : Ledger.Transaction α} (ht : t.Blind) (s : Site)
    (journal : Option Ledger.JournalTable) :
    Operation.run (c.consult fun _ => t) (s.withJournal journal) =
      ((Operation.run (c.consult fun _ => t) s).1,
        (Operation.run (c.consult fun _ => t) s).2.withJournal journal) := by
  unfold consult
  rw [run_step, run_step]
  show ((t.commit (s.deadline c.budget) (s.ledger.withJournal journal)).1, _) = _
  rw [Ledger.Transaction.commit_withJournal ht]
  rfl

theorem overlooks_consult {t : Ledger.Transaction α} (ht : t.Blind) :
    Overlooks (c.consult fun _ => t) :=
  overlooks_of_same (run_consult_withJournal ht)

theorem overlooks_transact {t : Ledger.Transaction α} (ht : t.Blind) :
    Overlooks (c.transact fun _ => t) := by
  refine overlooks_of_same fun s journal => ?_
  have hcommit : t.commit ((s.withJournal journal).deadline c.budget)
      (s.withJournal journal).ledger = _ :=
    Ledger.Transaction.commit_withJournal ht (s.deadline c.budget) s.ledger journal
  unfold transact
  rw [run_step, run_step, hcommit]
  obtain ⟨ledger, mayWrite, lock, programs, handOffs, now, clock⟩ := s
  cases mayWrite <;> rfl

theorem overlooks_handOff (task : Loader.Task) (text : String) :
    Overlooks (c.handOff task text) := by
  refine overlooks_of_same fun s journal => ?_
  obtain ⟨ledger, mayWrite, lock, programs, handOffs, now, clock⟩ := s
  unfold handOff
  rw [run_step, run_step]
  dsimp only [Site.withJournal]
  cases HandOff.isBroken ⟨c.loader.program, c.loader.arguments ++ task.options, text⟩ with
  | true => rfl
  | false => cases programs ⟨c.loader.program, c.loader.arguments ++ task.options, text⟩ <;> rfl

/-- Where there is no journal, putting an event into it does not make one. -/
theorem keeps_no_journal (kind : Event.Kind) (object : String) (details : Json.Value) :
    Keeps (fun s : Site => s.ledger.journal = none) (c.note kind object details) := by
  refine keeps_catch (keeps_transact (P := fun l => l.journal = none) c fun s l d hl => ?_)
    fun _ => keeps_pure _
  have hagree := Ledger.Transaction.agree_commit (Ledger.footprint_append
    { timestamp := s.now, actor := c.actor, kind, object, details }) d l
  have hmissing : l.size? .journal = none := by
    show l.journal.map _ = none
    rw [hl]
    rfl
  exact Option.map_eq_none_iff.mp (hagree.missing hmissing)

/-- Whatever becomes of the entry, the answer is the same, and so is all but the journal. -/
theorem overlooks_note (kind : Event.Kind) (object : String) (details : Json.Value) :
    Overlooks (c.note kind object details) := by
  intro s journal
  obtain ⟨_, hnote, -⟩ := run_note_cases (c := c) kind object details s
  obtain ⟨last, hlast, -⟩ := run_note_cases (c := c) kind object details (s.withJournal journal)
  refine ⟨last, ?_, fun hnone => ?_⟩
  · rw [hnote, hlast]
    rfl
  · have hstill := (keeps_no_journal (c := c) kind object details).run
      (s := s.withJournal journal) hnone
    rw [hlast] at hstill
    exact hstill

/-! ## Requests -/

theorem overlooks_roleFor (deed : String) : Overlooks (c.roleFor deed) := by
  refine overlooks_bind (overlooks_consult (Ledger.blind_lookUpRole c.actor)) fun found => ?_
  cases found with
  | none => exact overlooks_throw _
  | some name =>
      dsimp only
      split
      · exact overlooks_pure _
      · exact overlooks_throw _

theorem overlooks_authorize (deed : Deed) : Overlooks (c.authorize deed) := by
  refine overlooks_bind (overlooks_roleFor _) fun role => ?_
  split
  · exact overlooks_pure _
  · exact overlooks_throw _

theorem overlooks_guarded {deed : Deed} {task : Except Failure (Operation Site α)}
    (hbody : ∀ body, task = .ok body → Overlooks body) : Overlooks (c.guarded deed task) := by
  refine overlooks_bind (overlooks_authorize deed) fun _ => ?_
  cases task with
  | error e => exact overlooks_throw e
  | ok body => exact overlooks_underLock (hbody body rfl)

theorem overlooks_defaults : Overlooks c.defaults := by
  refine overlooks_bind (overlooks_consult Ledger.blind_loadDefaults) fun found => ?_
  cases found with
  | some d => exact overlooks_pure d
  | none => exact overlooks_transact Ledger.blind_seedDefaults

theorem overlooks_rules (onlyEnabled : Bool) : Overlooks (c.rules onlyEnabled) :=
  overlooks_consult (Ledger.blind_list onlyEnabled)

theorem overlooks_renderScript : Overlooks c.renderScript :=
  overlooks_bind overlooks_defaults fun _ => overlooks_bind (overlooks_rules true) fun _ =>
    overlooks_pure _

/-- What is answered is there already when the event is put into the journal. -/
theorem overlooks_noted (kind : Event.Kind) (object : String) (details : Json.Value) (a : α) :
    Overlooks (c.note kind object details >>= fun _ => pure a) :=
  overlooks_bind (overlooks_note kind object details) fun _ => overlooks_pure a

/-- Whatever is done under the lock is the same with any journal. -/
theorem overlooks_task {r : Request} {deed : Deed}
    {task : Except Failure (Operation Site r.Result)} {body : Operation Site r.Result}
    (h : r.task? c = some (deed, task)) (hbody : task = .ok body) : Overlooks body := by
  refine Request.forall_task (Q := fun _ body => Overlooks body) (fun d r _ => ?_) (fun id => ?_)
    (fun d defaults _ => ?_) (fun d p _ => ?_) ?_ h hbody
  · exact overlooks_bind (overlooks_transact (Ledger.blind_storeRule r)) fun id =>
      overlooks_noted _ _ _ _
  · refine overlooks_bind (overlooks_transact (Ledger.blind_delete id)) fun found => ?_
    cases found with
    | false => exact overlooks_pure false
    | true => exact overlooks_noted _ _ _ _
  · exact overlooks_bind (overlooks_transact (Ledger.blind_setDefaults defaults)) fun _ =>
      overlooks_noted _ _ _ _
  · exact overlooks_bind (overlooks_transact (Ledger.blind_replaceAll p.defaults p.rules))
      fun ids => overlooks_noted _ _ _ _
  · refine overlooks_bind overlooks_defaults fun defaults => ?_
    refine overlooks_bind (overlooks_rules true) fun rules => ?_
    exact overlooks_bind (overlooks_handOff _ _) fun _ => overlooks_noted _ _ _ _

end Client

/-- Whether it is the journal that is asked for. -/
def Request.isTrail : Request → Bool
  | trail _ => true
  | _ => false

namespace Client

variable {r : Request} (c : Client)

/-- The journal makes no difference to any request but the one for the journal. -/
theorem overlooks_request (hr : r.isTrail = false) : Overlooks (r.operation c) := by
  cases htask : r.task? c with
  | some guard =>
      obtain ⟨deed, task⟩ := guard
      rw [Request.operation_eq_guarded htask]
      exact overlooks_guarded fun body hbody => overlooks_task htask hbody
  | none =>
      cases r with
      | role => exact overlooks_roleFor _
      | rules onlyEnabled => exact overlooks_rules onlyEnabled
      | defaults => exact overlooks_defaults
      | exportPolicy =>
          exact overlooks_bind overlooks_defaults fun _ => overlooks_bind (overlooks_rules false)
            fun _ => overlooks_pure _
      | renderScript => exact overlooks_renderScript
      | check => exact overlooks_bind overlooks_renderScript fun _ => overlooks_handOff _ _
      | trail limit => cases hr
      | _ => cases htask

/-- Even where the answer is another one, the same is left behind. -/
theorem run_request_withJournal (r : Request) (s : Site) (journal : Option Ledger.JournalTable) :
    ∃ last,
      (Operation.run (r.operation c) (s.withJournal journal)).2 =
        (Operation.run (r.operation c) s).2.withJournal last ∧
      (journal = none → last = none) ∧
      (r.isTrail = false → (Operation.run (r.operation c) (s.withJournal journal)).1 =
        (Operation.run (r.operation c) s).1) := by
  cases htrail : r.isTrail with
  | false =>
      obtain ⟨last, hrun, hnone⟩ := overlooks_request c htrail s journal
      rw [hrun]
      exact ⟨last, rfl, hnone, fun _ => rfl⟩
  | true =>
      cases r with
      | trail limit => exact ⟨journal, rfl, id, nofun⟩
      | _ => cases htrail

/-- What only reads leaves the users and the lock alone. -/
theorem keeps_around_reading {users : Option (List Ledger.UserRow)} {lock : LockFile}
    (h : r.task? c = none) : Keeps (Site.Around users lock) (r.operation c) := by
  have hdefaults : Keeps (Site.Around users lock) c.defaults := by
    refine keeps_bind (keeps_around_consult _) fun found => ?_
    cases found with
    | some d => exact keeps_pure d
    | none => exact keeps_around_transact (fun _ => Ledger.footprint_seedDefaults) (by decide)
  have hrender : Keeps (Site.Around users lock) c.renderScript :=
    keeps_bind hdefaults fun _ => keeps_bind (keeps_around_consult _) fun _ => keeps_pure _
  cases r with
  | role =>
      refine keeps_bind (keeps_around_consult _) fun found => ?_
      cases found with
      | none => exact keeps_throw _
      | some name =>
          dsimp only
          split
          · exact keeps_pure _
          · exact keeps_throw _
  | rules onlyEnabled => exact keeps_around_consult _
  | defaults => exact hdefaults
  | exportPolicy =>
      exact keeps_bind hdefaults fun _ => keeps_bind (keeps_around_consult _) fun _ => keeps_pure _
  | renderScript => exact hrender
  | check => exact keeps_bind hrender fun _ => keeps_around_handOff _ _
  | trail limit => exact keeps_around_consult _
  | _ => cases h

/-- After a request the lock is as free as it was before, whatever came of it. -/
theorem lock_held_request (r : Request) (s : Site) :
    (Operation.run (r.operation c) s).2.lock.held = s.lock.held := by
  cases htask : r.task? c with
  | none =>
      have haround := (keeps_around_reading c htask).run (s := s)
        (show Site.Around s.ledger.users s.lock s from ⟨rfl, rfl⟩)
      rw [haround.2]
  | some guard =>
      obtain ⟨deed, task⟩ := guard
      rw [Request.operation_eq_guarded htask]
      cases hobstacle : r.obstacle? c deed s with
      | some e =>
          rw [run_guarded_of_obstacle htask hobstacle]
          rfl
      | none =>
          obtain ⟨body, -, hfree, hrun⟩ := run_guarded_of_none htask hobstacle
          rw [hrun, hfree]
          rfl

end Client

/-! ## Visits -/

/-- What lasts, with another journal, or with none. -/
def Lasting.withJournal (l : Lasting) (journal : Option Ledger.JournalTable) : Lasting :=
  { l with ledger := l.ledger.withJournal journal }

/-- One visit leaves the same but for the journal, and is answered the same unless the journal is
asked for. -/
theorem Visit.run_withJournal (v : Visit) (l : Lasting) (journal : Option Ledger.JournalTable) :
    ∃ last, (v.run (l.withJournal journal)).2 = (v.run l).2.withJournal last ∧
      (journal = none → last = none) ∧
      (v.request.isTrail = false → (v.run (l.withJournal journal)).1 = (v.run l).1) := by
  obtain ⟨last, hafter, hnone, hanswer⟩ :=
    Client.run_request_withJournal v.client v.request (v.scene.site l) journal
  refine ⟨last, congrArg Site.lasting hafter, hnone, fun htrail => ?_⟩
  exact congrArg (Answer.mk v.request) (hanswer htrail)

/-- The answers of those who did not ask for the journal. -/
def untold (answers : List (Visit × Answer)) : List (Visit × Answer) :=
  answers.filter fun p => !p.1.request.isTrail

/-- From what lasts with another journal on, all visits leave the same but for the journal. -/
theorem session_withJournal (l : Lasting) (journal : Option Ledger.JournalTable)
    (visits : List Visit) :
    ∃ last, (session (l.withJournal journal) visits).2 = (session l visits).2.withJournal last ∧
      (journal = none → last = none) ∧
      untold (session (l.withJournal journal) visits).1 = untold (session l visits).1 := by
  induction visits generalizing l journal with
  | nil => exact ⟨journal, rfl, id, rfl⟩
  | cons v rest ih =>
      obtain ⟨between, hafter, hnone, hanswer⟩ := v.run_withJournal l journal
      obtain ⟨last, hend, hstill, hrest⟩ := ih (v.run l).2 between
      rw [session_cons, session_cons, hafter]
      refine ⟨last, hend, fun h => hstill (hnone h), ?_⟩
      unfold untold at hrest ⊢
      cases htrail : v.request.isTrail with
      | true =>
          rw [List.filter_cons_of_neg (by simp [htrail]),
            List.filter_cons_of_neg (by simp [htrail]), hrest]
      | false =>
          rw [List.filter_cons_of_pos (by simp [htrail]),
            List.filter_cons_of_pos (by simp [htrail]), hrest, hanswer htrail]

/-- Any session of visits from any ledger on can as well be held with another journal, and with none
at all: whoever does not ask for the journal gets the same answer, and the same lasts in the end,
rules and their numbers, defaults and scripts, but for the journal; a missing one stays missing.
For an event that is put into the journal never fails what it is about, and changes nothing else;
and after every visit the lock is as free or as held as it was. -/
theorem journal_makes_no_difference (l : Lasting) (visits : List Visit) :
    (untold (session (l.withJournal none) visits).1 = untold (session l visits).1 ∧
      (session (l.withJournal none) visits).2 = (session l visits).2.withJournal none) ∧
    (∀ journal, ∃ last,
      untold (session (l.withJournal journal) visits).1 = untold (session l visits).1 ∧
      (session (l.withJournal journal) visits).2 = (session l visits).2.withJournal last) ∧
    (∀ (c : Client) (kind : Event.Kind) (object : String) (details : Json.Value) (s : Site),
      ∃ last, Operation.run (c.note kind object details) s =
        (.ok (), s.later.withJournal last)) ∧
    ∀ (v : Visit) (now : Lasting),
      (Operation.run (v.request.operation v.client) (v.scene.site now)).2.lock.held =
        v.scene.lockHeld := by
  refine ⟨?_, fun journal => ?_, fun c kind object details s => ?_, fun v now => ?_⟩
  · obtain ⟨last, hend, hnone, hanswers⟩ := session_withJournal l none visits
    rw [hnone rfl] at hend
    exact ⟨hanswers, hend⟩
  · obtain ⟨last, hend, -, hanswers⟩ := session_withJournal l journal visits
    exact ⟨last, hanswers, hend⟩
  · obtain ⟨last, hnote, -⟩ := Client.run_note_cases (c := c) kind object details s
    exact ⟨last, hnote⟩
  · exact Client.lock_held_request v.client v.request (v.scene.site now)

end PacketPolicy
