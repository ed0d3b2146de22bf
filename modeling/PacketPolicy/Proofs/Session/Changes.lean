import PacketPolicy.Proofs.Ledger.Failures
import PacketPolicy.Proofs.Session.Reachable
import PacketPolicy.Proofs.Session.Timely
import PacketPolicy.Proofs.Time.Timestamps

/-!
# Changes

All operations that change something have the same shape: it is asked whether the user may do it,
then whether what is given is acceptable, and then something is done under the lock.  This module
says what becomes of their parts, whether in time or not, and whether or not anything may be
written.

* `Client.guarded` -- the shape; `Client.addition`, `Client.removal`, `Client.overwriting`,
  `Client.replacement`, `Client.loading` -- what is done under the lock;
* `Request.task?`, `Request.forall_task`, `operation_eq_guarded` -- the requests that have this
  shape;
* `run_guarded` -- either nothing is done, or the task is run with the lock held;
* `run_transact_cases` -- a transaction that fails leaves the ledger as it was;
* `run_defaults_cases`, `run_rules_cases`, `run_handOff_cases` -- reading a policy, and handing
  over its script;
* `Client.Records`, `run_note_recorded`, `run_note_full`, `run_note_cases` -- an entry of the
  journal, and when it is made;
* `run_loading_cases` -- what is loaded is the script of the policy that the ledger holds;
* `keeps_same`, `same_of_reading` -- what only reads leaves all tables but those of the policy
  alone.
-/

namespace PacketPolicy

namespace Process

variable {σ α β γ : Type}

theorem bind_assoc (p : Process σ α) (f : α → Process σ β) (g : β → Process σ γ) :
    (p.bind f).bind g = p.bind fun a => (f a).bind g := by
  induction p with
  | done a => rfl
  | act effect next ih => exact congrArg (act effect) (funext ih)
  | acquire lock next ih => exact congrArg (acquire lock) (funext ih)
  | release lock next ih => exact congrArg (release lock) ih

end Process

namespace Operation

variable {σ α β γ : Type}

theorem bind_assoc (o : Operation σ α) (f : α → Operation σ β) (g : β → Operation σ γ) :
    o >>= f >>= g = o >>= fun a => f a >>= g := by
  refine (Process.bind_assoc (ExceptT.run o) _ _).trans ?_
  refine congrArg (fun k => (ExceptT.run o).bind k) (funext fun outcome => ?_)
  cases outcome <;> rfl

/-- What is answered after the lock has been given back can as well be answered before. -/
theorem underLock_bind_pure (lock : ChangeLock) (body : Operation σ α) (b : β) :
    (underLock lock body >>= fun _ => pure b) = underLock lock (body >>= fun _ => pure b) := by
  refine congrArg (Process.acquire lock) (funext fun had => ?_)
  cases had with
  | error e => rfl
  | ok _ =>
      refine (Process.bind_assoc (ExceptT.run body) _ _).trans
        (Eq.trans ?_ (Process.bind_assoc (ExceptT.run body) _ _).symm)
      refine congrArg (fun k => (ExceptT.run body).bind k) (funext fun outcome => ?_)
      cases outcome <;> rfl

end Operation

namespace Client

variable {β : Type}

/-- Something that is done under the lock, if the user may do it and what is given is
acceptable. -/
def guarded (c : Client) (deed : Deed) (task : Except Failure (Operation Site β)) :
    Operation Site β := do
  c.authorize deed
  let body ← admitted task
  Operation.underLock c.lock body

/-- What is done under the lock in order to add a rule. -/
def addition (c : Client) (r : Rule) : Operation Site Int64 := do
  let id ← c.transact fun _ => Ledger.create r
  c.note .addRule (ruleObject id) (.ofMembers (r.withId id).members)
  return id

/-- What is done under the lock in order to delete a rule. -/
def removal (c : Client) (id : Int64) : Operation Site Bool := do
  let found ← c.transact fun _ => Ledger.delete id
  if found then c.note .deleteRule (ruleObject id) (.object [])
  return found

/-- What is done under the lock in order to set the defaults. -/
def overwriting (c : Client) (d : Defaults) : Operation Site Defaults := do
  c.transact fun _ => Ledger.setDefaults d
  c.note .setDefaults defaultsObject (.ofMembers d.members)
  return d

/-- What is done under the lock in order to import a policy. -/
def replacement (c : Client) (q : Policy) : Operation Site Nat := do
  let ids ← c.transact fun _ => Ledger.replaceAll q.defaults q.rules
  c.note .importSnapshot rulesetObject (.ofMembers [("rules", .ofNat ids.length)])
  return ids.length

/-- What is done under the lock in order to load the script of the policy. -/
def loading (c : Client) : Operation Site Loaded := do
  let defaults ← c.defaults
  let rules ← c.rules true
  let s := script defaults rules
  c.handOff .load s
  let loaded : Loaded := { rules := rules.length, bytes := s.utf8ByteSize }
  c.note .applyRules rulesetObject
    (.ofMembers [("rules", .ofNat loaded.rules), ("bytes", .ofNat loaded.bytes)])
  return loaded

end Client

/-- What the user needs for a request that changes something, and what is done about it under the
lock, if what is given is acceptable. -/
def Request.task? (c : Client) :
    (r : Request) → Option (Client.Deed × Except Failure (Operation Site r.Result))
  | .addRule d => some (.addRules, (c.admitRule d).map c.addition)
  | .deleteRule id => some (.deleteRules, .ok (c.removal id))
  | .setDefaults d => some (.changeDefaults, (d.accept.mapError .refused).map c.overwriting)
  | .importPolicy d => some (.importPolicies, (c.admitPolicy d).map c.replacement)
  | .apply => some (.applyRuleset, .ok c.loading)
  | _ => none

/-- What holds of the five things that clients do under the lock holds of all that is done there. -/
theorem Request.forall_task {c : Client} {Q : (r : Request) → Operation Site r.Result → Prop}
    (haddition : ∀ d r, c.admitRule d = .ok r → Q (.addRule d) (c.addition r))
    (hremoval : ∀ id, Q (.deleteRule id) (c.removal id))
    (hoverwriting : ∀ d defaults, d.accept = .ok defaults →
      Q (.setDefaults d) (c.overwriting defaults))
    (hreplacement : ∀ d p, c.admitPolicy d = .ok p → Q (.importPolicy d) (c.replacement p))
    (hloading : Q .apply c.loading) {r : Request} {deed : Client.Deed}
    {task : Except Failure (Operation Site r.Result)} (h : r.task? c = some (deed, task))
    {body : Operation Site r.Result} (hbody : task = .ok body) : Q r body := by
  cases r with
  | addRule d =>
      cases h
      cases hadmitted : c.admitRule d with
      | error e => simp [hadmitted, Except.map] at hbody
      | ok r =>
          rw [hadmitted] at hbody
          cases hbody
          exact haddition d r hadmitted
  | deleteRule id =>
      cases h
      cases hbody
      exact hremoval id
  | setDefaults d =>
      cases h
      cases haccepted : d.accept with
      | error refusal =>
          rw [haccepted] at hbody
          cases hbody
      | ok defaults =>
          rw [haccepted] at hbody
          cases hbody
          exact hoverwriting d defaults haccepted
  | importPolicy d =>
      cases h
      cases hadmitted : c.admitPolicy d with
      | error e => simp [hadmitted, Except.map] at hbody
      | ok p =>
          rw [hadmitted] at hbody
          cases hbody
          exact hreplacement d p hadmitted
  | apply =>
      cases h
      cases hbody
      exact hloading
  | _ => cases h

/-- Every request that changes something is guarded. -/
theorem Request.operation_eq_guarded {c : Client} {r : Request} {deed : Client.Deed}
    {task : Except Failure (Operation Site r.Result)} (h : r.task? c = some (deed, task)) :
    r.operation c = c.guarded deed task := by
  cases r with
  | addRule d =>
      cases h
      show c.addRule d = _
      unfold Client.addRule Client.guarded
      cases c.admitRule d <;> rfl
  | deleteRule id =>
      cases h
      rfl
  | setDefaults d =>
      cases h
      show c.setDefaults d = _
      unfold Client.setDefaults Client.guarded
      cases d.accept with
      | error refusal => rfl
      | ok defaults =>
          refine congrArg (fun k => c.authorize .changeDefaults >>= k) (funext fun _ => ?_)
          have hmoved := Operation.underLock_bind_pure c.lock (do
            c.transact fun _ => Ledger.setDefaults defaults
            c.note .setDefaults defaultsObject (.ofMembers defaults.members)) defaults
          rw [Operation.bind_assoc] at hmoved
          exact hmoved
  | importPolicy d =>
      cases h
      show c.importPolicy d = _
      unfold Client.importPolicy Client.guarded
      cases c.admitPolicy d <;> rfl
  | apply =>
      cases h
      rfl
  | _ => cases h

namespace Ledger

/-- Reading the defaults of the policy that a ledger holds, in time or not at all. -/
theorem Holds.commit_loadDefaults {l : Ledger} {p : Policy} (h : l.Holds p) (d : Deadline) :
    (∃ e, loadDefaults.commit d l = (.error e, l)) ∨
      loadDefaults.commit d l = (.ok (some p.defaults), l) := by
  obtain ⟨highest, heq, -⟩ := h.eq_withTables
  have hreads := reads_loadDefaults (l := l) (PolicyTables.loaded_ofPolicy p highest)
  rw [← heq] at hreads
  exact (Transaction.commit_of_reads hreads d).imp_left fun hlate => ⟨_, hlate⟩

theorem Holds.commit_list {l : Ledger} {p : Policy} (h : l.Holds p) (onlyEnabled : Bool)
    (d : Deadline) :
    (∃ e, (list onlyEnabled).commit d l = (.error e, l)) ∨
      (list onlyEnabled).commit d l = (.ok (p.selected onlyEnabled), l) := by
  obtain ⟨highest, heq, hnumbered⟩ := h.eq_withTables
  have hreads := reads_list (l := l) (t := .ofPolicy p highest) onlyEnabled
  rw [← heq, PolicyTables.listed_ofPolicy onlyEnabled hnumbered] at hreads
  exact (Transaction.commit_of_reads hreads d).imp_left fun hlate => ⟨_, hlate⟩

end Ledger

/-- The journal with one more entry. -/
def Ledger.JournalTable.record (t : JournalTable) (e : Event) : JournalTable :=
  ⟨t.rows ++ [.ofEvent e], t.highest + 1⟩

/-- There is a number left for one more entry of the journal. -/
def Ledger.HasEntry (l : Ledger) : Prop :=
  ∀ t ∈ l.journal, t.highest < greatestId

instance (l : Ledger) : Decidable l.HasEntry :=
  inferInstanceAs (Decidable (∀ t ∈ l.journal, t.highest < Ledger.greatestId))

/-- The lock is had only where nobody holds it. -/
theorem Site.eq_locked_of_acquire {lock : ChangeLock} {s s' : Site}
    (h : Lockable.acquire lock s = .ok s') : s' = s.locked := by
  change Site.acquire lock s = .ok s' at h
  unfold Site.acquire at h
  split at h
  · cases h
  split at h
  · cases h
  · exact (Except.ok.inj h).symm

namespace Client

open Operation

variable {c : Client} {s : Site} {α β : Type}

theorem run_consult_snd (t : Site → Ledger.Transaction α) (s : Site) :
    (Operation.run (c.consult t) s).2 = s.later := rfl

theorem run_roleFor_snd (deed : String) (s : Site) :
    (Operation.run (c.roleFor deed) s).2 = s.later := by
  unfold roleFor
  rw [run_bind]
  have hlater := run_consult_snd (c := c) (fun _ => Ledger.lookUpRole c.actor) s
  cases hlook : Operation.run (c.consult fun _ => Ledger.lookUpRole c.actor) s with
  | mk outcome s' =>
      rw [hlook] at hlater
      obtain rfl : s' = s.later := hlater
      cases outcome with
      | error e => rfl
      | ok found =>
          cases found with
          | none => rfl
          | some name =>
              dsimp only
              split <;> rfl

/-- Asking whether the user may do something takes time and nothing else. -/
theorem run_authorize_snd (deed : Deed) (s : Site) :
    (Operation.run (c.authorize deed) s).2 = s.later := by
  unfold authorize
  rw [run_bind]
  have hlater := run_roleFor_snd (c := c) deed.wording s
  cases hrole : Operation.run (c.roleFor deed.wording) s with
  | mk outcome s' =>
      rw [hrole] at hlater
      obtain rfl : s' = s.later := hlater
      cases outcome with
      | error e => rfl
      | ok role =>
          dsimp only
          split <;> rfl

/-- Either nothing is done, and time has passed, or the task is run with the lock held, and then
the lock is free. -/
theorem run_guarded (deed : Deed) (task : Except Failure (Operation Site β)) (s : Site) :
    (∃ e, Operation.run (c.guarded deed task) s = (.error e, s.later)) ∨
      ∃ body, task = .ok body ∧ Operation.run (c.guarded deed task) s =
        ((Operation.run body s.later.locked).1,
          Lockable.release c.lock (Operation.run body s.later.locked).2) := by
  unfold guarded
  rw [run_bind]
  have hlater := run_authorize_snd (c := c) deed s
  cases hmay : Operation.run (c.authorize deed) s with
  | mk outcome s' =>
      rw [hmay] at hlater
      obtain rfl : s' = s.later := hlater
      cases outcome with
      | error e => exact Or.inl ⟨e, rfl⟩
      | ok _ =>
          cases task with
          | error refusal => exact Or.inl ⟨_, rfl⟩
          | ok body =>
              dsimp only
              rw [show (admitted (.ok body) >>= fun body => underLock c.lock body) =
                underLock c.lock body from rfl, run_underLock]
              cases hacquire : Lockable.acquire c.lock s.later with
              | error e => exact Or.inl ⟨e, rfl⟩
              | ok held =>
                  obtain rfl := Site.eq_locked_of_acquire hacquire
                  exact Or.inr ⟨body, rfl, rfl⟩

theorem exists_refusedWrite (x : Except Failure α) : ∃ e, refusedWrite x = .error e := by
  unfold refusedWrite
  split <;> exact ⟨_, rfl⟩

/-- A transaction that writes fails and leaves the ledger as it was, or the ledger may be written
to and the transaction has its effect. -/
theorem run_transact_cases (t : Site → Ledger.Transaction α) (s : Site) :
    (∃ e, Operation.run (c.transact t) s = (.error e, s.later)) ∨
      s.mayWrite = true ∧ ∃ a l, (t s).commit (s.deadline c.budget) s.ledger = (.ok a, l) ∧
        Operation.run (c.transact t) s = (.ok a, { s.later with ledger := l }) := by
  unfold transact
  rw [run_step]
  dsimp only
  cases hwrite : s.mayWrite with
  | false =>
      obtain ⟨e, hrefused⟩ :=
        exists_refusedWrite ((t s).commit (s.deadline c.budget) s.ledger).1
      exact Or.inl ⟨e, by simp [hrefused, Site.later, hwrite]⟩
  | true =>
      cases hcommit : (t s).commit (s.deadline c.budget) s.ledger with
      | mk outcome l =>
          cases outcome with
          | error e =>
              have hsame := Ledger.commit_error_snd (t s) (s.deadline c.budget) (l := s.ledger)
                (by rw [hcommit])
              rw [hcommit] at hsame
              obtain rfl : l = s.ledger := hsame
              exact Or.inl ⟨e, by simp [Site.later, hwrite]⟩
          | ok a => exact Or.inr ⟨rfl, a, l, rfl, by simp [Site.later, hwrite]⟩

/-- Where the policy is read in time or not at all, it is the one that the ledger holds. -/
theorem run_defaults_cases {p : Policy} (hp : s.ledger.Holds p) :
    (∃ e, Operation.run c.defaults s = (.error e, s.later)) ∨
      Operation.run c.defaults s = (.ok p.defaults, s.later) := by
  unfold Client.defaults
  rcases hp.commit_loadDefaults (s.deadline c.budget) with ⟨e, hlate⟩ | hdone
  · have hfail : Operation.run (c.consult fun _ => Ledger.loadDefaults) s =
        (.error e, s.later) := by
      unfold consult
      rw [run_step, hlate]
      rfl
    exact Or.inl ⟨e, run_bind_error hfail⟩
  · have hread : Operation.run (c.consult fun _ => Ledger.loadDefaults) s =
        (.ok (some p.defaults), s.later) := by
      unfold consult
      rw [run_step, hdone]
      rfl
    exact Or.inr (run_bind_ok hread)

theorem run_rules_cases {p : Policy} (onlyEnabled : Bool) (hp : s.ledger.Holds p) :
    (∃ e, Operation.run (c.rules onlyEnabled) s = (.error e, s.later)) ∨
      Operation.run (c.rules onlyEnabled) s = (.ok (p.selected onlyEnabled), s.later) := by
  unfold Client.rules consult
  rw [run_step]
  rcases hp.commit_list onlyEnabled (s.deadline c.budget) with ⟨e, hlate⟩ | hdone
  · rw [hlate]
    exact Or.inl ⟨e, rfl⟩
  · rw [hdone]
    exact Or.inr rfl

/-- A script is handed over, whether or not the program takes it, or it does not come to that; the
ledger is not asked either way. -/
theorem run_handOff_cases (task : Loader.Task) (text : String) (s : Site) :
    let h : HandOff := ⟨c.loader.program, c.loader.arguments ++ task.options, text⟩
    (∃ e handOffs, Operation.run (c.handOff task text) s = (.error e, { s with handOffs }) ∧
        (handOffs = s.handOffs ∨ handOffs = h :: s.handOffs)) ∨
      Operation.run (c.handOff task text) s = (.ok (), { s with handOffs := h :: s.handOffs }) := by
  unfold handOff
  rw [run_step]
  dsimp only
  split
  · exact Or.inl ⟨_, s.handOffs, rfl, Or.inl rfl⟩
  split
  · exact Or.inl ⟨_, s.handOffs, rfl, Or.inl rfl⟩
  · rename_i status report _
    cases c.loader.outcome status report with
    | error e => exact Or.inl ⟨e, _, rfl, Or.inr rfl⟩
    | ok _ => exact Or.inr rfl

/-- What the client puts into the journal of the site gets there, and can be read there: its
transactions are in time, and the journal is in order. -/
structure Records (c : Client) (s : Site) : Prop where
  inTime : c.InTime s
  mayWrite : s.mayWrite = true
  /-- The present moment has a notation that can be read back. -/
  usual : s.now.Usual
  room : s.ledger.HasEntry

theorem Records.of_clock {s' : Site} (h : c.Records s)
    (hclock : ∀ looks ∈ s'.clock, looks ∈ s.clock) (hwrite : s'.mayWrite = s.mayWrite)
    (hnow : s'.now = s.now) (hjournal : s'.ledger.journal = s.ledger.journal) : c.Records s' where
  inTime := h.inTime.of_clock hclock
  mayWrite := hwrite.trans h.mayWrite
  usual := hnow ▸ h.usual
  room := by
    unfold Ledger.HasEntry
    rw [hjournal]
    exact h.room

/-- An entry of the journal that can be made is made. -/
theorem run_note_recorded (h : c.Records s) {t : Ledger.JournalTable}
    (ht : s.ledger.journal = some t) (kind : Event.Kind) (object : String)
    (details : Json.Value) :
    Operation.run (c.note kind object details) s =
      (.ok (), { s.later with
        ledger := { s.ledger with
          journal := some (t.record ⟨s.now, c.actor, kind, object, details⟩) } }) := by
  let e : Event := ⟨s.now, c.actor, kind, object, details⟩
  have hrow : Ledger.appendRow (.ofEvent e) s.ledger =
      .ok ((), { s.ledger with journal := some (t.record e) }) := by
    unfold Ledger.appendRow
    rw [ht]
    exact if_pos (h.room t ht)
  have hyields := Ledger.Transaction.yields_statement (Ledger.appendRow (.ofEvent e)) s.ledger
  rw [hrow] at hyields
  unfold note
  rw [run_catch, run_transact
    (t := fun s => Ledger.append ⟨s.now, c.actor, kind, object, details⟩) h.inTime h.mayWrite
    hyields]

/-- Where no number is left for it, an entry is not made, and nobody notices. -/
theorem run_note_full (h : c.InTime s) (hwrite : s.mayWrite = true) (hfull : ¬ s.ledger.HasEntry)
    (kind : Event.Kind) (object : String) (details : Json.Value) :
    Operation.run (c.note kind object details) s = (.ok (), s.later) := by
  let e : Event := ⟨s.now, c.actor, kind, object, details⟩
  have hrow : Ledger.appendRow (.ofEvent e) s.ledger = .error .full := by
    unfold Ledger.HasEntry at hfull
    unfold Ledger.appendRow
    cases ht : s.ledger.journal with
    | none => simp [ht] at hfull
    | some t => exact if_neg fun hroom => hfull (by simpa [ht] using hroom)
  have hyields := Ledger.Transaction.yields_statement (Ledger.appendRow (.ofEvent e)) s.ledger
  rw [hrow] at hyields
  unfold note
  rw [run_catch, run_transact_fault
    (t := fun s => Ledger.append ⟨s.now, c.actor, kind, object, details⟩) h hwrite hyields]
  rfl

/-- An entry of the journal is no more than that; and if it can be made, it is made. -/
theorem run_note_cases (kind : Event.Kind) (object : String) (details : Json.Value) (s : Site) :
    ∃ journal,
      Operation.run (c.note kind object details) s =
        (.ok (), { s.later with ledger := { s.ledger with journal } }) ∧
      (c.Records s → ∀ t, s.ledger.journal = some t →
        journal = some (t.record ⟨s.now, c.actor, kind, object, details⟩)) := by
  have hnoted : ∃ journal, Operation.run (c.note kind object details) s =
      (.ok (), { s.later with ledger := { s.ledger with journal } }) := by
    cases hwrite : s.mayWrite with
    | true => exact run_note hwrite kind object details
    | false =>
        refine ⟨s.ledger.journal, ?_⟩
        unfold note
        rw [run_catch]
        rcases run_transact_cases (c := c)
            (fun s => Ledger.append ⟨s.now, c.actor, kind, object, details⟩) s with
          ⟨e, hfail⟩ | ⟨hmay, -⟩
        · rw [hfail]
          rfl
        · rw [hwrite] at hmay
          cases hmay
  obtain ⟨journal, hnote⟩ := hnoted
  refine ⟨journal, hnote, fun hrecords t ht => ?_⟩
  rw [run_note_recorded hrecords ht] at hnote
  exact congrArg (fun outcome => outcome.2.ledger.journal) hnote.symm

/-- What is handed over under the lock. -/
def delivery (c : Client) (p : Policy) : HandOff :=
  ⟨c.loader.program, c.loader.arguments ++ Loader.Task.load.options,
    script p.defaults (p.selected true)⟩

/-- What is told of loading a policy. -/
def Loaded.ofPolicy (p : Policy) : Loaded where
  rules := (p.selected true).length
  bytes := (script p.defaults (p.selected true)).utf8ByteSize

/-- Loading fails and leaves the ledger as it was, or it succeeds; what it hands over is the script
of the policy that the ledger holds, and nothing else. -/
theorem run_loading_cases {p : Policy} (hp : s.ledger.Holds p) :
    (∃ e after, Operation.run c.loading s = (.error e, after) ∧ after.ledger = s.ledger ∧
        (after.handOffs = s.handOffs ∨ after.handOffs = c.delivery p :: s.handOffs)) ∨
      ∃ journal,
        Operation.run c.loading s =
          (.ok (.ofPolicy p),
            { s.later.later.later with
              handOffs := c.delivery p :: s.handOffs, ledger := { s.ledger with journal } }) ∧
        (c.Records s → ∀ t, s.ledger.journal = some t →
          journal = some (t.record ⟨s.now, c.actor, .applyRules, rulesetObject,
            .ofMembers [("rules", .ofNat (Loaded.ofPolicy p).rules),
              ("bytes", .ofNat (Loaded.ofPolicy p).bytes)]⟩)) := by
  rcases run_defaults_cases (c := c) hp with ⟨e, hfail⟩ | hdefaults
  · exact Or.inl ⟨e, _, run_bind_error hfail, rfl, Or.inl rfl⟩
  rcases run_rules_cases (c := c) (s := s.later) true hp with ⟨e, hfail⟩ | hrules
  · exact Or.inl ⟨e, _, (run_bind_ok hdefaults).trans (run_bind_error hfail), rfl, Or.inl rfl⟩
  rcases run_handOff_cases (c := c) .load (c.delivery p).script s.later.later with
    ⟨e, handOffs, hfail, hhanded⟩ | hdone
  · exact Or.inl ⟨e, _, (run_bind_ok hdefaults).trans
      ((run_bind_ok hrules).trans (run_bind_error hfail)), rfl, hhanded⟩
  obtain ⟨journal, hnote, hrecorded⟩ := run_note_cases (c := c) .applyRules rulesetObject
    (.ofMembers [("rules", .ofNat (Loaded.ofPolicy p).rules),
      ("bytes", .ofNat (Loaded.ofPolicy p).bytes)])
    { s.later.later with handOffs := c.delivery p :: s.handOffs }
  refine Or.inr ⟨journal, (run_bind_ok hdefaults).trans ((run_bind_ok hrules).trans
    ((run_bind_ok hdone).trans (run_bind_ok hnote))), fun hrecords => hrecorded ?_⟩
  exact hrecords.of_clock
    (fun _ hlooks => List.mem_of_mem_tail (List.mem_of_mem_tail hlooks)) rfl rfl rfl

/-! ## Requests that only read -/

/-- No step of a request that only reads touches a table outside of the policy. -/
theorem keeps_same {l : Ledger} {table : Table} (htable : table ∉ Table.ofPolicy) {r : Request}
    (h : r.task? c = none) :
    Keeps (fun s : Site => Ledger.Same l s.ledger table) (r.operation c) := by
  let P (m : Ledger) : Prop := Ledger.Same l m table
  have hconsult {α : Type} (f : Site → Ledger.Transaction α) :
      Keeps (fun s : Site => P s.ledger) (c.consult f) :=
    keeps_consult c f
  have hdefaults : Keeps (fun s : Site => P s.ledger) c.defaults := by
    refine keeps_bind (hconsult _) fun found => ?_
    cases found with
    | some d => exact keeps_pure _
    | none =>
        refine keeps_transact c fun _ m d hm => ?_
        have hagree := Ledger.Transaction.agree_commit Ledger.footprint_seedDefaults d m
        exact hm.trans (hagree.outside table htable)
  have hrender : Keeps (fun s : Site => P s.ledger) c.renderScript :=
    keeps_bind hdefaults fun _ => keeps_bind (hconsult _) fun _ => keeps_pure _
  cases r with
  | role => exact keeps_roleFor (P := P) c _
  | rules onlyEnabled => exact hconsult _
  | defaults => exact hdefaults
  | exportPolicy =>
      exact keeps_bind hdefaults fun _ => keeps_bind (hconsult _) fun _ => keeps_pure _
  | renderScript => exact hrender
  | check => exact keeps_bind hrender fun _ => keeps_handOff (P := P) c _ _
  | trail limit => exact hconsult _
  | _ => cases h

theorem same_of_reading {r : Request} (h : r.task? c = none) {table : Table}
    (htable : table ∉ Table.ofPolicy) (s : Site) :
    Ledger.Same s.ledger (Operation.run (r.operation c) s).2.ledger table :=
  (keeps_same htable h).run (Ledger.Same.refl s.ledger table)

end Client
end PacketPolicy
