import PacketPolicy.Proofs.Session.Failures
import PacketPolicy.Proofs.Session.Replay
import PacketPolicy.Proofs.Session.Transfer

/-!
# What stands in the way of a change

A request that changes something meets its obstacles in a fixed order: first the user may not do
it, then what is given is not acceptable, then the lock is not to be had.  Only when it has the lock
does it write, and then the ledger or the loader may still fail it.  Whatever fails it, at whatever
point, the ledger is as it was before, and so is the lock.

* `Request.deed?` -- what the user has to be allowed to do; `Request.complaint?` -- what is wrong
  with what is given;
* `Request.obstacle?` -- the first obstacle before the request has the lock;
* `run_guarded_of_obstacle`, `run_guarded_of_none` -- it fails with this obstacle, or it has the
  lock;
* `ledger_eq_of_task_error` -- with the lock, a failure has left nothing behind;
* `failed_changes_leave_no_trace` -- all of this for reachable sites.
-/

namespace PacketPolicy

/-- The failure of what has failed. -/
def failure? {ε α : Type} : Except ε α → Option ε
  | .ok _ => none
  | .error e => some e

theorem failure?_eq_none_iff {ε α : Type} {x : Except ε α} :
    failure? x = none ↔ ∃ a, x = .ok a := by
  cases x <;> simp [failure?]

theorem failure?_eq_some_iff {ε α : Type} {x : Except ε α} {e : ε} :
    failure? x = some e ↔ x = .error e := by
  cases x <;> simp [failure?]

@[simp]
theorem failure?_map {ε α β : Type} (x : Except ε α) (f : α → β) :
    failure? (x.map f) = failure? x := by
  cases x <;> rfl

@[simp]
theorem failure?_mapError {ε δ α : Type} (x : Except ε α) (tell : ε → δ) :
    failure? (x.mapError tell) = (failure? x).map tell := by
  cases x <;> rfl

/-- What is told of the rule at a place, counted from zero, of a list, if it is not acceptable. -/
def Client.complaintAt? (c : Client) (draft : Rule.Draft × Nat) : Option Failure :=
  (failure? (c.admitRule draft.1)).map (Failure.inRule (draft.2 + 1))

namespace Request

/-- What the user has to be allowed to do for a request that changes something. -/
def deed? : Request → Option Client.Deed
  | addRule _ => some .addRules
  | deleteRule _ => some .deleteRules
  | setDefaults _ => some .changeDefaults
  | importPolicy _ => some .importPolicies
  | apply => some .applyRuleset
  | _ => none

/-- What is wrong with what is given, if anything is.  Of a policy the defaults are looked at first,
and then each rule in order, of which the first one that is not acceptable is told. -/
def complaint? (c : Client) : Request → Option Failure
  | addRule d => failure? (c.admitRule d)
  | setDefaults d => (failure? d.accept).map .refused
  | importPolicy d =>
      ((failure? d.defaults.accept).map .refused).or (d.rules.zipIdx.findSome? c.complaintAt?)
  | _ => none

/-- The first obstacle that a request meets before it has the lock. -/
def obstacle? (c : Client) (deed : Client.Deed) (r : Request) (s : Site) : Option Failure :=
  (failure? (Operation.run (c.authorize deed) s).1).or
    ((r.complaint? c).or (failure? (Lockable.acquire c.lock s)))

end Request

/-! ## What is given -/

/-- What is given is refused, or the interfaces that it names cannot be looked up. -/
inductive Failure.OfDraft : Failure → Prop where
  | refused (r : Refusal) : OfDraft (.refused r)
  | unlisted (words : String) :
      OfDraft (.internal ("Failed to list network interfaces: " ++ words))

theorem Failure.OfDraft.inRule {e : Failure} (h : e.OfDraft) (place : Nat) :
    (e.inRule place).OfDraft := by
  cases h with
  | refused r => exact .refused _
  | unlisted words => exact .unlisted words

namespace Client

variable {c : Client}

theorem ofDraft_admitInterface {field : Field} {name : Option String} {e : Failure}
    (h : c.admitInterface field name = .error e) : e.OfDraft := by
  unfold admitInterface at h
  split at h
  · cases h
  split at h
  · cases h
  · cases h
    exact .unlisted _
  · split at h <;> cases h
    exact .refused _

/-- A rule is not admitted because its draft is not accepted or because of an interface. -/
theorem admitRule_error_cases {d : Rule.Draft} {e : Failure} (h : c.admitRule d = .error e) :
    (∃ refusal, e = .refused refusal) ∨ ∃ field name, c.admitInterface field name = .error e := by
  unfold admitRule at h
  rcases bind_eq_error_iff.mp h with haccept | ⟨r, -, h⟩
  · obtain ⟨refusal, -, rfl⟩ := mapError_eq_error_iff.mp haccept
    exact Or.inl ⟨refusal, rfl⟩
  rcases bind_eq_error_iff.mp h with hin | ⟨-, -, h⟩
  · exact Or.inr ⟨_, _, hin⟩
  rcases bind_eq_error_iff.mp h with hout | ⟨-, -, h⟩
  · exact Or.inr ⟨_, _, hout⟩
  · cases h

theorem ofDraft_admitRule {d : Rule.Draft} {e : Failure} (h : c.admitRule d = .error e) :
    e.OfDraft := by
  rcases admitRule_error_cases h with ⟨refusal, rfl⟩ | ⟨_, _, hinterface⟩
  · exact .refused refusal
  · exact ofDraft_admitInterface hinterface

/-- Of rules in a list the first one that is not acceptable is told, with its place. -/
theorem failure?_admitRules (place : Nat) (drafts : List Rule.Draft) :
    failure? (c.admitRules place drafts) = (drafts.zipIdx place).findSome? c.complaintAt? := by
  induction drafts generalizing place with
  | nil => rfl
  | cons d rest ih =>
      rw [List.zipIdx_cons, List.findSome?_cons, ← ih (place + 1), admitRules, complaintAt?]
      cases c.admitRule d with
      | error e => rfl
      | ok r => cases c.admitRules (place + 1) rest <;> rfl

end Client

namespace Request

variable {c : Client} {r : Request} {deed : Client.Deed}

/-- What is told is what keeps the request from being carried out. -/
theorem complaint?_eq {task : Except Failure (Operation Site r.Result)}
    (h : r.task? c = some (deed, task)) : r.complaint? c = failure? task := by
  cases r with
  | addRule d =>
      cases h
      exact (failure?_map _ _).symm
  | setDefaults d =>
      cases h
      exact ((failure?_map _ _).trans (failure?_mapError _ _)).symm
  | importPolicy d =>
      cases h
      refine Eq.trans ?_ (failure?_map _ _).symm
      show ((failure? d.defaults.accept).map Failure.refused).or
        (d.rules.zipIdx.findSome? c.complaintAt?) = _
      rw [← Client.failure?_admitRules 0 d.rules]
      unfold Client.admitPolicy
      cases d.defaults.accept with
      | error refusal => rfl
      | ok defaults => cases c.admitRules 0 d.rules <;> rfl
  | deleteRule id =>
      cases h
      rfl
  | apply =>
      cases h
      rfl
  | _ => cases h

/-- What is wrong with what is given is told as a refusal, unless the system does not say which
interfaces there are. -/
theorem ofDraft_complaint {e : Failure} (h : r.complaint? c = some e) : e.OfDraft := by
  cases r with
  | addRule d => exact Client.ofDraft_admitRule (failure?_eq_some_iff.mp h)
  | setDefaults d =>
      obtain ⟨refusal, -, rfl⟩ := Option.map_eq_some_iff.mp h
      exact .refused refusal
  | importPolicy d =>
      rcases Option.or_eq_some_iff.mp h with hdefaults | ⟨-, hrules⟩
      · obtain ⟨refusal, -, rfl⟩ := Option.map_eq_some_iff.mp hdefaults
        exact .refused refusal
      · obtain ⟨⟨rule, place⟩, -, hrule⟩ := List.exists_of_findSome?_eq_some hrules
        obtain ⟨f, hf, rfl⟩ := Option.map_eq_some_iff.mp hrule
        exact (Client.ofDraft_admitRule (failure?_eq_some_iff.mp hf)).inRule _
  | _ => cases h

theorem exists_task_of_deed (c : Client) (h : r.deed? = some deed) :
    ∃ task, r.task? c = some (deed, task) := by
  cases r <;> cases h <;> exact ⟨_, rfl⟩

end Request

/-! ## Before the lock -/

/-- Whether the lock is had does not depend on the time. -/
theorem failure?_acquire_later (lock : ChangeLock) (s : Site) :
    failure? (Lockable.acquire lock s.later) = failure? (Lockable.acquire lock s) := by
  show failure? (Site.acquire lock s.later) = failure? (Site.acquire lock s)
  obtain ⟨ledger, mayWrite, ⟨fault, present, held⟩, programs, handOffs, now, clock⟩ := s
  cases fault with
  | some fault => rfl
  | none => cases held <;> rfl

/-- The lock fails in its own ways. -/
theorem Site.isLockFailure_of_acquire {lock : ChangeLock} {s : Site} {e : Failure}
    (h : Lockable.acquire lock s = .error e) : e.isLockFailure = true := by
  change Site.acquire lock s = .error e at h
  unfold Site.acquire at h
  split at h
  · cases h
    rfl
  split at h <;> cases h
  rfl

/-- An obstacle before the lock is one of three kinds. -/
theorem Request.obstacle?_eq_some {c : Client} {deed : Client.Deed} {r : Request} {s : Site}
    {e : Failure} (h : r.obstacle? c deed s = some e) :
    (Operation.run (c.authorize deed) s).1 = .error e ∨ e.OfDraft ∨ e.isLockFailure = true := by
  rcases Option.or_eq_some_iff.mp h with hmay | ⟨-, h⟩
  · exact Or.inl (failure?_eq_some_iff.mp hmay)
  rcases Option.or_eq_some_iff.mp h with hgiven | ⟨-, hlock⟩
  · exact Or.inr (Or.inl (ofDraft_complaint hgiven))
  · exact Or.inr (Or.inr (Site.isLockFailure_of_acquire (failure?_eq_some_iff.mp hlock)))

theorem Site.free_of_acquire {lock : ChangeLock} {s s' : Site}
    (h : Lockable.acquire lock s = .ok s') : s.lock.held = false := by
  change Site.acquire lock s = .ok s' at h
  unfold Site.acquire at h
  split at h
  · cases h
  split at h
  · cases h
  · rename_i hfree
    simpa using hfree

namespace Client

open Operation

variable {c : Client} {s : Site} {r : Request} {deed : Deed}
  {task : Except Failure (Operation Site r.Result)}

/-- Where there is an obstacle, the request fails with it, and nothing but time has passed. -/
theorem run_guarded_of_obstacle (h : r.task? c = some (deed, task)) {e : Failure}
    (he : r.obstacle? c deed s = some e) :
    Operation.run (c.guarded deed task) s = (.error e, s.later) := by
  unfold Request.obstacle? at he
  rw [Request.complaint?_eq h, ← failure?_acquire_later] at he
  have hlater := run_authorize_snd (c := c) deed s
  unfold guarded
  cases hmay : Operation.run (c.authorize deed) s with
  | mk outcome s' =>
      rw [hmay] at he hlater
      obtain rfl : s' = s.later := hlater
      cases outcome with
      | error f =>
          obtain rfl : f = e := Option.some.inj he
          exact run_bind_error hmay
      | ok _ =>
          rw [run_bind_ok hmay]
          cases task with
          | error f =>
              obtain rfl : f = e := Option.some.inj he
              rfl
          | ok body =>
              have hacquire : Lockable.acquire c.lock s.later = .error e :=
                failure?_eq_some_iff.mp he
              show Operation.run (underLock c.lock body) s.later = _
              rw [run_underLock, hacquire]

/-- Where there is none, the request is carried out with the lock held. -/
theorem run_guarded_of_none (h : r.task? c = some (deed, task))
    (hnone : r.obstacle? c deed s = none) :
    ∃ body, task = .ok body ∧ s.lock.held = false ∧
      Operation.run (c.guarded deed task) s =
        ((Operation.run body s.later.locked).1,
          Lockable.release c.lock (Operation.run body s.later.locked).2) := by
  unfold Request.obstacle? at hnone
  rw [Request.complaint?_eq h, ← failure?_acquire_later] at hnone
  have hlater := run_authorize_snd (c := c) deed s
  unfold guarded
  cases hmay : Operation.run (c.authorize deed) s with
  | mk outcome s' =>
      rw [hmay] at hnone hlater
      obtain rfl : s' = s.later := hlater
      cases outcome with
      | error f => cases hnone
      | ok _ =>
          cases task with
          | error f => cases hnone
          | ok body =>
              obtain ⟨held, hacquire⟩ : ∃ held, Lockable.acquire c.lock s.later = .ok held :=
                failure?_eq_none_iff.mp hnone
              obtain rfl := Site.eq_locked_of_acquire hacquire
              refine ⟨body, rfl, Site.free_of_acquire (s := s.later) hacquire, ?_⟩
              rw [run_bind_ok hmay]
              show Operation.run (underLock c.lock body) s.later = _
              rw [run_underLock, hacquire]

/-! ## With the lock -/

/-- A transaction that writes, and after which nothing fails, leaves the ledger as it was if it
fails itself. -/
theorem ledger_eq_of_transact_error {α β : Type} {t : Site → Ledger.Transaction α}
    {k : α → Operation Site β} (hk : ∀ a, NeverFails (k a)) {e : Failure}
    (h : (Operation.run (c.transact t >>= k) s).1 = .error e) :
    (Operation.run (c.transact t >>= k) s).2.ledger = s.ledger := by
  rcases run_transact_cases (c := c) t s with ⟨f, hfail⟩ | ⟨-, a, l, -, hdone⟩
  · rw [run_bind_error hfail]
    rfl
  · rw [run_bind_ok hdone] at h
    exact (hk a _ e h).elim

/-- Whatever fails a change once it has the lock, the ledger is as it was. -/
theorem ledger_eq_of_task_error (h : r.task? c = some (deed, task)) {body : Operation Site r.Result}
    (hbody : task = .ok body) {p : Policy} (hp : s.ledger.Holds p) {e : Failure}
    (he : (Operation.run body s).1 = .error e) :
    (Operation.run body s).2.ledger = s.ledger := by
  have hloading {e : Failure} (hfail : (Operation.run c.loading s).1 = .error e) :
      (Operation.run c.loading s).2.ledger = s.ledger := by
    rcases run_loading_cases (c := c) hp with ⟨f, after, hrun, hledger, -⟩ | ⟨journal, hrun, -⟩
    · rw [hrun]
      exact hledger
    · rw [hrun] at hfail
      cases hfail
  refine Request.forall_task (Q := fun _ body => ∀ e, (Operation.run body s).1 = .error e →
      (Operation.run body s).2.ledger = s.ledger) (fun d r _ => ?_) (fun id => ?_)
    (fun d defaults _ => ?_) (fun d p _ => ?_) ?_ h hbody e he
  · exact fun _ => ledger_eq_of_transact_error fun id => neverFails_noted _ _ _ _
  · refine fun _ => ledger_eq_of_transact_error fun found => ?_
    cases found with
    | false => exact failsOnly_pure false
    | true => exact neverFails_noted _ _ _ _
  · exact fun _ => ledger_eq_of_transact_error fun _ => neverFails_noted _ _ _ _
  · exact fun _ => ledger_eq_of_transact_error fun ids => neverFails_noted _ _ _ _
  · exact fun _ => hloading

/-- Whatever is done under the lock, the lock stays as it is. -/
theorem lock_task (h : r.task? c = some (deed, task)) {body : Operation Site r.Result}
    (hbody : task = .ok body) (s : Site) : (Operation.run body s).2.lock = s.lock := by
  have hkeeps : Keeps (Site.Around s.ledger.users s.lock) body := keeps_around_task h hbody
  exact (hkeeps.run ⟨rfl, rfl⟩).2

end Client

/-- A request that changes something meets its obstacles in order, and fails with the first one, and
then nothing but time has passed; where there is none, only the ledger or the loader can still fail
it.  Whatever fails it, on any site that clients can come to, every table and every count of the
ledger is as it was before, and the lock is as free or as held as it was. -/
theorem failed_changes_leave_no_trace {s : Site} (hs : s.Reachable) (c : Client) {r : Request}
    {deed : Client.Deed} (hdeed : r.deed? = some deed) :
    let outcome := Operation.run (r.operation c) s
    (∀ e, outcome.1 = .error e → outcome.2.ledger = s.ledger ∧
      outcome.2.lock.held = s.lock.held ∧ outcome.2.lock.fault = s.lock.fault) ∧
    (∀ e, r.obstacle? c deed s = some e → outcome = (.error e, s.later)) ∧
    (r.obstacle? c deed s = none → ∀ e, outcome.1 = .error e → r.Meets e) := by
  obtain ⟨task, htask⟩ := Request.exists_task_of_deed c hdeed
  rw [Request.operation_eq_guarded htask]
  refine ⟨fun e he => ?_, fun e => Client.run_guarded_of_obstacle htask, fun hnone e he => ?_⟩
  · cases hobstacle : r.obstacle? c deed s with
    | some f =>
        rw [Client.run_guarded_of_obstacle htask hobstacle]
        exact ⟨rfl, rfl, rfl⟩
    | none =>
        obtain ⟨body, hbody, hfree, hrun⟩ := Client.run_guarded_of_none htask hobstacle
        obtain ⟨p, hp, -⟩ := hs.kept
        have hlock := Client.lock_task htask hbody s.later.locked
        rw [hrun] at he ⊢
        refine ⟨Client.ledger_eq_of_task_error (s := s.later.locked) htask hbody hp he,
          hfree.symm, ?_⟩
        show (Operation.run body s.later.locked).2.lock.fault = _
        rw [hlock]
        rfl
  · obtain ⟨body, hbody, -, hrun⟩ := Client.run_guarded_of_none htask hnone
    rw [hrun] at he
    exact Client.failsOnly_task htask hbody _ e he

/-- A new site where the loader takes no script. -/
def stubbornSite : Site :=
  { newSite with programs := fun _ => .ok (.exited 1, .empty) }

/-- The script has been handed over when the loader fails; still nothing is noted, and the lock is
free. -/
theorem stubbornSite_apply_leaves_no_trace :
    stubbornSite.Reachable ∧ Request.apply.deed? = some .applyRuleset ∧
      ∃ e, (Operation.run (Request.apply.operation rootClient) stubbornSite).1 = .error e ∧
        (Operation.run (Request.apply.operation rootClient) stubbornSite).2.ledger =
          stubbornSite.ledger ∧
        (Operation.run (Request.apply.operation rootClient) stubbornSite).2.lock.held = false := by
  have hreachable : stubbornSite.Reachable := .new rfl
  have hdeed : Request.apply.deed? = some .applyRuleset := rfl
  have hfails : failure? (Operation.run (Request.apply.operation rootClient) stubbornSite).1 =
      some (.loader " exited with exit status: 1" none (some 1)) := by
    decide +kernel
  have hfail := failure?_eq_some_iff.mp hfails
  obtain ⟨hledger, hheld, -⟩ :=
    (failed_changes_leave_no_trace hreachable rootClient hdeed).1 _ hfail
  exact ⟨hreachable, hdeed, _, hfail, hledger, hheld⟩

end PacketPolicy
