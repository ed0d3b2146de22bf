import PacketPolicy.Proofs.Ledger.Refinement
import PacketPolicy.Proofs.Session.Runs
import PacketPolicy.Session.Operations

/-!
# Operations in time

What becomes of the steps of a client whose transactions are all in time.

* `Client.InTime` -- no transaction of the client on the site is late;
* `run_consult`, `run_transact`, `run_transact_fault` -- transactions as steps;
* `run_note` -- an entry of the journal, which succeeds in any case;
* `run_authorize`, `Site.acquire_free` -- a client that may do something and finds the lock free;
* `run_exportPolicy`, `run_renderScript` -- reading a policy.
-/

namespace PacketPolicy

open Ledger (Deadline)
open Ledger.Transaction

/-- No transaction of the client on the site is late. -/
structure Client.InTime (c : Client) (s : Site) : Prop where
  budget : c.budget ≠ .zero
  clock : ∀ looks ∈ s.clock, looks = none

/-- The site after a transaction, apart from what the transaction does to the ledger. -/
def Site.later (s : Site) : Site :=
  { s with clock := s.clock.tail }

/-- The site with the lock held. -/
def Site.locked (s : Site) : Site :=
  { s with lock := { s.lock with held := true, present := true } }

theorem Site.acquire_free {s : Site} (hopenable : s.lock.fault = none)
    (hfree : s.lock.held = false) (lock : ChangeLock) :
    Lockable.acquire lock s = .ok s.locked := by
  show Site.acquire lock s = _
  unfold Site.acquire Site.locked
  rw [hopenable, hfree]
  rfl

namespace Client

open Operation

variable {c : Client} {s : Site} {α : Type}

theorem InTime.untimed (h : c.InTime s) : (s.deadline c.budget).Untimed := by
  unfold Site.deadline
  rw [if_neg h.budget]
  show s.clock.head?.join = none
  cases hclock : s.clock with
  | nil => rfl
  | cons looks rest => exact h.clock looks (by simp [hclock])

/-- Whoever is in time is in time on every site with no other clock. -/
theorem InTime.of_clock {s' : Site} (h : c.InTime s)
    (hclock : ∀ looks ∈ s'.clock, looks ∈ s.clock) :
    c.InTime s' :=
  ⟨h.budget, fun looks hlooks => h.clock looks (hclock looks hlooks)⟩

theorem InTime.later (h : c.InTime s) : c.InTime s.later :=
  h.of_clock fun _ hlooks => List.mem_of_mem_tail hlooks

/-! ## Transactions as steps -/

theorem run_consult {t : Site → Ledger.Transaction α} {x : Except Ledger.Fault α} (h : c.InTime s)
    (ht : Reads (t s) s.ledger x) :
    Operation.run (c.consult t) s = (x.mapError .ledger, s.later) := by
  show ((Ledger.Transaction.commit (t s) (s.deadline c.budget) s.ledger).1, s.later) = _
  rw [commit_of_reads_untimed ht h.untimed]

theorem run_transact {t : Site → Ledger.Transaction α} {a : α} {l : Ledger} (h : c.InTime s)
    (hwrite : s.mayWrite = true) (ht : Yields (t s) s.ledger (.ok (a, l))) :
    Operation.run (c.transact t) s = (.ok a, { s.later with ledger := l }) := by
  unfold Client.transact
  rw [run_step, commit_eq_of_untimed ht h.untimed]
  dsimp only
  rw [if_pos hwrite]
  rfl

theorem run_transact_fault {t : Site → Ledger.Transaction α} {fault : Ledger.Fault}
    (h : c.InTime s) (hwrite : s.mayWrite = true) (ht : Yields (t s) s.ledger (.error fault)) :
    Operation.run (c.transact t) s = (.error (.ledger fault), s.later) := by
  unfold Client.transact
  rw [run_step, commit_eq_of_untimed ht h.untimed]
  dsimp only
  rw [if_pos hwrite]
  rfl

/-- An entry of the journal is no more than that, whether it can be made or not. -/
theorem run_note (hwrite : s.mayWrite = true) (kind : Event.Kind) (object : String)
    (details : Json.Value) :
    ∃ journal, Operation.run (c.note kind object details) s =
      (.ok (), { s.later with ledger := { s.ledger with journal } }) := by
  let e : Event := { timestamp := s.now, actor := c.actor, kind, object, details }
  obtain ⟨journal, hjournal⟩ := Ledger.run_append_snd (s.deadline c.budget)
    (s.deadline c.budget) e s.ledger
  refine ⟨journal, ?_⟩
  change (Ledger.Transaction.commit (Ledger.append e) (s.deadline c.budget) s.ledger).2 = _
    at hjournal
  unfold Client.note
  rw [run_catch]
  unfold Client.transact
  rw [run_step]
  dsimp only
  rw [if_pos hwrite]
  -- whether the entry was made or not, the ledger is as the lemma says and the outcome is dropped
  cases hcommit : Ledger.Transaction.commit (Ledger.append e) (s.deadline c.budget) s.ledger with
  | mk outcome l =>
      rw [hcommit] at hjournal
      obtain rfl : l = { s.ledger with journal } := hjournal
      cases outcome with
      | ok _ => rfl
      | error _ => rfl

/-! ## What the client may do -/

theorem run_authorize {role : Role} (h : c.InTime s)
    (hrole : Ledger.roleOf c.actor s.ledger = .ok (some (Named.name role))) {deed : Deed}
    (hcovers : role.covers deed.required = true) :
    Operation.run (c.authorize deed) s = (.ok (), s.later) := by
  have hlook : Operation.run (c.consult fun _ => Ledger.lookUpRole c.actor) s =
      (.ok (some (Named.name role)), s.later) := by
    rw [run_consult h (reads_query _ _), hrole]
    rfl
  have hfound : Operation.run (c.roleFor deed.wording) s = (.ok role, s.later) := by
    unfold roleFor
    rw [run_bind_ok hlook]
    dsimp only
    rw [Named.ofName?_name]
    rfl
  unfold authorize
  rw [run_bind_ok hfound, if_pos hcovers]
  rfl

/-! ## Reading a policy -/

variable {p : Policy}

theorem run_defaults (h : c.InTime s) (hp : s.ledger.Holds p) :
    Operation.run c.defaults s = (.ok p.defaults, s.later) := by
  obtain ⟨highest, heq, -⟩ := hp.eq_withTables
  have hreads := Ledger.reads_loadDefaults (l := s.ledger)
    (Ledger.PolicyTables.loaded_ofPolicy p highest)
  rw [← heq] at hreads
  unfold Client.defaults
  rw [run_bind_ok (run_consult (x := .ok (some p.defaults)) h hreads)]
  rfl

theorem run_rules (onlyEnabled : Bool) (h : c.InTime s) (hp : s.ledger.Holds p) :
    Operation.run (c.rules onlyEnabled) s = (.ok (p.selected onlyEnabled), s.later) := by
  obtain ⟨highest, heq, hnumbered⟩ := hp.eq_withTables
  have hreads := Ledger.reads_list (l := s.ledger) (t := .ofPolicy p highest) onlyEnabled
  rw [← heq, Ledger.PolicyTables.listed_ofPolicy onlyEnabled hnumbered] at hreads
  exact run_consult (t := fun _ => Ledger.list onlyEnabled) h hreads

theorem run_exportPolicy (h : c.InTime s) (hp : s.ledger.Holds p) :
    Operation.run c.exportPolicy s = (.ok p, s.later.later) := by
  unfold Client.exportPolicy
  rw [run_bind_ok (run_defaults h hp), run_bind_ok (run_rules false h.later hp)]
  rfl

theorem run_renderScript (h : c.InTime s) (hp : s.ledger.Holds p) :
    Operation.run c.renderScript s =
      (.ok (script p.defaults (p.selected true)), s.later.later) := by
  unfold Client.renderScript
  rw [run_bind_ok (run_defaults h hp), run_bind_ok (run_rules true h.later hp)]
  rfl

end Client
end PacketPolicy
