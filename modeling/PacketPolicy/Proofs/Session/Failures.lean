import PacketPolicy.Proofs.Session.Changes

/-!
# What operations fail with

Each part of an operation has failures of its own kind, so that a failure tells how far the
operation has come.  Transactions fail only for reasons of the ledger, and the loader only for its
own; that a user may not do something is found out before the lock is taken, and never after that.

* `Failure.OfLedger`, `Failure.OfLoader` -- the two kinds that are met under the lock;
* `Transaction.Plain` -- a transaction whose failures are the ledger's; `plain_bind`,
  `plain_statement`, ... -- all transactions are plain;
* `Operation.FailsOnly` -- an operation whose failures are of one kind; `failsOnly_bind`, ... -- it
  passes from the parts to the whole;
* `Request.Meets`, `failsOnly_task` -- what a change can fail with once it has the lock.
-/

namespace PacketPolicy

/-- A fault of the ledger, or lateness. -/
inductive Failure.OfLedger : Failure → Prop where
  | fault (f : Ledger.Fault) : OfLedger (.ledger f)
  | late (budget : Span) : OfLedger (.overdue budget)

/-- The loader cannot be run, or does not take the script. -/
inductive Failure.OfLoader : Failure → Prop where
  | host (fault : Host.Fault) : OfLoader (.host fault)
  | report (reason : String) (report : Option String) (exitCode : Option Nat) :
      OfLoader (.loader reason report exitCode)

/-! ## Transactions -/

namespace Ledger

namespace Transaction

variable {α β : Type}

/-- Wherever it begins, the transaction fails for reasons of the ledger only. -/
def Plain (t : Transaction α) : Prop :=
  ∀ w e, t w = .error e → e.OfLedger

theorem plain_pure (a : α) : Plain (pure a) := by
  intro w e h
  cases h

theorem plain_bind {t : Transaction α} {k : α → Transaction β} (ht : Plain t)
    (hk : ∀ a, Plain (k a)) : Plain (t >>= k) := by
  intro w e h
  rw [bind_apply] at h
  cases hrun : t w with
  | error f =>
      rw [hrun] at h
      obtain rfl : f = e := Except.error.inj h
      exact ht w f hrun
  | ok p =>
      rw [hrun] at h
      exact hk p.1 p.2 e h

theorem plain_look : Plain look := by
  intro w e h
  rw [look_apply] at h
  split at h
  · obtain rfl := Except.error.inj h
    exact .late _
  · cases h

theorem ofLedger_classify (d : Deadline) (fault : Fault) : (d.classify fault).OfLedger := by
  unfold Deadline.classify
  split
  · exact .late _
  · exact .fault fault

theorem plain_statement (f : Ledger → Except Fault (α × Ledger)) : Plain (statement f) := by
  refine plain_bind plain_look fun _ w e h => ?_
  split at h
  · cases h
  · obtain rfl := Except.error.inj h
    exact ofLedger_classify _ _

theorem plain_query (f : Ledger → Except Fault α) : Plain (query f) :=
  plain_statement _

theorem plain_each {f : α → Transaction Unit} (hf : ∀ a, Plain (f a)) (items : List α) :
    Plain (each f items) := by
  induction items with
  | nil => exact plain_pure ()
  | cons a rest ih => exact plain_bind (hf a) fun _ => ih

theorem Plain.commit {t : Transaction α} (h : Plain t) {d : Deadline} {l : Ledger} {e : Failure}
    (hfail : (t.commit d l).1 = .error e) : e.OfLedger := by
  have hwhole : Plain t.whole :=
    plain_bind plain_look fun _ => plain_bind h fun _ => plain_bind plain_look fun _ =>
      plain_pure _
  unfold Transaction.commit at hfail
  cases hrun : t.whole ⟨l, d⟩ with
  | error f =>
      rw [hrun] at hfail
      obtain rfl : f = e := Except.error.inj hfail
      exact hwhole _ f hrun
  | ok p =>
      rw [hrun] at hfail
      cases hfail

end Transaction

open Transaction

theorem plain_storeRule (r : Rule) : Plain (storeRule r) := by
  refine plain_bind (plain_statement _) fun id => ?_
  refine plain_bind (plain_each (fun _ => plain_statement _) _) fun _ => ?_
  refine plain_bind (plain_each (fun _ => plain_statement _) _) fun _ => ?_
  refine plain_bind (plain_each (fun _ => plain_statement _) _) fun _ => ?_
  refine plain_bind (plain_each (fun _ => plain_statement _) _) fun _ => ?_
  exact plain_pure id

theorem plain_storeRules (rules : List Rule) : Plain (storeRules rules) := by
  induction rules with
  | nil => exact plain_pure []
  | cons r rest ih =>
      exact plain_bind (plain_storeRule r) fun _ => plain_bind ih fun _ => plain_pure _

theorem plain_keepOnly (keep : Option Int64 → Bool) : Plain (keepOnly keep) :=
  plain_each (fun _ => plain_statement _) _

theorem plain_delete (id : Int64) : Plain (delete id) :=
  plain_bind (plain_keepOnly _) fun _ => plain_statement _

theorem plain_replaceAll (d : Defaults) (rules : List Rule) : Plain (replaceAll d rules) :=
  plain_bind (plain_statement _) fun _ => plain_bind (plain_keepOnly _) fun _ =>
    plain_bind (plain_statement _) fun _ => plain_storeRules rules

theorem plain_seedDefaults : Plain seedDefaults := by
  refine plain_bind (plain_query _) fun found => ?_
  cases found with
  | some d => exact plain_pure d
  | none => exact plain_bind (plain_statement _) fun _ => plain_pure _

theorem plain_complete (r : Rule) : Plain (complete r) :=
  plain_bind (plain_query _) fun _ => plain_bind (plain_query _) fun _ =>
    plain_bind (plain_query _) fun _ => plain_bind (plain_query _) fun _ => plain_pure _

theorem plain_completeAll (rules : List Rule) : Plain (completeAll rules) := by
  induction rules with
  | nil => exact plain_pure []
  | cons r rest ih =>
      exact plain_bind (plain_complete r) fun _ => plain_bind ih fun _ => plain_pure _

theorem plain_list (onlyEnabled : Bool) : Plain (list onlyEnabled) :=
  plain_bind (plain_query _) fun rules => plain_completeAll rules

end Ledger

/-! ## Operations -/

namespace Operation

variable {α β : Type} {P Q : Failure → Prop}

/-- On whatever site, the operation fails with failures of one kind only. -/
def FailsOnly (P : Failure → Prop) (o : Operation Site α) : Prop :=
  ∀ s e, (Operation.run o s).1 = .error e → P e

/-- The operation never fails. -/
abbrev NeverFails (o : Operation Site α) : Prop :=
  FailsOnly (fun _ => False) o

theorem FailsOnly.mono {o : Operation Site α} (h : FailsOnly P o) (hsub : ∀ e, P e → Q e) :
    FailsOnly Q o :=
  fun s e hfail => hsub e (h s e hfail)

theorem NeverFails.failsOnly {o : Operation Site α} (h : NeverFails o) : FailsOnly P o :=
  h.mono fun _ hfalse => hfalse.elim

theorem failsOnly_pure (a : α) : FailsOnly P (pure a : Operation Site α) := by
  intro s e h
  cases h

theorem failsOnly_step {f : Site → Except Failure α × Site}
    (h : ∀ s e, (f s).1 = .error e → P e) : FailsOnly P (.step f) :=
  h

theorem failsOnly_bind {o : Operation Site α} {k : α → Operation Site β} (ho : FailsOnly P o)
    (hk : ∀ a, FailsOnly P (k a)) : FailsOnly P (o >>= k) := by
  intro s e h
  cases hrun : Operation.run o s with
  | mk outcome s' =>
      cases outcome with
      | error f =>
          rw [run_bind_error hrun] at h
          obtain rfl : f = e := Except.error.inj h
          exact ho s f (by rw [hrun])
      | ok a =>
          rw [run_bind_ok hrun] at h
          exact hk a s' e h

/-- What is caught is no failure of the whole. -/
theorem failsOnly_catch {o : Operation Site α} {handle : Failure → Operation Site α}
    (hhandle : ∀ e, FailsOnly P (handle e)) : FailsOnly P (tryCatch o handle) := by
  intro s e h
  rw [run_catch] at h
  cases hrun : Operation.run o s with
  | mk outcome s' =>
      rw [hrun] at h
      cases outcome with
      | ok a => cases h
      | error f => exact hhandle f s' e h

end Operation

/-! ## Clients -/

/-- What a change can fail with once it has the lock: the ledger; and if it hands over a script,
the loader. -/
def Request.Meets (r : Request) (e : Failure) : Prop :=
  e.OfLedger ∨ r = .apply ∧ e.OfLoader

namespace Client

open Operation

variable {c : Client} {α : Type}

theorem failsOnly_consult {t : Ledger.Transaction α} (ht : t.Plain) :
    FailsOnly Failure.OfLedger (c.consult fun _ => t) :=
  failsOnly_step fun _ _ h => ht.commit h

theorem failsOnly_transact {t : Ledger.Transaction α} (ht : t.Plain) :
    FailsOnly Failure.OfLedger (c.transact fun _ => t) := by
  refine failsOnly_step fun s e h => ?_
  dsimp only at h
  cases hwrite : s.mayWrite with
  | true =>
      rw [if_pos hwrite] at h
      exact ht.commit h
  | false =>
      rw [if_neg (by simp [hwrite])] at h
      -- a failure that is not kept is one of the ledger instead
      unfold refusedWrite at h
      split at h <;> cases h
      · exact .late _
      · exact .fault _
      · exact .fault _

theorem failsOnly_handOff (task : Loader.Task) (text : String) :
    FailsOnly Failure.OfLoader (c.handOff task text) := by
  refine failsOnly_step fun s e h => ?_
  dsimp only at h
  split at h
  · cases h
    exact .host _
  split at h
  · cases h
    exact .host _
  · unfold Loader.outcome at h
    split at h <;> cases h
    exact .report _ _ _

theorem neverFails_note (kind : Event.Kind) (object : String) (details : Json.Value) :
    NeverFails (c.note kind object details) :=
  failsOnly_catch fun _ => failsOnly_pure _

/-- What is done with an answer that is there only has to be noted. -/
theorem neverFails_noted (kind : Event.Kind) (object : String) (details : Json.Value) (a : α) :
    NeverFails (c.note kind object details >>= fun _ => pure a) :=
  failsOnly_bind (neverFails_note kind object details) fun _ => failsOnly_pure a

theorem failsOnly_loading :
    FailsOnly (fun e => e.OfLedger ∨ e.OfLoader) c.loading := by
  have hledger {β : Type} {o : Operation Site β} (h : FailsOnly Failure.OfLedger o) :
      FailsOnly (fun e => e.OfLedger ∨ e.OfLoader) o :=
    h.mono fun _ => Or.inl
  have hdefaults : FailsOnly Failure.OfLedger c.defaults := by
    refine failsOnly_bind (failsOnly_consult (Ledger.Transaction.plain_query _)) fun found => ?_
    cases found with
    | some d => exact failsOnly_pure d
    | none => exact failsOnly_transact Ledger.plain_seedDefaults
  refine failsOnly_bind (hledger hdefaults) fun defaults => ?_
  refine failsOnly_bind (hledger (failsOnly_consult (Ledger.plain_list true))) fun rules => ?_
  refine failsOnly_bind ((failsOnly_handOff _ _).mono fun _ => Or.inr) fun _ => ?_
  exact (neverFails_noted _ _ _ _).failsOnly

variable {r : Request} {deed : Deed} {task : Except Failure (Operation Site r.Result)}
  {body : Operation Site r.Result}

/-- Once it has the lock, a change fails for reasons of the ledger or of the loader only. -/
theorem failsOnly_task (h : r.task? c = some (deed, task)) (hbody : task = .ok body) :
    FailsOnly r.Meets body := by
  have hstored {β γ : Type} {r : Request} {t : Ledger.Transaction β} {k : β → Operation Site γ}
      (ht : t.Plain) (hk : ∀ b, NeverFails (k b)) :
      FailsOnly r.Meets ((c.transact fun _ => t) >>= k) :=
    failsOnly_bind ((failsOnly_transact ht).mono fun _ => Or.inl) fun b => (hk b).failsOnly
  refine Request.forall_task (Q := fun r body => FailsOnly r.Meets body) (fun d r _ => ?_)
    (fun id => ?_) (fun d defaults _ => ?_) (fun d p _ => ?_) ?_ h hbody
  · exact hstored (Ledger.plain_storeRule r) fun id => neverFails_noted _ _ _ _
  · refine hstored (Ledger.plain_delete id) fun found => ?_
    cases found with
    | false => exact failsOnly_pure false
    | true => exact neverFails_noted _ _ _ _
  · exact hstored (Ledger.Transaction.plain_statement _) fun _ => neverFails_noted _ _ _ _
  · exact hstored (Ledger.plain_replaceAll p.defaults p.rules) fun _ => neverFails_noted _ _ _ _
  · exact failsOnly_loading.mono fun e he => he.imp_right fun hloader => ⟨rfl, hloader⟩

end Client
end PacketPolicy
