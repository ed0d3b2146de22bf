import PacketPolicy.Ledger.Access

/-!
# Transactions under deadlines

What a transaction does is decided by the ledger that it begins with, except that it may be
late.  `Yields t l o` says so of one ledger `l`: unless the time runs out, the transaction `t`
ends with `o`, and when the clock cannot run out it does end with `o`.

* `yields_pure`, `yields_bind_ok`, `yields_bind_error`, `yields_statement` -- how the outcomes of
  statements make up that of a transaction;
* `commit_of_yields` -- a transaction takes effect as a whole or not at all;
* `commit_eq_of_untimed` -- without a clock there is no lateness.

Deadlines therefore need to be looked at nowhere else.
-/

namespace PacketPolicy
namespace Ledger

/-- Whether there is always time left. -/
def Deadline.Untimed (d : Deadline) : Prop :=
  d.looks = none

namespace Deadline

@[simp]
theorem distant_untimed (budget : Span) : (distant budget).Untimed := rfl

theorem Untimed.not_isOver {d : Deadline} (h : d.Untimed) : d.isOver = false := by
  unfold Untimed at h
  simp [isOver, h]

theorem Untimed.afterLook {d : Deadline} (h : d.Untimed) : d.afterLook = d := by
  obtain ⟨budget, looks⟩ := d
  unfold Untimed at h
  subst h
  rfl

@[simp]
theorem afterLook_budget (d : Deadline) : d.afterLook.budget = d.budget := rfl

end Deadline

namespace Transaction

variable {α β : Type}

/-- The end of a transaction that is not late: its result and its copy of the ledger. -/
abbrev Outcome (α : Type) : Type :=
  Except Fault (α × Ledger)

/-- The outcome under a deadline. -/
def Outcome.under (d : Deadline) : Outcome α → Except Failure (α × Work)
  | .ok (a, l) => .ok (a, ⟨l, d⟩)
  | .error fault => .error (.ledger fault)

/-- Begun with the ledger `l`, the transaction `t` ends with `o` unless it is late. -/
structure Yields (t : Transaction α) (l : Ledger) (o : Outcome α) : Prop where
  /-- Lateness is the only other end, and the budget is what it reports. -/
  timed : ∀ d : Deadline, t ⟨l, d⟩ = .error (.overdue d.budget) ∨
    ∃ rest : Deadline, rest.budget = d.budget ∧ t ⟨l, d⟩ = o.under rest
  untimed : ∀ d : Deadline, d.Untimed → t ⟨l, d⟩ = o.under d

/-! ## Steps -/

theorem yields_pure (a : α) (l : Ledger) : Yields (pure a) l (.ok (a, l)) where
  timed d := Or.inr ⟨d, rfl, rfl⟩
  untimed _ _ := rfl

theorem bind_apply (t : Transaction α) (k : α → Transaction β) (w : Work) :
    (t >>= k) w =
      match t w with
      | .ok (a, w) => k a w
      | .error e => .error e := by
  change (t w >>= fun p => k p.1 p.2) = _
  cases t w <;> rfl

/-- After a success the rest of the transaction goes on with the ledger that was left. -/
theorem yields_bind_ok {t : Transaction α} {k : α → Transaction β} {l l' : Ledger} {a : α}
    {o : Outcome β} (ht : Yields t l (.ok (a, l'))) (hk : Yields (k a) l' o) :
    Yields (t >>= k) l o where
  timed d := by
    rw [bind_apply]
    rcases ht.timed d with hlate | ⟨rest, hbudget, hrun⟩
    · exact Or.inl (by rw [hlate])
    · rw [hrun]
      show k a ⟨l', rest⟩ = _ ∨ ∃ r : Deadline, r.budget = d.budget ∧ k a ⟨l', rest⟩ = _
      rw [← hbudget]
      exact hk.timed rest
  untimed d hd := by
    rw [bind_apply, ht.untimed d hd]
    exact hk.untimed d hd

/-- A fault ends the transaction. -/
theorem yields_bind_error {t : Transaction α} {k : α → Transaction β} {l : Ledger} {fault : Fault}
    (ht : Yields t l (.error fault)) : Yields (t >>= k) l (.error fault) where
  timed d := by
    rw [bind_apply]
    rcases ht.timed d with hlate | ⟨rest, hbudget, hrun⟩
    · exact Or.inl (by rw [hlate])
    · exact Or.inr ⟨rest, hbudget, by rw [hrun]; rfl⟩
  untimed d hd := by
    rw [bind_apply, ht.untimed d hd]
    rfl

theorem look_apply (w : Work) :
    look w =
      if w.deadline.isOver then .error (.overdue w.deadline.budget)
      else .ok ((), { w with deadline := w.deadline.afterLook }) := rfl

theorem statement_apply (f : Ledger → Except Fault (α × Ledger)) (l : Ledger) (d : Deadline) :
    statement f ⟨l, d⟩ =
      if d.isOver then .error (.overdue d.budget)
      else
        match f l with
        | .ok (a, l) => .ok (a, ⟨l, d.afterLook⟩)
        | .error fault => .error (d.afterLook.classify fault) := by
  unfold statement
  rw [bind_apply]
  by_cases hover : d.isOver
  · simp [look_apply, hover]
  · cases hrun : f l with
    | ok p => simp [look_apply, hover, hrun]
    | error fault => simp [look_apply, hover, hrun]

/-- One statement ends as its function says. -/
theorem yields_statement (f : Ledger → Except Fault (α × Ledger)) (l : Ledger) :
    Yields (statement f) l (f l) where
  timed d := by
    rw [statement_apply]
    by_cases hover : d.isOver
    · exact Or.inl (if_pos hover)
    · rw [if_neg hover]
      cases f l with
      | ok p => exact Or.inr ⟨d.afterLook, rfl, rfl⟩
      | error fault =>
          by_cases hlate : d.afterLook.isOver
          · left
            simp [Deadline.classify, hlate]
          · refine Or.inr ⟨d.afterLook, rfl, ?_⟩
            simp [Deadline.classify, hlate, Outcome.under]
  untimed d hd := by
    rw [statement_apply, hd.not_isOver, hd.afterLook]
    cases f l <;> simp [Deadline.classify, hd.not_isOver, Outcome.under]

/-- One statement that changes nothing. -/
theorem yields_query (f : Ledger → Except Fault α) (l : Ledger) :
    Yields (query f) l ((f l).map fun a => (a, l)) :=
  yields_statement _ l

/-! ## Whole transactions -/

/-- What is seen of the end of a transaction: its outcome, and the ledger it leaves behind
when it began with `l`. -/
def Outcome.settled (l : Ledger) : Outcome α → Except Failure α × Ledger
  | .ok (a, l') => (.ok a, l')
  | .error fault => (.error (.ledger fault), l)

theorem whole_apply (t : Transaction α) (w : Work) :
    t.whole w =
      if w.deadline.isOver then .error (.overdue w.deadline.budget)
      else
        match t { w with deadline := w.deadline.afterLook } with
        | .error e => .error e
        | .ok (a, w') =>
            if w'.deadline.isOver then .error (.overdue w'.deadline.budget)
            else .ok (a, { w' with deadline := w'.deadline.afterLook }) := by
  unfold whole
  rw [bind_apply, look_apply]
  by_cases hover : w.deadline.isOver
  · simp [hover]
  · simp only [hover, Bool.false_eq_true, if_false]
    rw [bind_apply]
    cases t { w with deadline := w.deadline.afterLook } with
    | error e => rfl
    | ok p =>
        obtain ⟨a, w'⟩ := p
        show (look >>= fun _ => pure a) w' = _
        rw [bind_apply, look_apply]
        by_cases hlate : w'.deadline.isOver
        · simp [hlate]
        · simp only [hlate, Bool.false_eq_true, if_false]
          rfl

/-- A transaction is late and leaves the ledger as it was, or it is settled as a whole. -/
theorem commit_of_yields {t : Transaction α} {l : Ledger} {o : Outcome α} (h : Yields t l o)
    (d : Deadline) :
    t.commit d l = (.error (.overdue d.budget), l) ∨ t.commit d l = o.settled l := by
  unfold commit
  rw [whole_apply]
  by_cases hover : d.isOver
  · left
    rw [if_pos hover]
  · rw [if_neg hover]
    -- past the look in front, only the one at the end can still be late
    rcases h.timed d.afterLook with hlate | ⟨rest, hbudget, hrun⟩
    · left
      rw [hlate]
      rfl
    · rw [hrun]
      cases o with
      | error fault => exact Or.inr rfl
      | ok p =>
          by_cases hlate : rest.isOver
          · left
            simp only [Outcome.under, hlate, if_true]
            rw [hbudget, Deadline.afterLook_budget]
          · right
            simp [Outcome.under, Outcome.settled, hlate]

/-- Without a clock the transaction is settled as a whole. -/
theorem commit_eq_of_untimed {t : Transaction α} {l : Ledger} {o : Outcome α} (h : Yields t l o)
    {d : Deadline} (hd : d.Untimed) : t.commit d l = o.settled l := by
  unfold commit
  rw [whole_apply, hd.not_isOver, hd.afterLook, h.untimed d hd]
  cases o <;> simp [Outcome.under, Outcome.settled, hd.not_isOver]

end Transaction
end Ledger
end PacketPolicy
