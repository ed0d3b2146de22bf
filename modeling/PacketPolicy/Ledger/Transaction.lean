import PacketPolicy.Failure
import PacketPolicy.Ledger.Table

namespace PacketPolicy
namespace Ledger

/-!
# Transactions

The ledger is only read and changed in transactions.  A transaction works on a copy of the
ledger, statement by statement, under a deadline; it takes effect as a whole when it comes
to its end in time, and otherwise leaves nothing behind.

* `Deadline` -- how long a transaction may take;
* `Transaction` -- a transaction in the making; `Transaction.statement` -- one statement;
* `Transaction.commit` -- the outcome of a transaction and the ledger afterwards.

The clock is looked at before a transaction begins, before each of its statements, at its
end, and when a statement fails: a fault that is noticed late counts as lateness.  How often
it can be looked at until the time is over is part of the deadline.
-/

/-- How long a transaction may take. -/
structure Deadline where
  /-- The time it has in all. -/
  budget : Span
  /-- How often the clock can be looked at while there is time left; none, if there always
  is. -/
  looks : Option Nat
deriving DecidableEq, Repr, Inhabited

namespace Deadline

/-- A deadline that is never reached. -/
def distant (budget : Span) : Deadline := ⟨budget, none⟩

/-- Without a budget the time is over at once; with one there is enough of it. -/
def ofBudget (budget : Span) : Deadline :=
  if budget = .zero then ⟨budget, some 0⟩ else distant budget

/-- The seconds that the clock can count. -/
def clockLimit : Nat := 9223372036854775807

/-- Whether the clock can never reach the deadline. -/
def isUnreachable (d : Deadline) : Bool :=
  clockLimit ≤ d.budget.seconds

/-- Whether the time is over. -/
def isOver (d : Deadline) : Bool :=
  d.looks == some 0

/-- The deadline after one look at the clock. -/
def afterLook (d : Deadline) : Deadline :=
  { d with looks := d.looks.map Nat.pred }

/-- What a fault means under a deadline. -/
def classify (d : Deadline) (fault : Fault) : Failure :=
  if d.isOver then .overdue d.budget else .ledger fault

end Deadline

/-- The copy of the ledger that a transaction works on, and its deadline. -/
structure Work where
  ledger : Ledger
  deadline : Deadline
deriving Repr, Inhabited

/-- A transaction in the making. -/
abbrev Transaction (α : Type) : Type :=
  StateT Work (Except Failure) α

namespace Transaction

/-- A look at the clock, which ends the transaction when the time is over. -/
def look : Transaction Unit := fun w =>
  if w.deadline.isOver then .error (.overdue w.deadline.budget)
  else .ok ((), { w with deadline := w.deadline.afterLook })

/-- One statement. -/
def statement {α : Type} (f : Ledger → Except Fault (α × Ledger)) : Transaction α := do
  look
  fun w =>
    match f w.ledger with
    | .ok (a, ledger) => .ok (a, { w with ledger })
    | .error fault => .error (w.deadline.classify fault)

/-- One statement that changes nothing. -/
def query {α : Type} (f : Ledger → Except Fault α) : Transaction α :=
  statement fun l => (f l).map fun a => (a, l)

/-- The whole transaction, from the look at the clock in front of it to the one at its end. -/
def whole {α : Type} (t : Transaction α) : Transaction α := do
  look
  let a ← t
  look
  return a

/-- The outcome of a transaction and the ledger afterwards. -/
def commit {α : Type} (t : Transaction α) (d : Deadline) (l : Ledger) : Except Failure α × Ledger :=
  match t.whole ⟨l, d⟩ with
  | .ok (a, w) => (.ok a, w.ledger)
  | .error e => (.error e, l)

end Transaction
end Ledger
end PacketPolicy
