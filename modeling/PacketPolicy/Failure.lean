import PacketPolicy.Host.Fault
import PacketPolicy.Json.Decode
import PacketPolicy.Ledger.Fault
import PacketPolicy.Policy.Complaint
import PacketPolicy.Time.Span

namespace PacketPolicy

/-!
# Failures

Everything that an operation can end with other than its result.

* `Failure.message` -- what the user is told;
* `Failure.field?` -- the field that a draft was refused for;
* `Failure.isLockFailure` -- whether the change lock is what failed;
* `Failure.inRule` -- a failure at one rule of a list.
-/

/-- Why an operation has no result. -/
inductive Failure where
  /-- A file or a program could not be used. -/
  | host (fault : Host.Fault)
  /-- A text or a value is no document of the wanted shape. -/
  | document (problem : Json.Problem)
  /-- A draft is not acceptable. -/
  | refused (refusal : Refusal)
  /-- The ledger refused; the transaction left nothing behind. -/
  | ledger (fault : Ledger.Fault)
  /-- The transaction took longer than its budget and left nothing behind. -/
  | overdue (budget : Span)
  /-- The tables could not be brought up to date. -/
  | migration (version : Nat) (fault : Ledger.Fault)
  /-- The lock could not be taken. -/
  | lock (path : String) (reason : String)
  /-- The lock was held by somebody else for as long as one was ready to wait. -/
  | lockBusy (path : String) (waited : Span)
  /-- The user may not do this. -/
  | forbidden (actor : String) (deed : String)
  /-- The packet filter did not take the script. -/
  | loader (reason : String) (report : Option String) (exitCode : Option Nat)
  /-- Something is as it should never be. -/
  | internal (reason : String)
deriving DecidableEq, Repr, Inhabited

namespace Failure

/-- The wording of a problem with a document. -/
def problemText : Json.Problem → String
  | .mismatch m => m.message
  | .text .malformed => "malformed document"
  | .text .incomplete => "incomplete document"

/-- What the user is told. -/
def message : Failure → String
  | host fault => "I/O error: " ++ fault.message
  | document problem => "JSON error: " ++ problemText problem
  | refused r => "Validation error in " ++ r.field ++ ": " ++ r.complaint.message
  | ledger fault => "Database error: " ++ fault.message
  | overdue budget =>
      "Database deadline of " ++ budget.text ++ " exceeded, transaction rolled back"
  | migration version fault =>
      "Migration " ++ toString version ++ " failed: " ++ fault.message
  | lock path reason => "Lock error on " ++ path ++ ": " ++ reason
  | lockBusy path waited => "Timed out after " ++ waited.text ++ " waiting for lock " ++ path
  | forbidden actor deed => "Permission denied: " ++ actor ++ " may not " ++ deed
  | loader reason _ _ => "nftables error: " ++ reason
  | internal reason => "Internal error: " ++ reason

/-- The field that a draft was refused for. -/
def field? : Failure → Option String
  | refused r => some r.field
  | _ => none

/-- Whether the change lock is what failed. -/
def isLockFailure : Failure → Bool
  | lock _ _ => true
  | lockBusy _ _ => true
  | _ => false

/-- The failure at the rule at a place, counted from one, of a list; only refusals tell the
place. -/
def inRule (place : Nat) : Failure → Failure
  | refused r => .refused (r.inRule place)
  | e => e

end Failure
end PacketPolicy
