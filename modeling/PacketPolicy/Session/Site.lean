import PacketPolicy.Host.Path
import PacketPolicy.Ledger.Access
import PacketPolicy.Loader.Command
import PacketPolicy.Session.Process

namespace PacketPolicy

/-!
# Sites

What the clients of one policy share: the ledger, the change lock, and the packet filter
behind the loader.

* `Site` -- the shared state;
* `Client` -- one of those who work on it;
* `Client.consult`, `Client.transact` -- transactions that read or write, as steps;
* `Client.handOff` -- a script for the loader.
-/

/-- A script that was handed to a program. -/
structure HandOff where
  program : String
  arguments : List String
  script : String
deriving DecidableEq, Repr, Inhabited

/-- Whether a program cannot be started because its name or an argument has the character
in it that ends texts for the system. -/
def HandOff.isBroken (h : HandOff) : Bool :=
  (h.program :: h.arguments).any Host.isBroken

/-- What a program does with a script: how it ends and what it reports, or why it cannot
be run. -/
abbrev Programs := HandOff → Except Host.Fault (ExitStatus × ByteArray)

/-- Why the change lock cannot be taken, whether or not somebody holds it. -/
inductive LockFault where
  | cannotOpen (fault : Host.Fault)
  /-- The system does not lock the file, for a reason in its own words. -/
  | cannotLock (words : String)
deriving DecidableEq, Repr, Inhabited

/-- The wording of a fault of the lock. -/
def LockFault.message : LockFault → String
  | .cannotOpen fault => "cannot open lock file: " ++ fault.message
  | .cannotLock words => "flock failed: " ++ words

/-- The file of the change lock. -/
structure LockFile where
  /-- Why it cannot be opened or locked. -/
  fault : Option LockFault
  /-- Whether it is there; it is created when somebody first opens it. -/
  present : Bool
  held : Bool
deriving DecidableEq, Repr, Inhabited

/-- What the clients of one policy share. -/
structure Site where
  ledger : Ledger
  /-- Whether the ledger may be written to. -/
  mayWrite : Bool
  lock : LockFile
  programs : Programs
  /-- The scripts that were handed to programs, the last one first. -/
  handOffs : List HandOff
  /-- The moment at which whatever happens is recorded. -/
  now : Timestamp
  /-- For the transactions to come, how often each can look at the clock until its time is
  over; a transaction for which nothing is said has time enough. -/
  clock : List (Option Nat)
deriving Inhabited

/-- The lock of a site can be had when its file can be opened and locked and nobody holds it. -/
def Site.acquire (lock : ChangeLock) (s : Site) : Except Failure Site :=
  match s.lock.fault with
  | some fault => .error (.lock lock.path fault.message)
  | none =>
      if s.lock.held then .error (.lockBusy lock.path (lock.patience.getD .zero))
      else .ok { s with lock := { s.lock with held := true, present := true } }

instance : Lockable Site where
  acquire := Site.acquire
  release _ s := { s with lock := { s.lock with held := false } }

/-- The deadline of the next transaction with a budget. -/
def Site.deadline (s : Site) (budget : Span) : Ledger.Deadline :=
  if budget = .zero then .ofBudget budget else ⟨budget, s.clock.head?.join⟩

/-- One of those who work on a policy. -/
structure Client where
  /-- The user as whom the client acts. -/
  actor : String
  /-- The time that each transaction may take. -/
  budget : Span
  lock : ChangeLock
  /-- The interfaces that rules may name, or why the system does not list them; if nobody looks,
  rules may name any. -/
  interfaces : Option (Except String (List String))
  loader : Loader
deriving Repr, Inhabited

namespace Client

/-- A transaction that only reads, as one step. -/
def consult {α : Type} (c : Client) (t : Site → Ledger.Transaction α) : Operation Site α :=
  .step fun s =>
    let (outcome, _) := (t s).commit (s.deadline c.budget) s.ledger
    (outcome, { s with clock := s.clock.tail })

/-- What comes of a transaction that writes where nothing may be written.  It does not get
as far as the first change, but a missing table is noticed before. -/
def refusedWrite {α : Type} : Except Failure α → Except Failure α
  | .error (.overdue budget) => .error (.overdue budget)
  | .error (.ledger (.noTable name)) => .error (.ledger (.noTable name))
  | _ => .error (.ledger .readOnly)

/-- A transaction that writes, as one step. -/
def transact {α : Type} (c : Client) (t : Site → Ledger.Transaction α) : Operation Site α :=
  .step fun s =>
    let (outcome, ledger) := (t s).commit (s.deadline c.budget) s.ledger
    let s := { s with clock := s.clock.tail }
    if s.mayWrite then (outcome, { s with ledger }) else (refusedWrite outcome, s)

/-- Hands a script to the loader. -/
def handOff (c : Client) (task : Loader.Task) (script : String) : Operation Site Unit :=
  .step fun s =>
    let h : HandOff := ⟨c.loader.program, c.loader.arguments ++ task.options, script⟩
    if h.isBroken then (.error (.host .brokenCommand), s)
    else
      match s.programs h with
      | .error fault => (.error (.host fault), s)
      | .ok (status, report) =>
          (c.loader.outcome status report, { s with handOffs := h :: s.handOffs })

end Client
end PacketPolicy
