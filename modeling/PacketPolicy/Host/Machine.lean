import PacketPolicy.Host.Tree
import PacketPolicy.Ledger.Address
import PacketPolicy.Ledger.Schema
import PacketPolicy.Session.Operations
import PacketPolicy.Settings

namespace PacketPolicy

/-!
# Machines

A machine on which policies are kept: its files, the locks that are held on some of them,
its interfaces and its programs.  Files hold bytes, except that the file of a ledger holds
the ledger.  Some ledgers are in no file, but in the memory of those who opened them.

* `Machine.openClient` -- a client for some settings, whose ledger is created if need be;
* `Machine.perform` -- an operation of a client on its ledger and the lock of its machine;
* `Machine.findLedger`, `Machine.putLedger` -- the ledger behind a name;
* `Machine.savePolicy`, `Machine.readPolicy` -- policies in files.
-/

/-- What a file holds. -/
inductive Content where
  | bytes (b : ByteArray)
  | ledger (l : Ledger)

instance : Inhabited Content := ⟨.bytes .empty⟩

/-- Where an open ledger is. -/
inductive Seat where
  | file (p : Host.Location)
  /-- In memory; the number tells it from others. -/
  | own (number : Nat)
  /-- In memory, under a name. -/
  | shared (name : String)
deriving DecidableEq, Repr, Inhabited

/-- A machine on which policies are kept. -/
structure Machine where
  files : Host.Tree Content
  /-- The directory that paths start from. -/
  directory : Host.Location
  /-- The files on which a lock is held. -/
  held : List Host.Location
  /-- The open ledgers that are in no file. -/
  memory : List (Seat × Ledger)
  /-- The interfaces, or why the system does not list them. -/
  interfaces : Except String (List String)
  programs : Programs
  /-- The scripts that were handed to programs, the last one first. -/
  handOffs : List HandOff
  now : Timestamp
deriving Inhabited

/-- A client and the ledger that it works on. -/
structure OpenClient where
  client : Client
  seat : Seat
  /-- The name by which the ledger was opened. -/
  ledgerName : String
  mayWrite : Bool
deriving Repr, Inhabited

namespace Machine

/-! ## Locks -/

/-- The place of a lock and the machine once its file has been opened, which creates it
where it is missing. -/
def openLock (m : Machine) (path : String) : Except Host.Fault (Host.Location × Machine) :=
  (m.files.openable m.directory path Host.privateFile (.bytes .empty)).map fun (p, files) =>
    (p, { m with files })

/-- A lock can be had when its file can be opened and nobody holds it. -/
def acquire (lock : ChangeLock) (m : Machine) : Except Failure Machine :=
  match m.openLock lock.path with
  | .error fault => .error (.lock lock.path (LockFault.cannotOpen fault).message)
  | .ok (p, opened) =>
      if m.held.contains p then .error (.lockBusy lock.path (lock.patience.getD .zero))
      else .ok { opened with held := p :: opened.held }

/-- The machine with a lock free. -/
def release (lock : ChangeLock) (m : Machine) : Machine :=
  match m.files.lookUp m.directory lock.path with
  | .ok (p, _) => { m with held := m.held.filter (· != p) }
  | .error _ => m

instance : Lockable Machine where
  acquire := acquire
  release := release

/-! ## Ledgers -/

/-- The greatest number of bytes in the path of a ledger's file. -/
def ledgerPathLimit : Nat := 504

/-- The number of bytes by which the names of files that stand beside that of a ledger
are longer. -/
def companionSuffix : Nat := "-journal".utf8ByteSize

/-- The place of a ledger's file.  Other than elsewhere two dots take back the name in
front of them, whether that is there or not. -/
def follow (m : Machine) : Host.Location → List String → Option Host.Location
  | p, [] => some p
  | p, name :: rest =>
      if name = Host.back then m.follow p.dropLast rest
      else if Host.isTooLong name || (Host.Tree.wayTo p).any fun q =>
          match m.files.find? q with
          | some (.file _ _) => true
          | _ => false then none
      else m.follow (p ++ [name]) rest

/-- The place of a ledger's file, if there can be a file. -/
def ledgerPlace? (m : Machine) (path : String) : Option Host.Location :=
  let names := Host.Path.ofString path
  match m.follow (names.origin m.directory) names.names with
  | none => none
  | some p =>
      if ledgerPathLimit < (Host.joined p).utf8ByteSize + 1 then none
      else
        match m.files.find? p, m.files.find? p.dropLast with
        | some (.directory _), _ => none
        | _, some (.directory _) => some p
        | _, _ => none

/-- The ledger that a file holds; a file without bytes is one without tables, and so is one
with a single byte. -/
def Content.ledger? : Content → Except Ledger.Fault Ledger
  | .ledger l => .ok l
  | .bytes b => if b.size ≤ 1 then .ok .blank else .error .notLedger

/-- The open ledger in a seat; `name` is what complaints call it. -/
def seated (m : Machine) (name : String) : Seat → Except Ledger.Fault Ledger
  | .file p =>
      match m.files.find? p with
      | some (.file _ content) => Content.ledger? content
      | some (.directory _) => .error (.cannotOpen name)
      | none => .ok .blank
  | seat => .ok (((m.memory.find? fun e => e.1 == seat).map Prod.snd).getD .blank)

/-- Puts a ledger into its seat. -/
def reseat (m : Machine) (seat : Seat) (l : Ledger) : Machine :=
  match seat with
  | .file p => { m with files := m.files.put p (.file Host.publicFile (.ledger l)) }
  | seat => { m with memory := (seat, l) :: m.memory.filter fun e => e.1 != seat }

/-- The seat of the ledger at an address; `name` is what complaints call it. -/
def seatOf (m : Machine) (name : String) (a : Ledger.Address) : Except Ledger.Fault Seat :=
  match a.home with
  | .own => .ok (.own m.memory.length)
  | .shared key => .ok (.shared key)
  | .file path =>
      match m.ledgerPlace? path with
      | none => .error (.cannotOpen name)
      | some p =>
          if !a.mayCreate && (m.files.find? p).isNone then .error (.cannotOpen name)
          else .ok (.file p)

/-- The ledger behind a name. -/
def findLedger (m : Machine) (name : String) : Except Ledger.Fault Ledger := do
  let a ← Ledger.Address.ofName name
  m.seated name (← m.seatOf name a)

/-- Puts a ledger where a name leads, unless nobody would see it there. -/
def putLedger (m : Machine) (name : String) (l : Ledger) : Machine :=
  match (Ledger.Address.ofName name).bind (m.seatOf name) with
  | .ok (.file p) => m.reseat (.file p) l
  | .ok seat => if m.memory.any fun e => e.1 == seat then m.reseat seat l else m
  | .error _ => m

/-- Whether the name of a ledger's file leaves room for those of the files beside it. -/
def hasCompanions : Seat → Bool
  | .file p => (p.getLast?.getD "").utf8ByteSize + companionSuffix ≤ Host.nameLimit
  | _ => true

/-- Puts a file without bytes into a seat where nothing stands. -/
def touch (m : Machine) : Seat → Machine
  | .file p =>
      if (m.files.find? p).isSome then m
      else { m with files := m.files.add p (.file Host.publicFile (.bytes .empty)) }
  | _ => m

/-- Brings the ledger in a seat up to date.  A ledger to which nothing may be written has
to be up to date already. -/
def bringUpToDate (m : Machine) (seat : Seat) (mayWrite : Bool) (l : Ledger) :
    Except Failure Unit × Machine :=
  if mayWrite then
    if hasCompanions seat || l.versions.isSome then
      match l.bringUpToDate with
      | (.ok _, l) => (.ok (), m.reseat seat l)
      | (.error e, l) => (.error e, m.reseat seat l)
    else (.error (.ledger .noCompanion), m.touch seat)
  else if l.versions.isNone then (.error (.ledger .readOnly), m.touch seat)
  else
    match l.bringUpToDate with
    | (.ok 0, _) => (.ok (), m)
    | (.ok _, _) => (.error (.ledger .readOnly), m)
    | (.error e, _) => (.error e, m)

/-- Opens the ledger behind a name and brings it up to date; its seat, and whether it may
be written to. -/
def openLedger (m : Machine) (name : String) : Except Failure (Seat × Bool) × Machine :=
  let found : Except Ledger.Fault (Ledger.Address × Seat × Ledger) := do
    let a ← Ledger.Address.ofName name
    let seat ← m.seatOf name a
    return (a, seat, ← m.seated name seat)
  match found with
  | .error fault => (.error (.ledger fault), m)
  | .ok (a, seat, l) =>
      match m.bringUpToDate seat a.mayWrite l with
      | (.ok (), m) => (.ok (seat, a.mayWrite), m)
      | (.error e, m) => (.error e, m)

/-! ## Clients -/

/-- Creates the directory that a file is to stand in. -/
def ensureParent (m : Machine) (path : String) : Except Failure Unit × Machine :=
  let (outcome, files) := m.files.ensureParent m.directory path
  (outcome.mapError .host, { m with files })

/-- The client of a user for some settings. -/
def client (m : Machine) (s : Settings) (actor : String) : Client where
  actor := actor
  budget := s.budget
  lock := ⟨s.lock, s.patience⟩
  interfaces := if s.checkInterfaces then some m.interfaces else none
  loader := Loader.parse s.loader

/-- Makes ready what the settings name: the directories of the ledger and of the lock, then
the ledger. -/
def prepare (m : Machine) (s : Settings) : Except Failure (Seat × Bool) × Machine :=
  match m.ensureParent s.ledger with
  | (.error e, m) => (.error e, m)
  | (.ok (), m) =>
      match m.ensureParent s.lock with
      | (.error e, m) => (.error e, m)
      | (.ok (), m) => m.openLedger s.ledger

/-- A client for some settings, once everything has been made ready. -/
def openClient (m : Machine) (s : Settings) (actor : String) :
    Except Failure OpenClient × Machine :=
  match m.prepare s with
  | (.error e, m) => (.error e, m)
  | (.ok (seat, mayWrite), m) =>
      (.ok { client := m.client s actor, seat, ledgerName := s.ledger, mayWrite }, m)

/-- The state of the file of a lock. -/
def lockFile (m : Machine) (path : String) : LockFile :=
  match m.openLock path with
  | .error fault => { fault := some (.cannotOpen fault), present := false, held := false }
  | .ok (p, _) =>
      { fault := none, present := (m.files.find? p).isSome, held := m.held.contains p }

/-- What the clients of a ledger and a lock share. -/
def site (m : Machine) (c : OpenClient) : Except Ledger.Fault Site :=
  (m.seated c.ledgerName c.seat).map fun ledger =>
    { ledger
      mayWrite := c.mayWrite
      lock := m.lockFile c.client.lock.path
      programs := m.programs
      handOffs := m.handOffs
      now := m.now
      clock := [] }

/-- The machine once a client has left a site, whose ledger is put back if it may be
written to; the lock is as free as it was before. -/
def withSite (m : Machine) (c : OpenClient) (s : Site) : Machine :=
  let m := { (if c.mayWrite then m.reseat c.seat s.ledger else m) with handOffs := s.handOffs }
  if s.lock.present then
    match m.openLock c.client.lock.path with
    | .ok (_, m) => m
    | .error _ => m
  else m

/-- An operation of a client on its ledger and the lock that it knows. -/
def perform {α : Type} (m : Machine) (c : OpenClient) (o : Operation Site α) :
    Except Failure α × Machine :=
  match m.site c with
  | .error fault => (.error (.ledger fault), m)
  | .ok site =>
      let (outcome, site) := o.run site
      (outcome, m.withSite c site)

/-! ## Files -/

/-- The bytes of a file; those of a ledger's file are no text. -/
def readBytes (m : Machine) (path : String) : Except Host.Fault ByteArray :=
  match m.files.read m.directory path with
  | .ok (.bytes b) => .ok b
  | .ok (.ledger _) => .error .notText
  | .error fault => .error fault

/-- The text of a file. -/
def readText (m : Machine) (path : String) : Except Host.Fault String := do
  let bytes ← m.readBytes path
  match Text.ofBytes? bytes with
  | some s => return s
  | none => throw .notText

/-- The settings that a file describes. -/
def readSettings (m : Machine) (path : String) : Except Failure Settings :=
  match m.readText path with
  | .error fault => .error (.host fault)
  | .ok s => (Json.Reader.ofText Settings.reader s).mapError .document

/-- The policy that a file describes. -/
def readPolicy (m : Machine) (path : String) : Except Failure Policy.Draft :=
  match m.readText path with
  | .error fault => .error (.host fault)
  | .ok s => (Policy.Draft.ofText s).mapError .document

/-- Writes the document of a policy into a new file, to which nobody else has access and
on which nobody holds a lock. -/
def savePolicy (m : Machine) (path : String) (p : Policy) : Except Failure Machine :=
  let content := Content.bytes (Text.toBytes p.document)
  match m.files.write m.directory path Host.privateFile content with
  | .ok (q, files) => .ok { m with files, held := m.held.filter (· != q) }
  | .error fault => .error (.host fault)

end Machine
end PacketPolicy
