import PacketPolicy.CommandLine.Run
import PacketPolicy.Host.Interfaces
import PacketPolicy.Ledger.Document
import Std.Time.DateTime

namespace PacketPolicy
namespace Program

/-!
# The program

Carries out one command line on the host: fetches the files that the command may look at,
has the command carried out on them, and puts back what it has changed.

* `fetch` -- the part of the host's tree that lies on the way to a path;
* `keep` -- puts back what has changed;
* `underLock` -- does something while no other process holds a lock;
* `run` -- the whole of it.

No programs are run from here: the packet filter counts as one that the host does not have.
-/

/-- The path of a place. -/
def pathOf (p : Host.Location) : String :=
  "/" ++ "/".intercalate p

/-- What the bytes of a file are. -/
def contentOf (bytes : ByteArray) : Content :=
  match Ledger.ofBytes? bytes with
  | some l => if bytes.isEmpty then .bytes bytes else .ledger l
  | none => .bytes bytes

/-- The bytes of what a file holds. -/
def bytesOf : Content → ByteArray
  | .bytes b => b
  | .ledger l => l.toBytes

/-- What stands in a place below a directory. -/
def look (p : Host.Location) : IO (Option (Host.Node Content)) := do
  try
    return some (.file Host.publicFile (contentOf (← IO.FS.readBinFile (pathOf p))))
  catch
    | .inappropriateType .. => return some (.directory Host.privateDirectory)
    | _ => return none

/-- The machine with what stands on the way to a place and in the place itself. -/
def fetchAll (m : Machine) : List Host.Location → IO Machine
  | [] => return m
  | p :: rest => do
      match m.files.find? p with
      | some (.directory _) => fetchAll m rest
      | some (.file _ _) => return m
      | none =>
          match ← look p with
          | some node => fetchAll { m with files := m.files.add p node } rest
          | none => return m

/-- The places that one comes by when one follows names, where two dots lead back. -/
def placesFrom (p : Host.Location) : List String → List Host.Location
  | [] => [p]
  | name :: rest =>
      p :: placesFrom (if name = Host.back then p.dropLast else p ++ [name]) rest

/-- The machine with what stands on the way to a path. -/
def fetch (m : Machine) (path : String) : IO Machine :=
  let names := Host.Path.ofString path
  (placesFrom (names.origin m.directory) names.names).foldlM
    (fun m p => fetchAll m (Host.Tree.wayTo p)) m

/-- The path under which a ledger is kept, if it is kept in a file. -/
def ledgerPath? (s : Settings) : Option String :=
  match Ledger.Address.ofName s.ledger with
  | .ok { home := .file path, .. } => some path
  | _ => none

/-- The rights that go with a mode of access. -/
def rightsOf (mode : Nat) : IO.FileRight :=
  let rights := fun (digit : Nat) =>
    IO.AccessRight.mk (4 ≤ digit % 8) (2 ≤ digit % 4) (digit % 2 = 1)
  ⟨rights (mode / 64), rights (mode / 8), rights mode⟩

/-- Puts a new node in its place on the host. -/
def create (p : Host.Location) : Host.Node Content → IO Unit
  | .directory mode => do
      IO.FS.createDir (pathOf p)
      IO.setAccessRights (pathOf p) (rightsOf mode)
  | .file mode content => do
      IO.FS.writeBinFile (pathOf p) (bytesOf content)
      IO.setAccessRights (pathOf p) (rightsOf mode)

/-- Puts back what has changed. -/
def keep (before after : Machine) : IO Unit :=
  after.files.nodes.forM fun (p, node) =>
    match before.files.find? p, node with
    | none, node => create p node
    | some (.file _ old), .file mode new =>
        if bytesOf old == bytesOf new then pure () else create p (.file mode new)
    | some _, _ => pure ()

/-- How long to sleep between two attempts to take a lock, in milliseconds. -/
def pause : Nat := 25

/-- Takes the lock on an open file if that is possible in time. -/
def tryFor (h : IO.FS.Handle) : Nat → IO Bool
  | 0 => h.tryLock
  | attempts + 1 => do
      if ← h.tryLock then return true
      IO.sleep pause.toUInt32
      tryFor h attempts

/-- Does something while no other process holds a lock; the body is told whether the lock
was to be had.  If the file cannot be opened, the body will find out why. -/
def underLock (m : Machine) (s : Settings) (body : Machine → IO UInt32) : IO UInt32 := do
  match m.openLock s.lock with
  | .error _ => body m
  | .ok (p, _) =>
      let isNew := (← look p).isNone
      let handle? ← try
          let h ← IO.FS.Handle.mk (pathOf p) .append
          if isNew then IO.setAccessRights (pathOf p) (rightsOf Host.privateFile)
          pure (some h)
        catch _ => pure none
      match handle?, s.patience with
      | none, _ => body m
      | some h, none =>
          h.lock
          body m
      | some h, some limit =>
          if ← tryFor h (limit.nanoseconds / (pause * 1000000)) then body m
          else body { m with held := [p] }

/-- The variables that commands ask for. -/
def variableNames : List String :=
  ["HOME", "XDG_CONFIG_HOME", "NETFENCE_DB", "NETFENCE_LOCK", "NETFENCE_NFT_COMMAND"]

/-- The host, as far as no file is concerned. -/
def host : IO Machine := do
  let now ← Std.Time.Timestamp.now
  let interfaces ←
    try
      let table ← IO.FS.readFile "/proc/net/dev"
      pure (.ok (Host.interfacesOf table))
    catch e => pure (.error e.toString)
  return {
    files := ⟨[]⟩
    directory := (Host.Path.ofString (← IO.currentDir).toString).names
    held := []
    memory := []
    interfaces
    programs := fun _ => .error .notFound
    handOffs := []
    now := .afterEpoch now.val.second.val.toNat now.val.nano.val.toNat }

/-- Carries out a command line on a machine and shows the outcome. -/
def carryOut (env : Settings.Environment) (args : List String) (m : Machine) : IO UInt32 := do
  let (o, after) := CommandLine.run m env args
  keep m after
  (← IO.getStdout).putStr o.output
  let err ← IO.getStderr
  o.log.forM fun entry => err.putStrLn ("ERROR " ++ entry)
  err.putStr o.report
  return o.exitCode.toUInt32

/-- Carries out a command line on the host. -/
def run (args : List String) : IO UInt32 := do
  let env ← variableNames.filterMapM fun name => do
    return (← IO.getEnv name).map fun v => (name, v)
  match CommandLine.Invocation.parse? args with
  | none => carryOut env args (← host)
  | some i =>
      let settingsFile? := i.settings <|> CommandLine.userSettingsFile? env
      let m ← settingsFile?.toList.foldlM fetch (← host)
      match CommandLine.settingsFor m env i with
      | .error _ => carryOut env args m
      | .ok s =>
          let rest := fun m => do
            let paths := s.ledger :: (ledgerPath? s).toList ++ i.command.file?.toList
            carryOut env args (← paths.foldlM fetch m)
          let m ← fetch m s.lock
          if i.command.changes then underLock m s rest else rest m

/-- The whole program, where what the host refuses is told like any other failure. -/
def runOrReport (args : List String) : IO UInt32 := do
  try run args
  catch e =>
    (← IO.getStderr).putStr (CommandLine.reportOf (.host (.other (toString e))))
    return CommandLine.failureCode.toUInt32

end Program
end PacketPolicy

def main (args : List String) : IO UInt32 :=
  PacketPolicy.Program.runOrReport args
