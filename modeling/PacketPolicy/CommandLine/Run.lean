import PacketPolicy.CommandLine.Arguments
import PacketPolicy.CommandLine.Table
import PacketPolicy.Host.Machine
import PacketPolicy.Loader.Advice

namespace PacketPolicy
namespace CommandLine

/-!
# Running commands

What a command line does on a machine and what it shows.

* `Outcome` -- what a command leaves on the screen;
* `settingsFor` -- the settings of an invocation;
* `run` -- the whole of it.

Settings come from the file that the arguments name, or else from the user's own file,
which counts for nothing if it cannot be read; variables of the environment count for more,
and options for most.
-/

/-- What a command leaves on the screen. -/
structure Outcome where
  exitCode : Nat
  output : String
  /-- What went wrong on the way, for those who read logs. -/
  log : List String
  /-- What the user is told about a failure. -/
  report : String
deriving Repr, Inhabited

/-- The exit code of a failure. -/
def failureCode : Nat := 1

/-- The exit code of arguments that make no sense. -/
def usageCode : Nat := 2

/-- A line. -/
def line (s : String) : String :=
  s ++ "\n"

/-- Lines. -/
def lines (ss : List String) : String :=
  String.join (ss.map line)

/-- What the user is told about a failure. -/
def reportOf (e : Failure) : String :=
  line ("Error: " ++ e.message) ++
    match e with
    | .loader reason _ _ =>
        let advice := Advice.about reason
        line advice.explanation ++ lines (advice.suggestions.map ("  - " ++ ·))
    | _ => ""

/-- What the log has about a failure. -/
def logOf : Failure → List String
  | .loader _ report _ =>
      ["nft rejected the ruleset: " ++
        Text.logged (String.ofList (Text.trim ((report.getD "").toList)))]
  | _ => []

/-- The outcome of a command that showed `output` before it failed. -/
def Outcome.ofFailure (output : String) (e : Failure) : Outcome where
  exitCode := failureCode
  output := output
  log := logOf e
  report := reportOf e

/-- The outcome of a command that succeeded. -/
def Outcome.ofOutput (output : String) : Outcome where
  exitCode := 0
  output := output
  log := []
  report := ""

/-! ## Settings -/

/-- The value of a variable. -/
def lookUp? (env : Settings.Environment) (name : String) : Option String :=
  (env.find? fun v => v.1 == name).map Prod.snd

/-- The directory for the settings of the user's programs. -/
def settingsDirectory? (env : Settings.Environment) : Option String :=
  match (lookUp? env "XDG_CONFIG_HOME").filter fun s => s.toList.head? = some '/' with
  | some directory => some directory
  | none =>
      ((lookUp? env "HOME").filter fun s => s != "").map fun home => home ++ "/.config"

/-- The file of the user's own settings. -/
def userSettingsFile? (env : Settings.Environment) : Option String :=
  (settingsDirectory? env).map fun directory => directory ++ "/netfence/config.json"

/-- The user's own settings. -/
def userSettings (m : Machine) (env : Settings.Environment) : Settings :=
  match userSettingsFile? env with
  | none => .standard
  | some path =>
      match m.readSettings path with
      | .ok s => s
      | .error _ => .standard

/-- The settings of an invocation. -/
def settingsFor (m : Machine) (env : Settings.Environment) (i : Invocation) :
    Except Failure Settings := do
  let s ← match i.settings with
    | some path => m.readSettings path
    | none => pure (userSettings m env)
  let s := s.override env
  return { s with ledger := i.ledger.getD s.ledger, lock := i.lock.getD s.lock }

/-! ## Commands -/

/-- The outcome of an operation, with what is shown if it succeeds. -/
def shown {α : Type} (view : α → String) (r : Except Failure α × Machine) : Outcome × Machine :=
  match r with
  | (.ok a, m) => (.ofOutput (view a), m)
  | (.error e, m) => (.ofFailure "" e, m)

/-- Carries out a command for a client. -/
def carryOut (m : Machine) (o : OpenClient) : Command → Outcome × Machine
  | .list onlyEnabled =>
      shown (fun rules => lines (rulesTable rules)) (m.perform o (o.client.rules onlyEnabled))
  | .defaults => shown (fun d => lines (defaultsTable d)) (m.perform o o.client.defaults)
  | .setDefaults draft =>
      shown (fun d => line "✓ Default policies updated." ++ lines (defaultsTable d))
        (m.perform o (o.client.setDefaults draft))
  | .addRule draft =>
      shown (fun id => line ("✓ Added rule " ++ toString id.toInt ++ "."))
        (m.perform o (o.client.addRule draft))
  | .deleteRule id =>
      shown
        (fun found =>
          line
            (if found then "✓ Deleted rule " ++ toString id.toInt ++ "."
            else "No rule with id " ++ toString id.toInt ++ "."))
        (m.perform o (o.client.deleteRule id))
  | .exportPolicy none => shown Policy.document (m.perform o o.client.exportPolicy)
  | .exportPolicy (some path) =>
      match m.perform o o.client.exportPolicy with
      | (.error e, m) => (.ofFailure "" e, m)
      | (.ok p, m) =>
          match m.savePolicy path p with
          | .error e => (.ofFailure "" e, m)
          | .ok m =>
              (.ofOutput
                (line ("✓ Exported " ++ toString p.rules.length ++ " rules to " ++ path ++ ".")), m)
  | .importPolicy path =>
      match m.readPolicy path with
      | .error e => (.ofFailure "" e, m)
      | .ok draft =>
          shown
            (fun n => line ("✓ Imported " ++ toString n ++ " rules from " ++ path ++ "."))
            (m.perform o (o.client.importPolicy draft))
  | .dryRun =>
      match m.perform o o.client.defaults with
      | (.error e, m) => (.ofFailure "" e, m)
      | (.ok d, m) =>
          let first := lines (defaultsTable d) ++ line ""
          match m.perform o (o.client.rules true) with
          | (.error e, m) => (.ofFailure first e, m)
          | (.ok rules, m) => (.ofOutput (first ++ lines (rulesTable rules)), m)
  | .render => shown id (m.perform o o.client.renderScript)
  | .check => shown (fun _ => line "✓ nft accepted the ruleset.") (m.perform o o.client.check)
  | .apply =>
      shown (fun loaded => line ("✓ Applied " ++ toString loaded.rules ++ " rules to the kernel."))
        (m.perform o o.client.apply)
  | .journal limit =>
      shown (fun events => lines (journalTable events)) (m.perform o (o.client.trail limit))

/-- What the user is told whose arguments make no sense. -/
def usage : String :=
  "Usage: netfence [OPTIONS] <COMMAND>"

/-- Carries out an invocation, which begins with nothing in memory. -/
def invoke (m : Machine) (env : Settings.Environment) (i : Invocation) : Outcome × Machine :=
  match settingsFor m env i with
  | .error e => (.ofFailure "" e, m)
  | .ok s =>
      match { m with memory := [] }.openClient s i.actor with
      | (.error e, m) => (.ofFailure "" e, m)
      | (.ok c, m) => carryOut m c i.command

/-- What a command line does on a machine and what it shows. -/
def run (m : Machine) (env : Settings.Environment) (args : List String) : Outcome × Machine :=
  match Invocation.parse? args with
  | none => ({ exitCode := usageCode, output := "", log := [], report := line usage }, m)
  | some i => invoke m env i

end CommandLine
end PacketPolicy
