import PacketPolicy.Policy.Rule
import PacketPolicy.Text.Digits

namespace PacketPolicy
namespace CommandLine

/-!
# Arguments

What a command line asks for.  Options that say where the policy is kept and as whom to act
may stand in front of the command or behind it, and behind it they count for more; the
options of a command stand behind it.

* `Invocation.parse?` -- what the arguments ask for, if they make sense;
* `scan?` -- arguments as options and other words, by a list of known options.

A value follows its option as the next argument or behind an equals sign.  As the next
argument it must not look like an option, except that numbers may be negative where an
option says so.  Behind two hyphens alone no argument is an option.
-/

/-- What an option takes. -/
inductive Arity where
  /-- Nothing; it may be given once. -/
  | flag
  /-- A value; it may be given once. -/
  | value
  /-- Values with commas between them; it may be given several times. -/
  | values
  /-- Whole numbers with commas between them. -/
  | numbers
deriving DecidableEq, Repr, Inhabited

/-- A known option. -/
structure Known where
  name : String
  arity : Arity
deriving DecidableEq, Repr, Inhabited

/-- An argument that makes sense. -/
inductive Given where
  | option (name : String) (value : String)
  /-- An option without a value. -/
  | flag (name : String)
  /-- One or several requests to say more. -/
  | verbose (times : Nat)
  | word (s : String)
deriving DecidableEq, Repr, Inhabited

/-- What may follow one hyphen in a number: digits, with at most one point that is not in
front and at most one power of ten, which is not empty. -/
def isNumberTail : Bool → Option Nat → Nat → List Char → Bool
  | _, power, place, [] =>
      match power with
      | none => true
      | some start => start + 1 != place
  | point, power, place, c :: rest =>
      if c.isDigit then isNumberTail point power (place + 1) rest
      else if c = '.' ∧ !point ∧ power.isNone ∧ 0 < place then
        isNumberTail true power (place + 1) rest
      else if c = 'e' ∧ power.isNone ∧ 0 < place then
        isNumberTail point (some place) (place + 1) rest
      else false

/-- Whether an argument can be the value of the option in front of it. -/
def canBeValue (arity : Arity) (arg : List Char) : Bool :=
  match arg with
  | '-' :: c :: rest =>
      arity == .numbers && c != '-' && isNumberTail false none 0 (c :: rest)
  | _ => true

/-- The name of a long option and the value behind its equals sign. -/
def splitEquals (cs : List Char) : String × Option String :=
  let name := cs.takeWhile (· != '=')
  match cs.dropWhile (· != '=') with
  | [] => (String.ofList name, none)
  | _ :: value => (String.ofList name, some (String.ofList value))

/-- The number of letters that ask to say more, if there is nothing else. -/
def verbosity? (cs : List Char) : Option Nat :=
  if cs.all (· == 'v') then some cs.length else none

/-- The known options with a name. -/
def known? (options : List Known) (name : String) : Option Known :=
  options.find? fun o => o.name == name

/-- Arguments as options and words.  With `untilWord` the first word ends the scan, and what
is left begins with it; none, if an argument makes no sense. -/
def scan? (options : List Known) (untilWord : Bool) :
    List String → Option (List Given × List String)
  | [] => some ([], [])
  | arg :: rest =>
      match arg.toList with
      | ['-', '-'] =>
          if untilWord then if rest.isEmpty then some ([], []) else none
          else some (rest.map .word, [])
      | '-' :: '-' :: long =>
          let (name, attached) := splitEquals long
          if name = "verbose" then
            if attached.isSome then none
            else (scan? options untilWord rest).map fun (g, left) => (.verbose 1 :: g, left)
          else
            match known? options name with
            | none => none
            | some o =>
                match o.arity, attached with
                | .flag, some _ => none
                | .flag, none =>
                    (scan? options untilWord rest).map fun (g, left) => (.flag name :: g, left)
                | _, some v =>
                    (scan? options untilWord rest).map fun (g, left) => (.option name v :: g, left)
                | arity, none =>
                    match rest with
                    | [] => none
                    | v :: rest =>
                        if canBeValue arity v.toList then
                          (scan? options untilWord rest).map fun (g, left) =>
                            (.option name v :: g, left)
                        else none
      | '-' :: c :: short =>
          match verbosity? (c :: short) with
          | some n => (scan? options untilWord rest).map fun (g, left) => (.verbose n :: g, left)
          | none => none
      | _ =>
          if untilWord then some ([], arg :: rest)
          else (scan? options untilWord rest).map fun (g, left) => (.word arg :: g, left)

/-! ## Values of options -/

/-- All values of an option, in order. -/
def valuesOf (given : List Given) (name : String) : List String :=
  given.filterMap fun
    | .option n v => if n = name then some v else none
    | _ => none

/-- The value of an option that may be given once. -/
def once? (given : List Given) (name : String) : Option (Option String) :=
  match valuesOf given name with
  | [] => some none
  | [v] => some (some v)
  | _ => none

/-- The value of an option that has to be given. -/
def needed? (given : List Given) (name : String) : Option String :=
  (once? given name).join

/-- The value of an option, or what it is otherwise. -/
def orElse? (given : List Given) (name absent : String) : Option String :=
  (once? given name).map fun v => v.getD absent

/-- The path that an option names; it is not empty. -/
def path? (given : List Given) (name : String) : Option (Option String) :=
  match once? given name with
  | some (some "") => none
  | other => other

/-- Whether an option without a value is given. -/
def flag? (given : List Given) (name : String) : Option Bool :=
  match given.filter fun g => g == .flag name with
  | [] => some false
  | [_] => some true
  | _ => none

/-- The values of an option that stand between commas. -/
def commaValues (given : List Given) (name : String) : List String :=
  (valuesOf given name).flatMap fun v => (Text.pieces ',' v.toList).map String.ofList

/-- A whole number of sixty-four bits, with or without a sign in front. -/
def int64? (s : String) : Option Int64 :=
  match Text.intOfDigits? s.toList with
  | some n =>
      if -9223372036854775808 ≤ n ∧ n ≤ 9223372036854775807 then some (Int64.ofInt n) else none
  | none => none

/-- A count of sixty-four bits, with or without a plus sign in front. -/
def count? (s : String) : Option Nat :=
  let digits := match s.toList with
    | '+' :: rest => rest
    | cs => cs
  match Text.natOfDigits? digits with
  | some n => if n ≤ 18446744073709551615 then some n else none
  | none => none

/-- A truth value. -/
def truth? : String → Option Bool
  | "true" => some true
  | "false" => some false
  | _ => none

/-- Words that stand behind a command. -/
def wordsOf (given : List Given) : List String :=
  given.filterMap fun
    | .word s => some s
    | _ => none

/-! ## Commands -/

/-- What a command line asks for. -/
inductive Command where
  | list (onlyEnabled : Bool)
  | defaults
  | setDefaults (draft : Defaults.Draft)
  | addRule (draft : Rule.Draft)
  | deleteRule (id : Int64)
  | exportPolicy (file : Option String)
  | importPolicy (file : String)
  /-- The defaults and the enabled rules that would be loaded. -/
  | dryRun
  | render
  | check
  | apply
  | journal (limit : Nat)
deriving DecidableEq, Repr, Inhabited

/-- Whether a command takes the change lock. -/
def Command.changes : Command → Bool
  | .setDefaults _ | .addRule _ | .deleteRule _ | .importPolicy _ | .apply => true
  | .list _ | .defaults | .exportPolicy _ | .dryRun | .render | .check | .journal _ => false

/-- The file that a command reads or writes. -/
def Command.file? : Command → Option String
  | .exportPolicy file => file
  | .importPolicy file => some file
  | _ => none

/-- The number of journal entries that are shown unless a number is given. -/
def journalLimit : Nat := 20

/-- The options that every command has. -/
def commonOptions : List Known :=
  [⟨"db", .value⟩, ⟨"lock", .value⟩, ⟨"config", .value⟩, ⟨"as", .value⟩]

/-- The other options of a command, if there is a command of the name. -/
def commandOptions? : String → Option (List Known)
  | "list" => some [⟨"enabled", .flag⟩]
  | "set-defaults" =>
      some [⟨"input", .value⟩, ⟨"forward", .value⟩, ⟨"output", .value⟩, ⟨"log-prefix", .value⟩]
  | "add-rule" =>
      some
        [⟨"chain", .value⟩, ⟨"proto", .value⟩, ⟨"action", .value⟩, ⟨"in-if", .value⟩,
          ⟨"out-if", .value⟩, ⟨"ports", .numbers⟩, ⟨"src", .values⟩, ⟨"dst", .values⟩,
          ⟨"icmp-types", .numbers⟩, ⟨"comment", .value⟩, ⟨"enabled", .value⟩]
  | "export" => some [⟨"file", .value⟩]
  | "import" => some [⟨"file", .value⟩]
  | "audit" => some [⟨"limit", .value⟩]
  | "defaults" | "del-rule" | "dryrun" | "render" | "check" | "apply" => some []
  | _ => none

/-- The rule that options describe. -/
def ruleOf? (given : List Given) : Option Rule.Draft := do
  let chain ← orElse? given "chain" "input"
  let protocol ← orElse? given "proto" "all"
  let action ← orElse? given "action" "accept"
  let inInterface ← once? given "in-if"
  let outInterface ← once? given "out-if"
  let ports ← (commaValues given "ports").mapM int64?
  let icmpTypes ← (commaValues given "icmp-types").mapM int64?
  let comment ← once? given "comment"
  let enabled ← (← orElse? given "enabled" "true") |> truth?
  return {
    chain, protocol, action, inInterface, outInterface, ports
    sources := commaValues given "src"
    destinations := commaValues given "dst"
    icmpTypes, comment, enabled }

/-- The command of a name with its options and words. -/
def command? (name : String) (given : List Given) : Option Command :=
  match name, wordsOf given with
  | "list", [] => (flag? given "enabled").map .list
  | "defaults", [] => some .defaults
  | "set-defaults", [] => do
      let input ← needed? given "input"
      let forward ← needed? given "forward"
      let output ← needed? given "output"
      let logPrefix ← orElse? given "log-prefix" ""
      return .setDefaults { input, forward, output, logPrefix }
  | "add-rule", [] => (ruleOf? given).map .addRule
  | "del-rule", [id] => (int64? id).map .deleteRule
  | "export", [] => (path? given "file").map .exportPolicy
  | "import", [] => (path? given "file").join.map .importPolicy
  | "dryrun", [] => some .dryRun
  | "render", [] => some .render
  | "check", [] => some .check
  | "apply", [] => some .apply
  | "audit", [] => do
      match ← once? given "limit" with
      | some n => (count? n).map .journal
      | none => return .journal journalLimit
  | _, _ => none

/-- A command and where and as whom it is to be carried out. -/
structure Invocation where
  ledger : Option String
  lock : Option String
  settings : Option String
  actor : String
  command : Command
deriving DecidableEq, Repr, Inhabited

/-- The user as whom commands are carried out unless one is named. -/
def usualActor : String := "root"

/-- What the arguments ask for, if they make sense. -/
def Invocation.parse? (args : List String) : Option Invocation := do
  let (front, left) ← scan? commonOptions true args
  match left with
  | [] => none
  | name :: rest =>
      let options ← commandOptions? name
      let (given, _) ← scan? (commonOptions ++ options) false rest
      let command ← command? name given
      let ledger ← path? given "db"
      let lock ← path? given "lock"
      let settings ← path? given "config"
      let actor ← once? given "as"
      let frontLedger ← path? front "db"
      let frontLock ← path? front "lock"
      let frontSettings ← path? front "config"
      let frontActor ← once? front "as"
      return {
        ledger := ledger <|> frontLedger
        lock := lock <|> frontLock
        settings := settings <|> frontSettings
        actor := (actor <|> frontActor).getD usualActor
        command }

end CommandLine
end PacketPolicy
