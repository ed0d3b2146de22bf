import PacketPolicy.Failure
import PacketPolicy.Ledger.Statement

namespace PacketPolicy
namespace Ledger

/-!
# Migrations

The tables are set up and brought up to date in numbered steps, each of which is a script of
statements.  The ledger records the steps it has been through; the greatest recorded number is
its version, and only steps above it are taken, in ascending order.  A step that fails leaves
nothing behind, and no later one is tried.

* `Script` -- statements one after another;
* `setUpScript`, `purgeScript`, `migrations` -- the steps; `version` -- the version of a ledger;
* `bringUpToDate` -- takes the steps that are left;
* `openBlank` -- a new ledger with all tables.
-/

/-! ## Scripts -/

/-- The statements of a migration. -/
abbrev Script : Type :=
  List (Ledger → Except Fault Ledger)

/-- The statements one after another, up to the first one that fails. -/
def Script.run : Script → Ledger → Except Fault Ledger
  | [], l => .ok l
  | statement :: rest, l => statement l >>= Script.run rest

/-- A new table without rows, where there is none of its name. -/
def createTable (t : Table) (l : Ledger) : Except Fault Ledger :=
  match l.size? t with
  | some _ => .error (.tableExists (Named.name t))
  | none =>
      .ok <| match t with
        | .defaults => { l with defaults := some [] }
        | .rules => { l with rules := some ⟨[], 0⟩ }
        | .ports => { l with ports := some [] }
        | .sources => { l with sources := some [] }
        | .destinations => { l with destinations := some [] }
        | .icmpTypes => { l with icmpTypes := some [] }
        | .users => { l with users := some [] }
        | .journal => { l with journal := some ⟨[], 0⟩ }

/-- An index by the numbers of rules, where there is none of its name. -/
def createIndex (part : Part) (l : Ledger) : Except Fault Ledger :=
  match l.rows? part with
  | none => .error (.noTable ("main." ++ Named.name part.table))
  | some _ =>
      if part ∈ l.indexes then .error (.indexExists part.index)
      else .ok { l with indexes := l.indexes ++ [part] }

/-- The row of the initial defaults, where there is none of its number. -/
def insertDefaults (l : Ledger) : Except Fault Ledger := do
  let rows ← need .defaults l.defaults
  if rows.any fun row => row.id == defaultsId then .error (.notUnique "defaults" "id")
  else return { l with defaults := some (rows ++ [.ofDefaults .initial]) }

/-- The users of a new ledger. -/
def firstUsers : List UserRow :=
  [⟨some "root", Named.name Role.admin⟩, ⟨some "operator", Named.name Role.operator⟩]

/-- The first users, where there are none of their names. -/
def insertUsers (l : Ledger) : Except Fault Ledger := do
  let rows ← need .users l.users
  if rows.any fun row => firstUsers.any fun first => row.name == first.name then
    .error (.notUnique "users" "name")
  else return { l with users := some (rows ++ firstUsers) }

/-- Those of the rows that belong to a rule. -/
def ownedRows (l : Ledger) (rows : List (ChildRow Cell)) :
    Except Fault (List (ChildRow Cell)) := do
  let rules ← need .rules l.rules
  return keepChildren (fun owner => rules.rows.any fun row => some row.id == owner) rows

/-- Removes from a table what belongs to no rule. -/
def purge (part : Part) (l : Ledger) : Except Fault Ledger :=
  (changePart part l.ownedRows l).map Prod.snd

/-! ## The steps -/

/-- A numbered step. -/
structure Migration where
  version : Nat
  name : String
  script : Script

/-- Sets up all tables, with the initial defaults and the first users. -/
def setUpScript : Script :=
  [createTable .defaults, insertDefaults, createTable .rules] ++
    Part.all.flatMap (fun part => [createTable part.table, createIndex part]) ++
    [createTable .users, insertUsers, createTable .journal]

/-- Removes what belongs to no rule, from one table after another. -/
def purgeScript : Script :=
  Part.all.map purge

/-- The steps in ascending order. -/
def migrations : List Migration :=
  [⟨1, "init", setUpScript⟩, ⟨2, "purge_orphans", purgeScript⟩]

/-- The greatest number that a version can have. -/
def greatestVersion : Nat := 4294967295

/-- The version of a ledger; zero, if it has been through no step. -/
def version (l : Ledger) : Except Fault Nat :=
  match (l.versions.getD []).max? with
  | none => .ok 0
  | some highest =>
      if 0 ≤ highest ∧ highest ≤ greatestVersion then .ok highest.toNat
      else .error (.outOfRange highest 0)

/-- The ledger with a table for its versions. -/
def withVersions (l : Ledger) : Ledger :=
  { l with versions := some (l.versions.getD []) }

/-- The ledger with one more version recorded. -/
def record (v : Nat) (l : Ledger) : Ledger :=
  { l with versions := some (l.versions.getD [] ++ [(v : Int)]) }

/-- Takes a step unless the ledger has been through it; how many steps were taken. -/
def Migration.step (m : Migration) (l : Ledger) : Except Failure (Nat × Ledger) :=
  match l.version with
  | .error fault => .error (.ledger fault)
  | .ok reached =>
      if m.version ≤ reached then .ok (0, l)
      else
        match m.script.run l with
        | .ok l => .ok (1, record m.version l)
        | .error fault => .error (.migration m.version fault)

/-- Takes the steps of a list one after another; the ledger afterwards is the one that the
last successful step left. -/
def takeSteps (l : Ledger) : List Migration → Except Failure Nat × Ledger
  | [] => (.ok 0, l)
  | m :: rest =>
      match m.step l with
      | .error e => (.error e, l)
      | .ok (n, l) =>
          match takeSteps l rest with
          | (.ok k, l) => (.ok (n + k), l)
          | (.error e, l) => (.error e, l)

/-- Takes the steps that are left; how many there were. -/
def bringUpToDate (l : Ledger) : Except Failure Nat × Ledger :=
  takeSteps l migrations

/-- A new ledger with all tables. -/
def openBlank : Ledger :=
  (bringUpToDate blank).2

end Ledger
end PacketPolicy
