import PacketPolicy.Json.Value
import PacketPolicy.Ledger.Numeral
import PacketPolicy.Ledger.Statement

namespace PacketPolicy
namespace Ledger

/-!
# Edits by hand

What somebody can do to the tables who goes around the operations of the ledger.  None of
the rules about the contents of columns holds for such edits; only that certain columns
are never empty, and that rows of one table have different numbers or names.

* `columnText`, `columnCell` -- a value as a column of texts, or of whole numbers, takes it;
* `editRule`, `editChild`, `editUser`, `editJournal`, `editDefaults` -- writing rows;
* `removeDefaults`, `removeRuleRow`, `dropTable`, `setVersion` -- taking something away.

A column of texts turns numbers into their numerals.  A column of whole numbers turns a
text that is the numeral of a whole number into this number, and keeps any other text.
-/

/-! ## Values of columns -/

/-- A value as a column of whole numbers takes it; none, if it is no value. -/
def columnCell : Json.Value → Option Cell
  | .null => none
  | .bool b => some (truthCell b)
  | .number n => some (.ofNumber n)
  | .string s => some (.ofText s)
  | v => some (.text v.compact)

/-- A value as a column of texts takes it; none, if it is no value. -/
def columnText : Json.Value → Option String
  | .null => none
  | .bool b => some (if b then "1" else "0")
  | .number n => some (numberText n)
  | .string s => some s
  | v => some v.compact

/-- A column that is never empty. -/
def filled {α : Type} (t : Table) (column : String) : Option α → Except Fault α
  | some a => .ok a
  | none => .error (.notNull (Named.name t) column)

/-! ## Writing rows -/

/-- The columns of a row of rules, as somebody fills them in. -/
structure RuleEntry where
  id : Option Int64
  chain : Option String
  protocol : Option String
  action : Option String
  inInterface : Option String
  outInterface : Option String
  comment : Option String
  enabled : Option Cell
deriving Repr, Inhabited

/-- A new row of rules; without a number it takes the next one. -/
def editRule (e : RuleEntry) (l : Ledger) : Except Fault Ledger := do
  let t ← need .rules l.rules
  let id ← match e.id with
    | some id => pure id
    | none => t.next?
  let chain ← filled .rules "chain" e.chain
  let protocol ← filled .rules "proto" e.protocol
  let action ← filled .rules "action" e.action
  let enabled ← filled .rules "enabled" e.enabled
  if t.rows.any fun row => row.id == id then .error (.notUnique "rules" "id")
  else
    let row : RuleRow :=
      { id, chain, protocol, action, enabled
        inInterface := e.inInterface.map .text
        outInterface := e.outInterface.map .text
        comment := e.comment.map .text }
    return { l with rules := some (t.push row) }

/-- A value as the column of what belongs to rules takes it. -/
def partCell : Part → Json.Value → Option Cell
  | .ports, v | .icmpTypes, v => columnCell v
  | .sources, v | .destinations, v => (columnText v).map .text

/-- A new row of what belongs to rules. -/
def editPart (part : Part) (owner : Int64) (v : Json.Value) (l : Ledger) : Except Fault Ledger :=
  let longer (rows : List (ChildRow Cell)) := do
    let cell ← filled part.table part.column (partCell part v)
    return rows ++ [⟨some owner, cell⟩]
  (changePart part longer l).map Prod.snd

/-- A new row of a table, if this is one of what belongs to rules. -/
def editChild (t : Table) (owner : Int64) (v : Json.Value) (l : Ledger) : Except Fault Ledger :=
  match Part.all.find? fun part => part.table == t with
  | some part => editPart part owner v l
  | none => .error (.noTable (Named.name t))

/-- A user with a role, in the place of a user of the same name; rows without a name are never
the same. -/
def editUser (name : Option String) (role : Option String) (l : Ledger) : Except Fault Ledger := do
  let rows ← need .users l.users
  let role ← filled .users "role" role
  let name := name.map Cell.text
  let others := rows.filter fun row => row.name.isNone || row.name != name
  return { l with users := some (others ++ [⟨name, role⟩]) }

/-- A new entry of the journal. -/
def editJournal (timestamp actor kind object details : Option String) (l : Ledger) :
    Except Fault Ledger := do
  let _ ← need .journal l.journal
  let timestamp ← filled .journal "ts" timestamp
  let actor ← filled .journal "actor" actor
  let kind ← filled .journal "action" kind
  let object ← filled .journal "object" object
  let details ← filled .journal "details" details
  let ((), l) ← appendRow ⟨timestamp, actor, kind, object, details⟩ l
  return l

/-- Overwrites all rows of the defaults; how many there are. -/
def editDefaults (input forward output logPrefix : Option String) (l : Ledger) :
    Except Fault (Nat × Ledger) := do
  let rows ← need .defaults l.defaults
  if rows.isEmpty then return (0, l)
  else
    let input ← filled .defaults "input_policy" input
    let forward ← filled .defaults "forward_policy" forward
    let output ← filled .defaults "output_policy" output
    let logPrefix ← filled .defaults "log_prefix" logPrefix
    let rows := rows.map fun row => { row with
      input := input
      forward := forward
      output := output
      logPrefix := logPrefix }
    return (rows.length, { l with defaults := some rows })

/-! ## Taking something away -/

/-- Removes the defaults; how many rows there were. -/
def removeDefaults (l : Ledger) : Except Fault (Nat × Ledger) := do
  let rows ← need .defaults l.defaults
  return (rows.length, { l with defaults := some [] })

/-- Removes the row of a rule and leaves what belongs to it; how many rows there were. -/
def removeRuleRow (id : Int64) (l : Ledger) : Except Fault (Nat × Ledger) := do
  let (found, l) ← deleteRule id l
  return (if found then 1 else 0, l)

/-- The table that stays behind a name: the one with the names of all tables, or the one with
the greatest numbers of their rows. -/
def keptTable? (name : String) : Option String :=
  if ["sqlite_master", "sqlite_schema"].contains name then some "sqlite_master"
  else if name = "sqlite_sequence" then some name
  else none

/-- Removes a table, with its index and the record of the numbers that its rows have had.  In the
names of tables capital letters count as small ones. -/
def dropTable (name : String) (l : Ledger) : Except Fault Ledger :=
  let absent : Except Fault Ledger := .error (.noTable name)
  let small := name.map Char.toLower
  match keptTable? small, (Named.ofName? small : Option Table) with
  | some kept, _ => .error (.keptTable kept)
  | none, some t =>
      if (l.size? t).isNone then absent
      else .ok { l.without t with indexes := l.indexes.filter fun part => part.table != t }
  | none, none =>
      if small = "schema_migrations" ∧ l.versions.isSome then .ok { l with versions := none }
      else absent

/-- Records that the ledger has been through the steps up to a version and no others. -/
def setVersion (v : Int) (l : Ledger) : Except Fault Ledger :=
  match l.versions with
  | none => .error (.noTable "schema_migrations")
  | some _ =>
      .ok { l with
        versions := some ([1, 2].filter (fun n => n ≤ v) ++ if 2 < v then [v] else []) }

end Ledger
end PacketPolicy
