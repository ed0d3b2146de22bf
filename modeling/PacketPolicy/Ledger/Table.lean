import PacketPolicy.Journal.Event
import PacketPolicy.Ledger.Fault
import PacketPolicy.Policy.Rule

namespace PacketPolicy

/-!
# The ledger

The ledger keeps the policy, the users with their roles, and the journal in tables.  A rule
takes one row of the table of rules; its ports, prefixes and message types are rows of four
further tables, in the order in which they were stored, each with the number of its rule.

Any table may be missing, and rows may hold what no rule, no user and no entry of the journal
has, because somebody may have edited the ledger by hand.  A `Cell` is what a column holds then.

* `Ledger` -- the tables; `Ledger.blank` has none of them;
* `Table` -- the names of the tables; `Ledger.size?` counts rows;
* `Part` -- the tables of what belongs to rules; `Ledger.rows?`, `Ledger.withRows` -- their rows;
* `Cell` -- what a column holds;
* `RuleRow.rule?`, `portOfCell`, ... -- what a row stands for, if it stands for anything.
-/

/-- The names of the tables, apart from the one that the migrations keep for themselves. -/
inductive Table where
  | defaults
  | rules
  | ports
  | sources
  | destinations
  | icmpTypes
  | users
  | journal
deriving DecidableEq, Repr, Inhabited

instance : Named Table where
  all := [.defaults, .rules, .ports, .sources, .destinations, .icmpTypes, .users, .journal]
  name
    | .defaults => "defaults"
    | .rules => "rules"
    | .ports => "rule_port"
    | .sources => "rule_src_cidr"
    | .destinations => "rule_dst_cidr"
    | .icmpTypes => "rule_icmp_type"
    | .users => "users"
    | .journal => "audit_log"
  mem_all a := by cases a <;> simp
  name_injective a b := by cases a <;> cases b <;> simp

/-- The tables of what belongs to rules. -/
inductive Part where
  | ports
  | sources
  | destinations
  | icmpTypes
deriving DecidableEq, Repr, Inhabited

namespace Part

def all : List Part :=
  [ports, sources, destinations, icmpTypes]

def table : Part → Table
  | ports => .ports
  | sources => .sources
  | destinations => .destinations
  | icmpTypes => .icmpTypes

/-- The name of the column that holds what belongs to a rule. -/
def column : Part → String
  | ports => "port"
  | sources | destinations => "cidr"
  | icmpTypes => "itype"

/-- The name of the index by the numbers of the rules. -/
def index (part : Part) : String :=
  Named.name part.table ++ "_rule_id"

end Part

instance : Named Part where
  all := Part.all
  name part := Named.name part.table
  mem_all a := by cases a <;> simp [Part.all]
  name_injective a b := by cases a <;> cases b <;> simp [Part.table, Named.name]

namespace Ledger

/-- What a column holds: a text or a whole number, as the column has it, unless somebody put
something else there. -/
inductive Cell where
  | integer (n : Int64)
  | real (bits : UInt64)
  | text (s : String)
  /-- A text whose bytes are no characters. -/
  | garbled (bytes : List UInt8)
  | blob (bytes : List UInt8)
deriving DecidableEq, Repr, Inhabited

instance : Coe String Cell := ⟨.text⟩

def Cell.kind : Cell → CellKind
  | integer _ => .integer
  | real _ => .real
  | text _ => .text
  | garbled _ => .text
  | blob _ => .blob

/-- A row of the defaults. -/
structure DefaultsRow where
  id : Int64
  input : Cell
  forward : Cell
  output : Cell
  logPrefix : Cell
deriving DecidableEq, Repr, Inhabited

/-- A row of the rules. -/
structure RuleRow where
  id : Int64
  chain : Cell
  protocol : Cell
  action : Cell
  inInterface : Option Cell
  outInterface : Option Cell
  comment : Option Cell
  enabled : Cell
deriving DecidableEq, Repr, Inhabited

/-- A row that belongs to a rule. -/
structure ChildRow (α : Type) where
  /-- The number of the rule, unless somebody put something else there that is no number. -/
  owner : Option Int64
  value : α
deriving DecidableEq, Repr, Inhabited

structure UserRow where
  /-- The name; a row without one is about nobody. -/
  name : Option Cell
  role : Cell
deriving DecidableEq, Repr, Inhabited

/-- A row of the journal. -/
structure JournalRow where
  timestamp : Cell
  actor : Cell
  kind : Cell
  object : Cell
  details : Cell
deriving DecidableEq, Repr, Inhabited

/-- The rules, and the greatest number that a rule has ever had. -/
structure RuleTable where
  rows : List RuleRow
  highest : Int
deriving DecidableEq, Repr, Inhabited

/-- The journal, oldest entry first, and the number of its last entry. -/
structure JournalTable where
  rows : List JournalRow
  highest : Int
deriving DecidableEq, Repr, Inhabited

end Ledger

open Ledger in
/-- The tables; one that is missing is none. -/
structure Ledger where
  /-- The versions to which the tables have been brought. -/
  versions : Option (List Int)
  defaults : Option (List DefaultsRow)
  rules : Option RuleTable
  ports : Option (List (ChildRow Cell))
  sources : Option (List (ChildRow Cell))
  destinations : Option (List (ChildRow Cell))
  icmpTypes : Option (List (ChildRow Cell))
  users : Option (List UserRow)
  journal : Option JournalTable
  /-- The tables of what belongs to rules that have their index. -/
  indexes : List Part
deriving DecidableEq, Repr, Inhabited

namespace Ledger

/-- A ledger without tables. -/
def blank : Ledger where
  versions := none
  defaults := none
  rules := none
  ports := none
  sources := none
  destinations := none
  icmpTypes := none
  users := none
  journal := none
  indexes := []

/-- The number of rows of a table, if the ledger has it. -/
def size? (l : Ledger) : Table → Option Nat
  | .defaults => l.defaults.map List.length
  | .rules => l.rules.map fun t => t.rows.length
  | .ports => l.ports.map List.length
  | .sources => l.sources.map List.length
  | .destinations => l.destinations.map List.length
  | .icmpTypes => l.icmpTypes.map List.length
  | .users => l.users.map List.length
  | .journal => l.journal.map fun t => t.rows.length

/-- The ledger without one of its tables. -/
def without (l : Ledger) : Table → Ledger
  | .defaults => { l with defaults := none }
  | .rules => { l with rules := none }
  | .ports => { l with ports := none }
  | .sources => { l with sources := none }
  | .destinations => { l with destinations := none }
  | .icmpTypes => { l with icmpTypes := none }
  | .users => { l with users := none }
  | .journal => { l with journal := none }

/-- The rows of what belongs to rules. -/
def rows? (l : Ledger) : Part → Option (List (ChildRow Cell))
  | .ports => l.ports
  | .sources => l.sources
  | .destinations => l.destinations
  | .icmpTypes => l.icmpTypes

/-- The ledger with other rows in a table of what belongs to rules. -/
def withRows (l : Ledger) (rows : List (ChildRow Cell)) : Part → Ledger
  | .ports => { l with ports := some rows }
  | .sources => { l with sources := some rows }
  | .destinations => { l with destinations := some rows }
  | .icmpTypes => { l with icmpTypes := some rows }

/-! ## What rows stand for -/

/-- The text that a column holds. -/
def textOfCell (column : Nat) (name : String) : Cell → Except Fault String
  | .text s => .ok s
  | .garbled _ => .error (.unreadable column)
  | c => .error (.wrongKind c.kind column name)

/-- The text that a column holds which may be empty. -/
def textOfCell? (column : Nat) (name : String) : Option Cell → Except Fault (Option String)
  | none => .ok none
  | some c => (textOfCell column name c).map some

/-- The member of a name that a column of texts holds. -/
def nameOfColumn {α : Type} [Named α] (column : Nat) (s : String) : Except Fault α :=
  match Named.ofName? s with
  | some a => .ok a
  | none => .error (.unreadable column)

/-- The member of the name in a cell. -/
def nameOfCell {α : Type} [Named α] (column : Nat) (name : String) (c : Cell) : Except Fault α := do
  let s ← textOfCell column name c
  nameOfColumn column s

/-- A truth value is a whole number; all but zero are true. -/
def truthOfCell (column : Nat) (name : String) : Cell → Except Fault Bool
  | .integer n => .ok (n ≠ 0)
  | c => .error (.wrongKind c.kind column name)

/-- A whole number of at most `greatest`. -/
def numberOfCell (greatest : Nat) (column : Nat) (name : String) : Cell → Except Fault Nat
  | .integer n =>
      if 0 ≤ n.toInt ∧ n.toInt ≤ greatest then .ok n.toInt.toNat
      else .error (.outOfRange n.toInt column)
  | c => .error (.wrongKind c.kind column name)

def portOfCell (c : Cell) : Except Fault UInt16 :=
  (numberOfCell 65535 0 "port" c).map Nat.toUInt16

def prefixOfCell (c : Cell) : Except Fault String :=
  textOfCell 0 "cidr" c

def icmpTypeOfCell (c : Cell) : Except Fault UInt8 :=
  (numberOfCell 255 0 "itype" c).map Nat.toUInt8

/-- The rule of a row, without what the other tables hold of it. -/
def RuleRow.rule? (row : RuleRow) : Except Fault Rule := do
  let chain ← nameOfCell 1 "chain" row.chain
  let protocol ← nameOfCell 2 "proto" row.protocol
  let action ← nameOfCell 3 "action" row.action
  let inInterface ← textOfCell? 4 "in_if" row.inInterface
  let outInterface ← textOfCell? 5 "out_if" row.outInterface
  let comment ← textOfCell? 6 "comment" row.comment
  let enabled ← truthOfCell 7 "enabled" row.enabled
  return {
    id := row.id
    chain, protocol, action, inInterface, outInterface
    ports := []
    sources := []
    destinations := []
    icmpTypes := []
    comment, enabled }

/-- The defaults of a row. -/
def DefaultsRow.defaults? (row : DefaultsRow) : Except Fault Defaults := do
  let input ← nameOfCell 0 "input_policy" row.input
  let forward ← nameOfCell 1 "forward_policy" row.forward
  let output ← nameOfCell 2 "output_policy" row.output
  let logPrefix ← textOfCell 3 "log_prefix" row.logPrefix
  return { input, forward, output, logPrefix }

/-- What the text of a column stands for. -/
def parsed {ε α : Type} (column : Nat) : Except ε α → Except Fault α
  | .ok a => .ok a
  | .error _ => .error (.unreadable column)

/-- The event of a row.  All texts that stand for something else are fetched before the first of
them is read. -/
def JournalRow.event? (row : JournalRow) : Except Fault Event := do
  let moment ← textOfCell 0 "ts" row.timestamp
  let word ← textOfCell 2 "action" row.kind
  let document ← textOfCell 4 "details" row.details
  let timestamp ← parsed 0 (Timestamp.readStrict moment)
  let actor ← textOfCell 1 "actor" row.actor
  let kind ← nameOfColumn 2 word
  let object ← textOfCell 3 "object" row.object
  let details ← parsed 4 (Json.Value.ofText document)
  return { timestamp, actor, kind, object, details }

/-! ## What is written into rows -/

/-- The number of the row that holds the defaults. -/
def defaultsId : Int64 := 1

/-- A truth value as a whole number. -/
def truthCell (b : Bool) : Cell :=
  .integer (if b then 1 else 0)

/-- The row of a rule under a number. -/
def RuleRow.ofRule (id : Int64) (r : Rule) : RuleRow where
  id := id
  chain := .text (Named.name r.chain)
  protocol := .text (Named.name r.protocol)
  action := .text (Named.name r.action)
  inInterface := r.inInterface.map .text
  outInterface := r.outInterface.map .text
  comment := r.comment.map .text
  enabled := truthCell r.enabled

/-- The row of the defaults. -/
def DefaultsRow.ofDefaults (d : Defaults) : DefaultsRow where
  id := defaultsId
  input := Named.name d.input
  forward := Named.name d.forward
  output := Named.name d.output
  logPrefix := d.logPrefix

/-- The row of an event. -/
def JournalRow.ofEvent (e : Event) : JournalRow where
  timestamp := e.timestamp.offsetText
  actor := e.actor
  kind := Named.name e.kind
  object := e.object
  details := e.details.compact

end Ledger
end PacketPolicy
