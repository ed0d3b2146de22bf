import PacketPolicy.Ledger.Table

namespace PacketPolicy
namespace Ledger

/-!
# Statements

The single steps of transactions: each reads or changes one table and fails when the table
is missing or when a value breaks a rule of its column.
-/

/-- A table that has to be there. -/
def need {α : Type} (t : Table) : Option α → Except Fault α
  | some rows => .ok rows
  | none => .error (.noTable (Named.name t))

/-! ## Rules -/

/-- The greatest number that a row can have. -/
def greatestId : Int := 9223372036854775807

/-- The greatest number among the rows of a table, if it is greater than `start`. -/
def RuleTable.greatest (t : RuleTable) : Int :=
  t.rows.foldl (fun n row => max n row.id.toInt) t.highest

/-- The number of the next row: one more than any row has ever had. -/
def RuleTable.next? (t : RuleTable) : Except Fault Int64 :=
  if t.greatest < greatestId then .ok (Int64.ofInt (t.greatest + 1)) else .error .full

/-- The table with one more row. -/
def RuleTable.push (t : RuleTable) (row : RuleRow) : RuleTable where
  rows := t.rows ++ [row]
  highest := max t.highest row.id.toInt

/-- Stores the row of a rule under a new number. -/
def insertRule (r : Rule) (l : Ledger) : Except Fault (Int64 × Ledger) := do
  let t ← need .rules l.rules
  let id ← t.next?
  return (id, { l with rules := some (t.push (.ofRule id r)) })

/-- Removes the row of a rule; whether there was one. -/
def deleteRule (id : Int64) (l : Ledger) : Except Fault (Bool × Ledger) := do
  let t ← need .rules l.rules
  let rows := t.rows.filter fun row => row.id != id
  return (rows.length != t.rows.length, { l with rules := some { t with rows } })

/-- Removes all rules. -/
def clearRules (l : Ledger) : Except Fault (Unit × Ledger) := do
  let t ← need .rules l.rules
  return ((), { l with rules := some { t with rows := [] } })

/-- The rules in ascending order of their numbers, or only those whose mark is one. -/
def ruleRows (onlyEnabled : Bool) (l : Ledger) : Except Fault (List Rule) := do
  let t ← need .rules l.rules
  let selected :=
    if onlyEnabled then t.rows.filter fun row => row.enabled == truthCell true else t.rows
  (selected.mergeSort fun a b => a.id ≤ b.id).mapM RuleRow.rule?

/-! ## What belongs to rules -/

/-- Changes the rows of what belongs to rules. -/
def changePart (part : Part)
    (f : List (ChildRow Cell) → Except Fault (List (ChildRow Cell))) (l : Ledger) :
    Except Fault (Unit × Ledger) := do
  let rows ← need part.table (l.rows? part)
  let rows ← f rows
  return ((), l.withRows rows part)

/-- One more row for a rule, unless its column refuses the value. -/
def insertPart (part : Part) (owner : Int64) (value : Except Fault Cell) :
    Ledger → Except Fault (Unit × Ledger) :=
  changePart part fun rows => value.map fun cell => rows ++ [⟨some owner, cell⟩]

/-- No packet has the port zero. -/
def portCell (port : UInt16) : Except Fault Cell :=
  if port = 0 then .error .portCheck else .ok (.integer (Int64.ofNat port.toNat))

def insertPort (owner : Int64) (port : UInt16) : Ledger → Except Fault (Unit × Ledger) :=
  insertPart .ports owner (portCell port)

def insertSource (owner : Int64) (s : String) : Ledger → Except Fault (Unit × Ledger) :=
  insertPart .sources owner (.ok (.text s))

def insertDestination (owner : Int64) (s : String) : Ledger → Except Fault (Unit × Ledger) :=
  insertPart .destinations owner (.ok (.text s))

def insertIcmpType (owner : Int64) (t : UInt8) : Ledger → Except Fault (Unit × Ledger) :=
  insertPart .icmpTypes owner (.ok (.integer (Int64.ofNat t.toNat)))

/-- The rows that `keep` keeps, by the number of their rule. -/
def keepChildren {α : Type} (keep : Option Int64 → Bool) (rows : List (ChildRow α)) :
    List (ChildRow α) :=
  rows.filter fun row => keep row.owner

/-- Removes the rows that `keep` does not keep. -/
def keepPart (keep : Option Int64 → Bool) (part : Part) :
    Ledger → Except Fault (Unit × Ledger) :=
  changePart part fun rows => .ok (keepChildren keep rows)

/-- The values that belong to a rule, in the order in which they were stored. -/
def valuesOf {α : Type} (owner : Int64) (rows : List (ChildRow α)) : List α :=
  (rows.filter fun row => row.owner == some owner).map ChildRow.value

/-- What belongs to a rule, value by value. -/
def partOf {α : Type} (part : Part) (read : Cell → Except Fault α) (owner : Int64) (l : Ledger) :
    Except Fault (List α) := do
  let rows ← need part.table (l.rows? part)
  (valuesOf owner rows).mapM read

def portsOf : Int64 → Ledger → Except Fault (List UInt16) :=
  partOf .ports portOfCell

def sourcesOf : Int64 → Ledger → Except Fault (List String) :=
  partOf .sources prefixOfCell

def destinationsOf : Int64 → Ledger → Except Fault (List String) :=
  partOf .destinations prefixOfCell

def icmpTypesOf : Int64 → Ledger → Except Fault (List UInt8) :=
  partOf .icmpTypes icmpTypeOfCell

/-! ## Defaults, users, journal -/

/-- The defaults, if their row is there. -/
def defaultsRow (l : Ledger) : Except Fault (Option Defaults) := do
  let rows ← need .defaults l.defaults
  match rows.find? fun row => row.id == defaultsId with
  | some row => return some (← row.defaults?)
  | none => return none

/-- Overwrites the defaults in their place; if their row is missing, they get a new one. -/
def writeDefaults (d : Defaults) (l : Ledger) : Except Fault (Unit × Ledger) := do
  let rows ← need .defaults l.defaults
  let row := DefaultsRow.ofDefaults d
  let rows :=
    if rows.any fun row => row.id == defaultsId then
      rows.map fun old => if old.id == defaultsId then row else old
    else rows ++ [row]
  return ((), { l with defaults := some rows })

/-- The name of a user's role. -/
def roleOf (name : String) (l : Ledger) : Except Fault (Option String) := do
  let rows ← need .users l.users
  let row := rows.find? fun row => row.name == some (.text name)
  row.mapM fun row => textOfCell 0 "role" row.role

/-- One more entry of the journal. -/
def appendRow (row : JournalRow) (l : Ledger) : Except Fault (Unit × Ledger) := do
  let t ← need .journal l.journal
  if t.highest < greatestId then
    return ((), { l with journal := some ⟨t.rows ++ [row], t.highest + 1⟩ })
  else .error .full

/-- The last entries of the journal, newest first. -/
def lastEvents (limit : Nat) (l : Ledger) : Except Fault (List Event) := do
  let t ← need .journal l.journal
  (t.rows.reverse.take limit).mapM JournalRow.event?

end Ledger
end PacketPolicy
