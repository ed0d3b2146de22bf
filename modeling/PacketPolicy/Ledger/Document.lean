import PacketPolicy.Json.Decode
import PacketPolicy.Ledger.Table
import PacketPolicy.Text.Utf8

namespace PacketPolicy
namespace Ledger

/-!
# Ledgers as documents

The document in which a ledger is kept in a file: an object with a member for each table,
which is the null value where the table is missing, and one with the tables that have their index.
A row is the list of its columns.

* `Ledger.reader`, `Ledger.ofBytes?` -- reading;
* `Ledger.value`, `Ledger.toBytes` -- writing.
-/

open Json Reader Record

/-! ## Reading -/

/-- The greatest number that a row can have had. -/
def rowNumber : Json.Reader Int :=
  within 0 9223372036854775807 "i64"

/-- What a column holds.  Bytes are numbers in a list, those of a text that is none in an
object. -/
def Cell.reader : Json.Reader Cell
  | _, .number (.floating bits) => .ok (.real bits)
  | _, .string s => .ok (.text s)
  | source, .array items e => (list word8 source (.array items e)).map .blob
  | source, .object members e =>
      (Cell.garbled <$> required "text" (list word8)).reader "a text" source (.object members e)
  | source, t => (signed64 source t).map .integer

def DefaultsRow.reader : Json.Reader DefaultsRow :=
  (DefaultsRow.mk <$> required "id" signed64 <*> required "input_policy" Cell.reader
    <*> required "forward_policy" Cell.reader <*> required "output_policy" Cell.reader
    <*> required "log_prefix" Cell.reader).reader "a row of the defaults"

def RuleRow.reader : Json.Reader RuleRow :=
  (RuleRow.mk <$> required "id" signed64 <*> required "chain" Cell.reader
    <*> required "proto" Cell.reader <*> required "action" Cell.reader
    <*> required "in_if" (optional Cell.reader) <*> required "out_if" (optional Cell.reader)
    <*> required "comment" (optional Cell.reader)
    <*> required "enabled" Cell.reader).reader "a row of the rules"

def ChildRow.reader {α : Type} (column : String) (r : Json.Reader α) : Json.Reader (ChildRow α) :=
  (ChildRow.mk <$> required "rule_id" (optional signed64) <*> required column r).reader
    "a row of a rule"

/-- The rows of what belongs to rules. -/
def partReader (part : Part) : Json.Reader (List (ChildRow Cell)) :=
  list (ChildRow.reader part.column Cell.reader)

def UserRow.reader : Json.Reader UserRow :=
  (UserRow.mk <$> required "name" (optional Cell.reader) <*> required "role" Cell.reader).reader
    "a row of the users"

def JournalRow.reader : Json.Reader JournalRow :=
  (JournalRow.mk <$> required "ts" Cell.reader <*> required "actor" Cell.reader
    <*> required "action" Cell.reader <*> required "object" Cell.reader
    <*> required "details" Cell.reader).reader "a row of the journal"

def RuleTable.reader : Json.Reader RuleTable :=
  (RuleTable.mk <$> required "rows" (list RuleRow.reader) <*> required "highest" rowNumber).reader
    "a table of rules"

def JournalTable.reader : Json.Reader JournalTable :=
  (JournalTable.mk <$> required "rows" (list JournalRow.reader)
    <*> required "highest" rowNumber).reader "a journal"

/-- Reads a ledger. -/
def reader : Json.Reader Ledger :=
  (Ledger.mk
    <$> required "schema_migrations"
      (optional (list (within (-9223372036854775808) 9223372036854775807 "i64")))
    <*> required "defaults" (optional (list DefaultsRow.reader))
    <*> required "rules" (optional RuleTable.reader)
    <*> required "rule_port" (optional (partReader .ports))
    <*> required "rule_src_cidr" (optional (partReader .sources))
    <*> required "rule_dst_cidr" (optional (partReader .destinations))
    <*> required "rule_icmp_type" (optional (partReader .icmpTypes))
    <*> required "users" (optional (list UserRow.reader))
    <*> required "audit_log" (optional JournalTable.reader)
    <*> required "indexes" (list named)).reader "a ledger"

/-- The ledger that the bytes of a file hold; no bytes are a ledger without tables. -/
def ofBytes? (bytes : ByteArray) : Option Ledger :=
  if bytes.isEmpty then some blank
  else (Text.ofBytes? bytes).bind fun s => (Json.Reader.ofText reader s).toOption

/-! ## Writing -/

/-- Bytes as numbers in a list. -/
def bytesValue (bytes : List UInt8) : Json.Value :=
  .array (bytes.map fun b => .ofNat b.toNat)

def Cell.value : Cell → Json.Value
  | integer n => .ofInt n.toInt
  | real bits => .number (.floating bits)
  | text s => .string s
  | garbled bytes => .object [("text", bytesValue bytes)]
  | blob bytes => bytesValue bytes

/-- The null value stands for an empty column. -/
def Cell.value? : Option Cell → Json.Value
  | none => .null
  | some c => c.value

def DefaultsRow.value (row : DefaultsRow) : Json.Value :=
  .array [.ofInt row.id.toInt, row.input.value, row.forward.value, row.output.value,
    row.logPrefix.value]

def RuleRow.value (row : RuleRow) : Json.Value :=
  .array [.ofInt row.id.toInt, row.chain.value, row.protocol.value, row.action.value,
    Cell.value? row.inInterface, Cell.value? row.outInterface, Cell.value? row.comment,
    row.enabled.value]

def ChildRow.valueBy {α : Type} (f : α → Json.Value) (row : ChildRow α) : Json.Value :=
  .array [row.owner.elim .null fun id => .ofInt id.toInt, f row.value]

def UserRow.value (row : UserRow) : Json.Value :=
  .array [Cell.value? row.name, row.role.value]

def JournalRow.value (row : JournalRow) : Json.Value :=
  .array [row.timestamp.value, row.actor.value, row.kind.value, row.object.value,
    row.details.value]

def RuleTable.value (t : RuleTable) : Json.Value :=
  .array [.array (t.rows.map RuleRow.value), .ofInt t.highest]

def JournalTable.value (t : JournalTable) : Json.Value :=
  .array [.array (t.rows.map JournalRow.value), .ofInt t.highest]

/-- The null value stands for a missing table. -/
def tableValue {α : Type} (f : α → Json.Value) : Option α → Json.Value
  | none => .null
  | some a => f a

/-- Rows as a list. -/
def rowsValue {α : Type} (f : α → Json.Value) : Option (List α) → Json.Value :=
  tableValue fun rows => .array (rows.map f)

/-- The ledger as an object. -/
def value (l : Ledger) : Json.Value :=
  .object
    [("schema_migrations", rowsValue .ofInt l.versions),
      ("defaults", rowsValue DefaultsRow.value l.defaults),
      ("rules", tableValue RuleTable.value l.rules),
      ("rule_port", rowsValue (ChildRow.valueBy Cell.value) l.ports),
      ("rule_src_cidr", rowsValue (ChildRow.valueBy Cell.value) l.sources),
      ("rule_dst_cidr", rowsValue (ChildRow.valueBy Cell.value) l.destinations),
      ("rule_icmp_type", rowsValue (ChildRow.valueBy Cell.value) l.icmpTypes),
      ("users", rowsValue UserRow.value l.users),
      ("audit_log", tableValue JournalTable.value l.journal),
      ("indexes", .array (l.indexes.map fun part => .string (Named.name part)))]

/-- The bytes of the file of a ledger. -/
def toBytes (l : Ledger) : ByteArray :=
  Text.toBytes (l.value.compact ++ "\n")

end Ledger
end PacketPolicy
