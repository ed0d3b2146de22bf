namespace PacketPolicy
namespace Ledger

/-!
# Faults of the ledger

Why the ledger cannot do what it is asked to: a table is missing, a value breaks a rule of
its column, or a row that somebody edited by hand holds something that is no rule.

* `Fault.message` -- the wording of a fault.
-/

/-- What kind of value a cell holds. -/
inductive CellKind where
  | null
  | integer
  | real
  | text
  | blob
deriving DecidableEq, Repr, Inhabited

/-- How messages call the kinds. -/
def CellKind.word : CellKind → String
  | .null => "Null"
  | .integer => "Integer"
  | .real => "Real"
  | .text => "Text"
  | .blob => "Blob"

/-- Why the ledger cannot do what it is asked to. -/
inductive Fault where
  /-- A port that no packet can have. -/
  | portCheck
  /-- No greater number is left for a new row. -/
  | full
  | noTable (name : String)
  | tableExists (name : String)
  | indexExists (name : String)
  /-- A table that the ledger needs for itself. -/
  | keptTable (name : String)
  /-- A text in a column that is not of the form that the column has. -/
  | unreadable (column : Nat)
  /-- A whole number beyond the range of the column. -/
  | outOfRange (value : Int) (column : Nat)
  | wrongKind (found : CellKind) (column : Nat) (name : String)
  | notNull (table column : String)
  | notUnique (table column : String)
  /-- No row answers the question. -/
  | noRow
  | cannotOpen (name : String)
  /-- A file that has to stand beside that of the ledger cannot be created. -/
  | noCompanion
  /-- The file is something else. -/
  | notLedger
  /-- Nothing may be written to the ledger. -/
  | readOnly
  /-- The name has a character in it, behind so many bytes, that ends texts for the system. -/
  | brokenName (position : Nat)
  | badHost (name : String)
  | noMode (option mode : String)
  | noDriver (name : String)
deriving DecidableEq, Repr, Inhabited

/-- The wording of a fault. -/
def Fault.message : Fault → String
  | .portCheck => "CHECK constraint failed: port BETWEEN 1 AND 65535"
  | .full => "database or disk is full"
  | .noTable name => "no such table: " ++ name
  | .tableExists name => "table " ++ name ++ " already exists"
  | .indexExists name => "index " ++ name ++ " already exists"
  | .keptTable name => "table " ++ name ++ " may not be dropped"
  | .unreadable column => "Conversion error from type Text at index: " ++ toString column
  | .outOfRange value column =>
      "Integer " ++ toString value ++ " out of range at index " ++ toString column
  | .wrongKind found column name =>
      "Invalid column type " ++ found.word ++ " at index: " ++ toString column ++ ", name: " ++ name
  | .notNull table column => "NOT NULL constraint failed: " ++ table ++ "." ++ column
  | .notUnique table column => "UNIQUE constraint failed: " ++ table ++ "." ++ column
  | .noRow => "Query returned no rows"
  | .cannotOpen name => "unable to open database file: " ++ name
  | .noCompanion => "unable to open database file"
  | .notLedger => "file is not a database"
  | .readOnly => "attempt to write a readonly database"
  | .brokenName position => "nul byte found in provided data at position: " ++ toString position
  | .badHost name => "invalid uri authority: " ++ name
  | .noMode option mode => "no such " ++ option ++ " mode: " ++ mode
  | .noDriver name => "no such vfs: " ++ name

end Ledger
end PacketPolicy
