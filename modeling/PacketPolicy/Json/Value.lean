import PacketPolicy.Json.Number

namespace PacketPolicy
namespace Json

/-!
# Values of documents

The values that documents hold, and how they are written.

* `Value.ofMembers` -- an object whose names are in ascending order, the last of several
  members of one name being the one that counts;
* `Value.compact` -- a value without any blanks;
* `Value.indented` -- a value with each member and each item on a line of its own.

Members of an object are kept in the order in which they are given and written.
-/

/-- A value of a document. -/
inductive Value where
  | null
  | bool (b : Bool)
  | number (n : Number)
  | string (s : String)
  | array (items : List Value)
  | object (members : List (String × Value))
deriving Inhabited, Repr

namespace Value

/-- A whole number as a value; one beyond sixty-four bits has no numeral of its own and
is given as the null value. -/
def ofInt (n : Int) : Value :=
  match Integer.of? n with
  | some i => .number (.integer i)
  | none => .null

def ofNat (n : Nat) : Value := ofInt n

/-- The text, or the null value where there is none. -/
def ofString? : Option String → Value
  | none => .null
  | some s => .string s

/-- Members in ascending order with one more; one of the same name gives way. -/
def insertMember (name : String) (v : Value) : List (String × Value) → List (String × Value)
  | [] => [(name, v)]
  | (other, w) :: rest =>
      if name < other then (name, v) :: (other, w) :: rest
      else if name = other then (name, v) :: rest
      else (other, w) :: insertMember name v rest

/-- Members in ascending order of their names. -/
def sortedMembers (members : List (String × Value)) : List (String × Value) :=
  members.foldl (fun sorted (name, v) => insertMember name v sorted) []

/-- The object of these members, in ascending order of their names. -/
def ofMembers (members : List (String × Value)) : Value :=
  .object (sortedMembers members)

/-- The value of a member. -/
def get? (v : Value) (name : String) : Option Value :=
  match v with
  | .object members => (members.find? fun m => m.1 == name).map Prod.snd
  | _ => none

/-! ## Writing -/

/-- The digit for a number below sixteen. -/
def hexChar (n : Nat) : Char :=
  Nat.digitChar n

/-- A character between quotation marks. -/
def escape (c : Char) : List Char :=
  if c = '"' then ['\\', '"']
  else if c = '\\' then ['\\', '\\']
  else if c = '\x08' then ['\\', 'b']
  else if c = '\x0c' then ['\\', 'f']
  else if c = '\n' then ['\\', 'n']
  else if c = '\r' then ['\\', 'r']
  else if c = '\t' then ['\\', 't']
  else if c.toNat < 0x20 then
    ['\\', 'u', '0', '0', hexChar (c.toNat / 16), hexChar (c.toNat % 16)]
  else [c]

/-- A text between quotation marks. -/
def quoted (s : String) : List Char :=
  '"' :: (s.toList.flatMap escape ++ ['"'])

/-- The value without any blanks. -/
def compactChars : Value → List Char
  | .null => ['n', 'u', 'l', 'l']
  | .bool true => ['t', 'r', 'u', 'e']
  | .bool false => ['f', 'a', 'l', 's', 'e']
  | .number n => n.text.toList
  | .string s => quoted s
  | .array items => '[' :: (compactItems items ++ [']'])
  | .object members => '{' :: (compactMembers members ++ ['}'])
where
  /-- Items with commas between them. -/
  compactItems : List Value → List Char
    | [] => []
    | [v] => v.compactChars
    | v :: w :: rest => v.compactChars ++ ',' :: compactItems (w :: rest)
  /-- Members with commas between them. -/
  compactMembers : List (String × Value) → List Char
    | [] => []
    | [(name, v)] => quoted name ++ ':' :: v.compactChars
    | (name, v) :: m :: rest =>
        quoted name ++ ':' :: (v.compactChars ++ ',' :: compactMembers (m :: rest))

/-- The value without any blanks. -/
def compact (v : Value) : String :=
  String.ofList v.compactChars

/-- A line feed and two blanks for each level. -/
def newLine (level : Nat) : List Char :=
  '\n' :: List.replicate (2 * level) ' '

/-- The value with each member and each item on a line of its own, two blanks further in
than what it belongs to; an empty list or object stays on one line. -/
def indentedChars (level : Nat) : Value → List Char
  | .array [] => ['[', ']']
  | .array (v :: items) =>
      '[' :: (newLine (level + 1) ++ indentedChars (level + 1) v ++
        indentedItems (level + 1) items ++ newLine level ++ [']'])
  | .object [] => ['{', '}']
  | .object ((name, v) :: members) =>
      '{' :: (newLine (level + 1) ++ quoted name ++ ':' :: ' ' :: indentedChars (level + 1) v ++
        indentedMembers (level + 1) members ++ newLine level ++ ['}'])
  | v => v.compactChars
where
  /-- The items after the first one, each with a comma in front. -/
  indentedItems (level : Nat) : List Value → List Char
    | [] => []
    | v :: rest => ',' :: (newLine level ++ indentedChars level v ++ indentedItems level rest)
  /-- The members after the first one, each with a comma in front. -/
  indentedMembers (level : Nat) : List (String × Value) → List Char
    | [] => []
    | (name, v) :: rest =>
        ',' :: (newLine level ++ quoted name ++ ':' :: ' ' :: indentedChars level v ++
          indentedMembers level rest)

/-- The value in lines. -/
def indented (v : Value) : String :=
  String.ofList (v.indentedChars 0)

end Value
end Json
end PacketPolicy
