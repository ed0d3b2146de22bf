import PacketPolicy.Json.Tree
import PacketPolicy.Json.Value
import PacketPolicy.Policy.Vocabulary
import PacketPolicy.Text.Quoted
import PacketPolicy.Time.Timestamp

namespace PacketPolicy
namespace Json

/-!
# Reading typed values from documents

A `Reader` turns the tree of a document into a value of some type, or names the first
`Problem` that a reader comes upon who goes through the document from its front.  That
may be a value of the wrong kind or a place where the text goes wrong, whichever stands
first.

* `text`, `boolean`, `within`, `optional`, `list`, `named`, `timestamp`, `anyValue` --
  readers of single values;
* `Record` -- the fields of a structure, each declared once, with
  `Record.required` and `Record.defaulted`; `Record.reader` reads them from an object, or
  from a list of their values in the order of their declaration;
* `Reader.ofText`, `Reader.ofValue` -- reading a whole text, or a value that has been read
  before.

Members of an object that no field is named after are passed over.
-/

/-! ## Problems -/

/-- What a document has where something else was wanted. -/
inductive Found where
  | null
  | bool (b : Bool)
  | number (n : Number)
  | string (s : String)
  | list
  | object
deriving DecidableEq, Repr, Inhabited

/-- How messages name what they found. -/
def Found.text : Found → String
  | .null => "null"
  | .bool b => "boolean `" ++ toString b ++ "`"
  | .number (.integer n) => "integer `" ++ toString n.val ++ "`"
  | .number n => "floating point `" ++ n.text ++ "`"
  | .string s => "string " ++ Text.quoted s
  | .list => "sequence"
  | .object => "map"

/-- How the shape of a document differs from the wanted one. -/
inductive Mismatch where
  | kind (found : Found) (wanted : String)
  | outOfRange (n : Integer) (wanted : String)
  /-- An object in the place of a name has none or several members. -/
  | severalNames
  | missingField (name : String)
  | duplicateField (name : String)
  | unknownName (given : String) (known : List String)
  | length (n : Nat) (wanted : String)
  | timestamp (fault : Timestamp.Fault)
deriving DecidableEq, Repr, Inhabited

/-- Names that are offered for choice. -/
def choiceText (names : List String) : String :=
  match names with
  | [] => "there are no variants"
  | [a] => "expected `" ++ a ++ "`"
  | [a, b] => "expected `" ++ a ++ "` or `" ++ b ++ "`"
  | _ => "expected one of " ++ ", ".intercalate (names.map fun n => "`" ++ n ++ "`")

/-- The wording of a mismatch. -/
def Mismatch.message : Mismatch → String
  | .kind found wanted => "invalid type: " ++ found.text ++ ", expected " ++ wanted
  | .outOfRange n wanted =>
      "invalid value: " ++ (Found.number (.integer n)).text ++ ", expected " ++ wanted
  | .severalNames => "invalid value: map, expected map with a single key"
  | .missingField name => "missing field `" ++ name ++ "`"
  | .duplicateField name => "duplicate field `" ++ name ++ "`"
  | .unknownName given known => "unknown variant `" ++ given ++ "`, " ++ choiceText known
  | .length n wanted => "invalid length " ++ toString n ++ ", expected " ++ wanted
  | .timestamp fault => fault.message

/-- The first thing that is wrong with a document. -/
inductive Problem where
  /-- A well-formed document of the wrong shape. -/
  | mismatch (m : Mismatch)
  /-- A text that is no document. -/
  | text (fault : Fault)
deriving DecidableEq, Repr, Inhabited

/-- Where a tree comes from. -/
inductive Source where
  | text
  /-- A value that has been read before; its trees are whole. -/
  | value
deriving DecidableEq, Repr, Inhabited

/-- A way of reading values of a type. -/
def Reader (α : Type) : Type :=
  Source → Tree → Except Problem α

/-- Nothing, unless there is a problem. -/
def unless? : Option Problem → Except Problem Unit
  | none => .ok ()
  | some p => .error p

/-- The problem of a reader who wanted something else. -/
def Tree.refuse (wanted : String) : Tree → Problem
  | .null => .mismatch (.kind .null wanted)
  | .bool b => .mismatch (.kind (.bool b) wanted)
  | .number n => .mismatch (.kind (.number n) wanted)
  | .string s => .mismatch (.kind (.string s) wanted)
  | .array _ _ => .mismatch (.kind .list wanted)
  | .object _ _ => .mismatch (.kind .object wanted)
  | .brokenString read _ => .text read
  | .broken read _ => .text read
  | .missing => .text .incomplete

/-! ## Single values -/

namespace Reader

/-- A string. -/
def text : Reader String
  | _, .string s => .ok s
  | _, t => .error (t.refuse "a string")

/-- A string that names a file. -/
def path : Reader String
  | _, .string s => .ok s
  | _, t => .error (t.refuse "path string")

/-- A truth value. -/
def boolean : Reader Bool
  | _, .bool b => .ok b
  | _, t => .error (t.refuse "a boolean")

/-- A whole number in a range. -/
def within (least greatest : Int) (wanted : String) : Reader Int
  | _, .number (.integer n) =>
      if least ≤ n.val ∧ n.val ≤ greatest then .ok n.val
      else .error (.mismatch (.outOfRange n wanted))
  | _, t => .error (t.refuse wanted)

/-- The same reader of another type. -/
def map {α β : Type} (f : α → β) (r : Reader α) : Reader β :=
  fun source t => (r source t).map f

/-- A whole number of eight bits. -/
def word8 : Reader UInt8 :=
  map (fun n => n.toNat.toUInt8) (within 0 255 "u8")

/-- A whole number of sixteen bits. -/
def word16 : Reader UInt16 :=
  map (fun n => n.toNat.toUInt16) (within 0 65535 "u16")

/-- A whole number of sixty-four bits without a sign. -/
def word64 : Reader UInt64 :=
  map (fun n => n.toNat.toUInt64) (within 0 18446744073709551615 "u64")

/-- A whole number of sixty-four bits with a sign. -/
def signed64 : Reader Int64 :=
  map Int64.ofInt (within (-9223372036854775808) 9223372036854775807 "i64")

/-- A value, or the null value in its place. -/
def optional {α : Type} (r : Reader α) : Reader (Option α)
  | _, .null => .ok none
  | source, t => (r source t).map some

/-- What a reader notices at the end of a list or of an object. -/
def ending (e : Ending) : Except Problem Unit :=
  unless? (e.fault?.map .text)

/-- A list of values. -/
def list {α : Type} (r : Reader α) : Reader (List α)
  | source, .array items e => do
      let values ← items.mapM (r source)
      ending e
      return values
  | _, t => .error (t.refuse "a sequence")

/-- The member of a name. -/
def nameOf {α : Type} [Named α] (s : String) : Except Problem α :=
  match Named.ofName? s with
  | some a => .ok a
  | none => .error (.mismatch (.unknownName s (Named.names α)))

/-- The null value, which stands in the place of a member without contents. -/
def unit : Tree → Except Problem Unit
  | .null => .ok ()
  | t => .error (t.refuse "unit")

/-- A name in an object: that of its only member, which holds the null value.  Where a
text has something other than a string in the place of the name, it is malformed. -/
def namedMember {α : Type} [Named α] : List (Key × Tree) → Ending → Except Problem α
  | [], .cut => .error (.text .incomplete)
  | [], _ => .error (.text .malformed)
  | (key, t) :: rest, e => do
      let a ← match key with
        | .name s => nameOf s
        | .brokenName read _ => .error (.text read)
        | .other _ => .error (.text .malformed)
        | .absent => .error (.text .incomplete)
      unit t
      if rest.isEmpty then ending e else .error (.text .malformed)
      return a

/-- The name of a member of an enumeration, or an object with this name and the null
value.  In a text whatever else stands there is out of place. -/
def named {α : Type} [Named α] : Reader α
  | _, .string s => nameOf s
  | .text, .object members e => namedMember members e
  | .text, .brokenString read _ => .error (.text read)
  | .text, .missing => .error (.text .incomplete)
  | .text, _ => .error (.text .malformed)
  | .value, .object members e =>
      if members.length = 1 then namedMember members e else .error (.mismatch .severalNames)
  | .value, t => .error (t.refuse "string or map")

/-- A moment in the notation of RFC 3339. -/
def timestamp : Reader Timestamp
  | _, .string s =>
      match Timestamp.read s with
      | .ok t => .ok t
      | .error fault => .error (.mismatch (.timestamp fault))
  | _, t => .error (t.refuse "an RFC 3339 formatted date and time string")

end Reader

/-! ## Any value -/

/-- One level deeper, if there is room; without a limit there always is. -/
def deeper : Option Nat → Except Fault (Option Nat)
  | none => .ok none
  | some 0 => .error .malformed
  | some (n + 1) => .ok (some n)

/-- The value of a tree whose lists and objects nest no deeper than `room`.  Members of an
object are put in ascending order; the last of several with one name counts. -/
def Tree.value? (room : Option Nat) : Tree → Except Fault Value
  | .null => .ok .null
  | .bool b => .ok (.bool b)
  | .number n => .ok (.number n)
  | .string s => .ok (.string s)
  | .array items e => do
      let room ← deeper room
      let values ← itemValues room items
      match e.fault? with
      | some fault => .error fault
      | none => .ok (.array values)
  | .object members e => do
      let room ← deeper room
      let values ← memberValues room members
      match e.fault? with
      | some fault => .error fault
      | none => .ok (.ofMembers values)
  | .brokenString read _ => .error read
  | .broken read _ => .error read
  | .missing => .error .incomplete
where
  itemValues (room : Option Nat) : List Tree → Except Fault (List Value)
    | [] => .ok []
    | t :: rest => do
        let v ← t.value? room
        let values ← itemValues room rest
        return v :: values
  memberValues (room : Option Nat) : List (Key × Tree) → Except Fault (List (String × Value))
    | [] => .ok []
    | (key, t) :: rest =>
        match key with
        | .name s => do
            let v ← t.value? room
            let values ← memberValues room rest
            return (s, v) :: values
        | key => .error (key.fault?.getD .malformed)

/-- The tree of a value. -/
def Tree.ofValue : Value → Tree
  | .null => .null
  | .bool b => .bool b
  | .number n => .number n
  | .string s => .string s
  | .array items => .array (ofItems items) .closed
  | .object members => .object (ofMembers members) .closed
where
  ofItems : List Value → List Tree
    | [] => []
    | v :: rest => Tree.ofValue v :: ofItems rest
  ofMembers : List (String × Value) → List (Key × Tree)
    | [] => []
    | (name, v) :: rest => (.name name, Tree.ofValue v) :: ofMembers rest

/-- How deep lists and objects may nest in a text that is read as a value. -/
def nestingLimit : Nat := 127

/-- Any value; in a text it may nest as deep as the limit allows below `around` lists and
objects. -/
def Reader.anyValue (around : Nat) : Reader Value := fun source t =>
  let room := match source with
    | .text => some (nestingLimit - around)
    | .value => none
  match t.value? room with
  | .ok v => .ok v
  | .error fault => .error (.text fault)

/-! ## Structures -/

/-- A field of a structure, as far as its values can be looked at one by one. -/
structure Field where
  /-- The name of the field, and other names by which it goes. -/
  names : List String
  check : Source → Tree → Option Problem

/-- Where the values of fields are found. -/
structure Lookup where
  source : Source
  value? : List String → Option Tree
  /-- The problem when the field at a place has no value. -/
  absent : Nat → String → Problem

/-- The fields of a structure in the order of their declaration, and the structure that
their values make.  The number is the place of the first of them. -/
structure Record (α : Type) where
  fields : List Field
  build : Nat → Lookup → Except Problem α

namespace Record

/-- A structure without fields. -/
protected def pure {α : Type} (a : α) : Record α where
  fields := []
  build _ _ := .ok a

/-- The fields of two structures. -/
protected def seq {α β : Type} (f : Record (α → β)) (x : Record α) : Record β where
  fields := f.fields ++ x.fields
  build place env := do
    let g ← f.build place env
    let a ← x.build (place + f.fields.length) env
    return g a

instance : Pure Record := ⟨Record.pure⟩
instance : Functor Record where
  map f x := Record.seq (Record.pure f) x
instance : Seq Record := ⟨fun f x => Record.seq f (x ())⟩

/-- The problem of a reader with a tree. -/
def problem? {α : Type} (r : Reader α) (source : Source) (t : Tree) : Option Problem :=
  match r source t with
  | .ok _ => none
  | .error p => some p

/-- One field; `absent` is what it holds where it is left out. -/
def field {α : Type} (names : List String) (r : Reader α) (absent : Option α) : Record α where
  fields := [⟨names, problem? r⟩]
  build place env :=
    match env.value? names with
    | some t => r env.source t
    | none =>
        match absent with
        | some a => .ok a
        | none => .error (env.absent place (names.headD ""))

/-- A field that must be there. -/
def required {α : Type} (name : String) (r : Reader α) : Record α :=
  field [name] r none

/-- A field that must be there, under one of two names. -/
def requiredAs {α : Type} (name other : String) (r : Reader α) : Record α :=
  field [name, other] r none

/-- A field that may be left out. -/
def defaulted {α : Type} (name : String) (r : Reader α) (absent : α) : Record α :=
  field [name] r (some absent)

/-- The first problem among the members of an object; `seen` are the fields that had a
value before. -/
def memberProblem? (fields : List Field) (source : Source) :
    List (List String) → List (Key × Tree) → Option Problem
  | _, [] => none
  | seen, (.name s, t) :: rest =>
      match fields.find? fun f => f.names.contains s with
      | none => (t.passOver.map .text) <|> memberProblem? fields source seen rest
      | some f =>
          if seen.contains f.names then some (.mismatch (.duplicateField (f.names.headD "")))
          else f.check source t <|> memberProblem? fields source (f.names :: seen) rest
  | _, (key, _) :: _ => some (.text (key.fault?.getD .malformed))

/-- The value of the first member with one of the names. -/
def memberValue? (members : List (Key × Tree)) (names : List String) : Option Tree :=
  members.findSome? fun
    | (.name s, t) => if names.contains s then some t else none
    | _ => none

/-- The first problem among the items of a list of field values. -/
def itemProblem? (source : Source) : List Field → List Tree → Option Problem
  | f :: fields, t :: items => f.check source t <|> itemProblem? source fields items
  | _, _ => none

/-- The item in the place of the field with these names. -/
def itemValue? (fields : List Field) (items : List Tree) (names : List String) : Option Tree :=
  (fields.zip items).findSome? fun (f, t) => if f.names = names then some t else none

/-- The problem of a list with more items than there are fields. -/
def excess (source : Source) (items : List Tree) : Problem :=
  match source with
  | .text => .text .malformed
  | .value => .mismatch (.length items.length "fewer elements in array")

/-- Reads the fields from an object or from a list; `title` is what messages call the
structure. -/
def reader {α : Type} (title : String) (r : Record α) : Reader α
  | source, .object members e => do
      unless? (memberProblem? r.fields source [] members)
      Reader.ending e
      r.build 0
        { source
          value? := memberValue? members
          absent := fun _ name => .mismatch (.missingField name) }
  | source, .array items e => do
      unless? (itemProblem? source r.fields items)
      if r.fields.length < items.length then .error (excess source items)
      else
        Reader.ending e
        r.build 0
          { source
            value? := itemValue? r.fields items
            absent := fun place _ =>
              .mismatch (.length place
                (title ++ " with " ++ toString r.fields.length ++ " elements")) }
  | _, t => .error (t.refuse title)

end Record

/-! ## Whole documents -/

/-- Reads a text that holds one value and nothing else. -/
def Reader.ofText {α : Type} (r : Reader α) (s : String) : Except Problem α := do
  let document := Document.ofText s
  let a ← r .text document.root
  if document.more then .error (.text .malformed) else return a

/-- Reads a value that has been read before. -/
def Reader.ofValue {α : Type} (r : Reader α) (v : Value) : Except Problem α :=
  r .value (.ofValue v)

/-- The value that a text holds. -/
def Value.ofText (s : String) : Except Problem Value :=
  Reader.ofText (.anyValue 0) s

end Json
end PacketPolicy
