import PacketPolicy.Ledger.Fault
import PacketPolicy.Text.Digits
import PacketPolicy.Text.Utf8

namespace PacketPolicy
namespace Ledger

/-!
# Where a ledger is kept

A ledger is opened by a name.  Most names are paths of files; the empty name and
`:memory:` stand for a ledger that nobody else sees and that is gone when it is closed.
A name that begins with `file:` has the path behind it, in which bytes may be written by
their hexadecimal numbers, and behind a question mark options that say what may be done
with the file.

* `Address` -- where a ledger is kept and what may be done there;
* `Address.ofName` -- what a name stands for.
-/

/-- Where a ledger is kept. -/
inductive Home where
  | file (path : String)
  /-- In the memory of whoever opened it. -/
  | own
  /-- In memory, for all who open it under the same name. -/
  | shared (name : String)
deriving DecidableEq, Repr, Inhabited

/-- Where a ledger is kept and what may be done there. -/
structure Address where
  home : Home
  /-- Whether a missing file may be created. -/
  mayCreate : Bool
  mayWrite : Bool
deriving DecidableEq, Repr, Inhabited

/-! ## The parts of a name -/

/-- What stands in front of the first mark, and what behind it, if there is a mark. -/
def cutAt (mark : UInt8 → Bool) (bytes : List UInt8) : List UInt8 × Option (List UInt8) :=
  (bytes.takeWhile (!mark ·), (bytes.dropWhile (!mark ·)).tail?)

/-- The value of a hexadecimal digit. -/
def hexByte? (b : UInt8) : Option UInt8 :=
  (Text.hexDigit? (Char.ofNat b.toNat)).map Nat.toUInt8

/-- The bytes of a part with those in place that are written by their numbers.  The number
zero ends the part. -/
def unescaped : List UInt8 → List UInt8
  | 0x25 :: high :: low :: rest =>
      match hexByte? high, hexByte? low with
      | some h, some l =>
          if h = 0 ∧ l = 0 then [] else (h * 16 + l) :: unescaped rest
      | _, _ => 0x25 :: unescaped (high :: low :: rest)
  | b :: rest => b :: unescaped rest
  | [] => []

/-- A part as a text. -/
def partText (bytes : List UInt8) : String :=
  Text.ofBytesLossy ⟨(unescaped bytes).toArray⟩

/-- The pieces between the marks. -/
def piecesAt (mark : UInt8) (bytes : List UInt8) : List (List UInt8) :=
  bytes.foldr
    (fun b pieces =>
      if b = mark then [] :: pieces
      else
        match pieces with
        | [] => [[b]]
        | piece :: rest => (b :: piece) :: rest) [[]]

/-- The options behind the question mark, with their values. -/
def optionsOf (query : List UInt8) : List (String × String) :=
  (piecesAt 0x26 query).filterMap fun piece =>
    let (name, value) := cutAt (· == 0x3D) piece
    if partText name = "" then none else some (partText name, partText (value.getD []))

/-- The path behind the name of a host, which may be empty or the own one. -/
def pathBehindHost : List UInt8 → Except Fault (List UInt8)
  | 0x2F :: 0x2F :: rest =>
      let host := rest.takeWhile (· != 0x2F)
      let name := Text.ofBytesLossy ⟨host.toArray⟩
      if name = "" ∨ name = "localhost" then .ok (rest.dropWhile (· != 0x2F))
      else .error (.badHost name)
  | path => .ok path

/-! ## Options -/

/-- What the options say. -/
structure Options where
  mayCreate : Bool
  mayWrite : Bool
  inMemory : Bool
  isShared : Bool
  /-- Whether nobody changes the file, as far as that is said. -/
  isFixed : Option Bool
  driver : String
deriving DecidableEq, Repr, Inhabited

/-- What holds without options. -/
def Options.standard : Options where
  mayCreate := true
  mayWrite := true
  inMemory := false
  isShared := false
  isFixed := none
  driver := "unix"

/-- The ways of keeping files that a host has. -/
def drivers : List String :=
  ["unix", "unix-none", "unix-dotfile", "unix-excl", "memdb"]

/-- Whether a text says yes: in words, or by a number that has not only zeros in its last
eight bits. -/
def saysYes (s : String) : Bool :=
  let number := Text.digitsValue (s.toList.takeWhile Char.isDigit)
  ["on", "yes", "true"].contains (s.map Char.toLower) ||
    (number ≤ 2147483647 && number % 256 != 0)

/-- One option more.  Of several that say whether the file is fixed the first one counts, of
all others the last one. -/
def Options.add (o : Options) : String × String → Except Fault Options
  | ("mode", "ro") => .ok { o with mayCreate := false, mayWrite := false, inMemory := false }
  | ("mode", "rw") => .ok { o with mayCreate := false, mayWrite := true, inMemory := false }
  | ("mode", "rwc") => .ok { o with mayCreate := true, mayWrite := true, inMemory := false }
  | ("mode", "memory") => .ok { o with mayCreate := true, mayWrite := true, inMemory := true }
  | ("mode", mode) => .error (.noMode "access" mode)
  | ("cache", "shared") => .ok { o with isShared := true }
  | ("cache", "private") => .ok { o with isShared := false }
  | ("cache", mode) => .error (.noMode "cache" mode)
  | ("vfs", driver) => .ok { o with driver }
  | ("immutable", s) => .ok { o with isFixed := o.isFixed <|> some (saysYes s) }
  | _ => .ok o

/-- The address that a path with options stands for. -/
def Options.address (o : Options) (path : String) : Except Fault Address :=
  if !drivers.contains o.driver then .error (.noDriver o.driver)
  else
    let inMemory := o.inMemory || path == ":memory:" || o.driver == "memdb"
    let home :=
      if path = "" then .own
      else if o.driver == "memdb" && path.length ≠ 1 && path.startsWith "/" then .shared path
      else if inMemory then if o.isShared then .shared path else .own
      else .file path
    .ok { home, mayCreate := o.mayCreate, mayWrite := o.mayWrite && !o.isFixed.getD false }

/-! ## Names -/

/-- What makes a name an address with options. -/
def scheme : List UInt8 :=
  (Text.toBytes "file:").toList

/-- What a name with options stands for. -/
def Address.ofParts (bytes : List UInt8) : Except Fault Address := do
  let (bytes, _) := cutAt (· == 0x23) (← pathBehindHost bytes)
  let (path, query) := cutAt (· == 0x3F) bytes
  let options ← (optionsOf (query.getD [])).foldlM Options.add .standard
  options.address (partText path)

/-- What a name stands for. -/
def Address.ofName (name : String) : Except Fault Address :=
  let bytes := (Text.toBytes name).toList
  match bytes.findIdx? (· == 0) with
  | some position => .error (.brokenName position)
  | none =>
      if scheme.isPrefixOf bytes then Address.ofParts (bytes.drop scheme.length)
      else Options.standard.address name

end Ledger
end PacketPolicy
