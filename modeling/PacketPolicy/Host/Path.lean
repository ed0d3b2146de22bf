import PacketPolicy.Host.Fault
import PacketPolicy.Text.Digits

namespace PacketPolicy
namespace Host

/-!
# Paths

A path is a text with names and slashes between them.  Two dots are a name as well, which
leads back to the directory from which one came; a single dot means nothing, nor do several
slashes in a row.  What the path ends with matters, because behind a slash or a dot there
can only be a directory.

* `Path.ofString` -- the names in a path, and how it ends;
* `Path.outer` -- the names on the way to the directory in which the last name stands;
* `Path.upTo` -- the beginning of a path that ends with one of its names;
* `fault?` -- what is wrong with a path whatever stands on the host.
-/

/-- The names on the way to a place, outermost first. -/
abbrev Location := List String

/-- How a path ends. -/
inductive PathEnd where
  | name
  /-- With a slash behind the last name. -/
  | slash
  /-- With a single dot, behind which there may be slashes. -/
  | dot
deriving DecidableEq, Repr, Inhabited

/-- The names in a path. -/
structure Path where
  /-- Whether the path starts from the outermost directory. -/
  absolute : Bool
  names : List String
  ending : PathEnd
deriving DecidableEq, Repr, Inhabited

namespace Path

/-- What stands between the slashes of a path. -/
def pieces (path : String) : List String :=
  (Text.pieces '/' path.toList).map String.ofList

/-- The names in a path, and how it ends. -/
def ofString (path : String) : Path :=
  let pieces := pieces path
  let parts := pieces.filter (· != "")
  { absolute := path.toList.head? == some '/'
    names := parts.filter (· != ".")
    ending :=
      if parts.getLast? = some "." then .dot
      else if pieces.getLast? = some "" then .slash
      else .name }

/-- The place from which the names lead on. -/
def origin (directory : Location) (p : Path) : Location :=
  if p.absolute then [] else directory

/-- The names on the way to the directory in which the last name stands. -/
def outer (p : Path) : List String :=
  p.names.dropLast

/-- The pieces up to the last of so many names. -/
def piecesUpTo : Nat → List String → List String
  | 0, _ => []
  | _, [] => []
  | n + 1, piece :: rest =>
      piece :: piecesUpTo (if piece = "" ∨ piece = "." then n + 1 else n) rest

/-- The beginning of a path that ends with the last of so many names. -/
def upTo (path : String) (n : Nat) : String :=
  "/".intercalate (piecesUpTo n (pieces path))

end Path

/-- The name that leads back. -/
def back : String := ".."

/-- The greatest number of bytes in a name. -/
def nameLimit : Nat := 255

/-- The greatest number of bytes in a path. -/
def pathLimit : Nat := 4095

/-- Whether a name has too many bytes. -/
def isTooLong (name : String) : Bool :=
  nameLimit < name.utf8ByteSize

/-- Whether a text has the character in it that ends texts for the system. -/
def isBroken (s : String) : Bool :=
  s.toList.contains '\x00'

/-- What is wrong with a path whatever stands on the host. -/
def fault? (path : String) : Option Fault :=
  if isBroken path then some .brokenPath
  else if path = "" then some .notFound
  else if pathLimit < path.utf8ByteSize then some .nameTooLong
  else none

/-- The path of some names. -/
def joined (names : List String) : String :=
  "/".intercalate names

end Host
end PacketPolicy
