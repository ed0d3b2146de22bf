import PacketPolicy.Text.Blank
import PacketPolicy.Text.Digits

namespace PacketPolicy
namespace Host

/-!
# Interfaces of the host

The system lists its network interfaces in a table with a line for each, which begins with
the name and a colon behind it; the lines above the table have no colon.

* `interfacesOf` -- the names in such a table.
-/

/-- The name at the front of a line, if there is a colon behind it. -/
def interfaceOfLine? (line : List Char) : Option String :=
  match Text.pieces ':' line with
  | name :: _ :: _ => some (String.ofList (Text.trim name))
  | _ => none

/-- The names of the interfaces in a table of the system. -/
def interfacesOf (table : String) : List String :=
  (Text.pieces '\n' table.toList).filterMap interfaceOfLine?

end Host
end PacketPolicy
