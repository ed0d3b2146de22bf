import PacketPolicy.Host.Path

namespace PacketPolicy
namespace Host

/-!
# Directories and files

A tree of directories and plain files.  A place in the tree is the list of names on the
way to it; `Tree.find?` says what stands there.

* `Tree.walk` -- follows names through directories; `Tree.lookUp` -- what a path leads to;
* `Tree.makeDirectories` -- creates the missing directories on a path;
* `Tree.ensureParent` -- creates the directory that a file is to stand in;
* `Tree.read`, `Tree.write`, `Tree.openable` -- files.

Paths start from a directory that is given to these functions, unless they are absolute.
-/

/-- What stands in a place; numbers are the modes of access. -/
inductive Node (β : Type) where
  | directory (mode : Nat)
  | file (mode : Nat) (content : β)
deriving Repr, DecidableEq

instance {β : Type} : Inhabited (Node β) := ⟨.directory 0⟩

/-- A tree of directories and files; the outermost directory is not listed. -/
structure Tree (β : Type) where
  nodes : List (Location × Node β)
deriving Repr

instance {β : Type} : Inhabited (Tree β) := ⟨⟨[]⟩⟩

/-- The mode of a directory that is created on the way to a file: nobody but its owner
has access. -/
def privateDirectory : Nat := 0o700

/-- The mode of a file to which nobody but its owner has access. -/
def privateFile : Nat := 0o600

/-- The mode of a file that anybody may read. -/
def publicFile : Nat := 0o644

namespace Tree

variable {β : Type}

/-- What stands in a place. -/
def find? (t : Tree β) (p : Location) : Option (Node β) :=
  if p = [] then some (.directory 0o755) else (t.nodes.find? fun n => n.1 == p).map Prod.snd

/-- The places on the way to a place and the place itself, outermost first. -/
def wayTo (p : Location) : List Location :=
  (List.range p.length).map fun n => p.take (n + 1)

/-- Puts something where nothing stands. -/
def add (t : Tree β) (p : Location) (n : Node β) : Tree β :=
  ⟨t.nodes ++ [(p, n)]⟩

/-- Puts something in a place, whatever stands there. -/
def put (t : Tree β) (p : Location) (n : Node β) : Tree β :=
  if (t.find? p).isSome then ⟨t.nodes.map fun old => if old.1 = p then (p, n) else old⟩
  else t.add p n

/-! ## Following paths -/

/-- Fails unless a directory stands in a place. -/
def needDirectory (t : Tree β) (p : Location) : Except Fault Unit :=
  match t.find? p with
  | some (.directory _) => .ok ()
  | some (.file _ _) => .error .notDirectory
  | none => .error .notFound

/-- The place to which names lead.  Each name is looked for in a directory; whether
something stands in the place of the last one is not asked. -/
def walk (t : Tree β) : Location → List String → Except Fault Location
  | p, [] => .ok p
  | p, name :: rest => do
      t.needDirectory p
      if name = back then t.walk p.dropLast rest
      else if isTooLong name then .error .nameTooLong
      else t.walk (p ++ [name]) rest

/-- The place to which names lead, if a directory stands there. -/
def walkInto (t : Tree β) (p : Location) (names : List String) : Except Fault Location := do
  let q ← t.walk p names
  t.needDirectory q
  return q

/-- The place to which a path leads and what stands there. -/
def lookUp (t : Tree β) (directory : Location) (path : String) :
    Except Fault (Location × Node β) := do
  if let some fault := fault? path then throw fault
  let p := Path.ofString path
  let q ← match p.ending with
    | .name => t.walk (p.origin directory) p.names
    | .slash | .dot => t.walkInto (p.origin directory) p.names
  match t.find? q with
  | some n => return (q, n)
  | none => throw .notFound

/-! ## Creating directories -/

/-- Creates the directory to which a path leads; `outer` are the names on the way to the
one it stands in, and `name` is its own. -/
def makeDirectory (t : Tree β) (p : Location) (path : String) (outer : List String)
    (name : String) : Except Fault (Tree β) := do
  if let some fault := fault? path then throw fault
  let q ← t.walkInto p outer
  if name = back then throw .alreadyThere
  else if isTooLong name then throw .nameTooLong
  else if (t.find? (q ++ [name])).isSome then throw .alreadyThere
  else return t.add (q ++ [name]) (.directory privateDirectory)

/-- What stands where a path leads that has these names, if the system can know the path. -/
def standing? (t : Tree β) (p : Location) (path : String) (names : List String) :
    Option (Node β) :=
  match fault? path, t.walk p names with
  | none, .ok q => t.find? q
  | _, _ => none

/-- The outcome of an attempt to create a directory; that there is one already is as good
as if it had been created. -/
def settled (t : Tree β) (p : Location) (path : String) (names : List String) :
    Except Fault (Tree β) → Except Fault Unit × Tree β
  | .ok t => (.ok (), t)
  | .error fault =>
      match t.standing? p path names with
      | some (.directory _) => (.ok (), t)
      | _ => (.error fault, t)

/-- Creates the directory to which the first names of a path lead; they are given innermost
first.  If the one in which it is to stand is missing, that one is created before; the
directories that have been created stay when one further in cannot be. -/
def makeDirectories (t : Tree β) (p : Location) (path : String) :
    List String → Except Fault Unit × Tree β
  | [] => (.ok (), t)
  | name :: outer =>
      let text := Path.upTo path (outer.length + 1)
      match t.makeDirectory p text outer.reverse name with
      | .error .notFound =>
          match t.makeDirectories p path outer with
          | (.ok (), t) =>
              t.settled p text (name :: outer).reverse
                (t.makeDirectory p text outer.reverse name)
          | (.error fault, t) => (.error fault, t)
      | attempt => t.settled p text (name :: outer).reverse attempt

/-- What stands where the directory of a file is to be. -/
def parentOf? (t : Tree β) (directory : Location) (path : String) : Option (Node β) :=
  let p := Path.ofString path
  t.standing? (p.origin directory) (Path.upTo path p.outer.length) p.outer

/-- Creates the directory that a file is to stand in, unless something stands there. -/
def ensureParent (t : Tree β) (directory : Location) (path : String) :
    Except Fault Unit × Tree β :=
  let p := Path.ofString path
  if (t.parentOf? directory path).isSome then (.ok (), t)
  else t.makeDirectories (p.origin directory) path p.outer.reverse

/-! ## Files -/

/-- The content of the file to which a path leads. -/
def read (t : Tree β) (directory : Location) (path : String) : Except Fault β := do
  match ← t.lookUp directory path with
  | (_, .file _ content) => return content
  | (_, .directory _) => throw .isDirectory

/-- Puts a new file in a place, or in the place of a file.  It is written in the directory
of the place first and then given the name, so that the old file is there until the new
one is complete.  Two dots are never the name of a file. -/
def write (t : Tree β) (directory : Location) (path : String) (mode : Nat) (content : β) :
    Except Fault (Location × Tree β) := do
  let p := Path.ofString path
  if p.outer.any isBroken then throw .brokenPath
  let q ← t.walkInto (p.origin directory) p.outer
  if isBroken path then throw .badArgument
  if pathLimit < path.utf8ByteSize then throw .nameTooLong
  match p.names.getLast? with
  | none => throw .busy
  | some name =>
      if p.ending = .dot then
        let _ ← t.walkInto (p.origin directory) p.names
        throw .busy
      else if name = back then throw .busy
      else if isTooLong name then throw .nameTooLong
      else if p.ending = .slash then throw .notDirectory
      else
        match t.find? (q ++ [name]) with
        | some (.directory _) => throw .isDirectory
        | _ => return (q ++ [name], t.put (q ++ [name]) (.file mode content))

/-- Opens a file for writing, which creates it where it is missing; the place of the file.
What ends with a slash can only be a directory, whether there is one or not. -/
def openable (t : Tree β) (directory : Location) (path : String) (mode : Nat) (content : β) :
    Except Fault (Location × Tree β) := do
  if let some fault := fault? path then throw fault
  let p := Path.ofString path
  match p.ending with
  | .slash =>
      let _ ← t.walkInto (p.origin directory) p.outer
      throw .isDirectory
  | .dot =>
      let _ ← t.walkInto (p.origin directory) p.names
      throw .isDirectory
  | .name =>
      let q ← t.walk (p.origin directory) p.names
      match t.find? q with
      | some (.directory _) => throw .isDirectory
      | some (.file _ _) => return (q, t)
      | none => return (q, t.add q (.file mode content))

end Tree
end Host
end PacketPolicy
