import PacketPolicy.Json.Token

namespace PacketPolicy
namespace Json

/-!
# Documents as trees

A document as a tree of values, whether or not it is well-formed.  A tree holds all that
a reader comes upon who goes through the document from its front: where the text goes
wrong, the tree says what the reader notices there, and nothing behind that place.

* `Tree` -- a value; `Ending` -- how a list or an object ends;
* `State.step` -- what one word does to a tree under construction;
* `Document.ofText` -- the tree of a text;
* `Tree.passOver` -- what a reader notices who needs nothing of a value.
-/

/-- What stands in the place of a member's name. -/
inductive Key where
  | name (s : String)
  /-- A string that cannot be read. -/
  | brokenName (read : Fault) (passed : Option Fault)
  /-- A word that is no string. -/
  | other (t : Token)
  /-- The end of the text. -/
  | absent
deriving DecidableEq, Repr, Inhabited

/-- How a list or an object ends. -/
inductive Ending where
  | closed
  /-- The text ends behind a whole item. -/
  | cut
  /-- Behind a whole item stands neither a comma nor the closing bracket. -/
  | wrong
deriving DecidableEq, Repr, Inhabited

/-- A value of a document, or what is wrong in its place. -/
inductive Tree where
  | null
  | bool (b : Bool)
  | number (n : Number)
  | string (s : String)
  | array (items : List Tree) (ending : Ending)
  | object (members : List (Key × Tree)) (ending : Ending)
  /-- A string that cannot be read. -/
  | brokenString (read : Fault) (passed : Option Fault)
  /-- Another word that cannot be read. -/
  | broken (read : Fault) (passed : Option Fault)
  /-- The end of the text. -/
  | missing
deriving Inhabited, Repr

/-- A place where no value begins. -/
def Tree.misplaced : Tree := .broken .malformed (some .malformed)

/-! ## Building trees -/

/-- A list or an object that has begun, where a value is due or being read. -/
inductive Frame where
  /-- The items so far, last first. -/
  | array (items : List Tree)
  /-- The members so far, last first, and the name of the value. -/
  | object (members : List (Key × Tree)) (key : Key)
deriving Repr

/-- A tree under construction, by what is due; the frames are the surrounding lists and
objects, innermost first. -/
inductive State where
  | value (frames : List Frame)
  /-- The first item of a list, or its end. -/
  | firstItem (frames : List Frame)
  /-- The first name of an object, or its end. -/
  | firstKey (frames : List Frame)
  /-- A name behind a comma. -/
  | nextKey (members : List (Key × Tree)) (frames : List Frame)
  | colon (members : List (Key × Tree)) (key : Key) (frames : List Frame)
  /-- A comma behind an item, or the end of the list. -/
  | afterItem (items : List Tree) (frames : List Frame)
  /-- A comma behind a member, or the end of the object. -/
  | afterMember (members : List (Key × Tree)) (frames : List Frame)
  /-- Nothing; and whether there was another word. -/
  | complete (root : Tree) (more : Bool)
deriving Repr

/-- The whole tree when its innermost list or object goes no further. -/
def collapse (t : Tree) : List Frame → Tree
  | [] => t
  | .array items :: frames => collapse (.array (t :: items).reverse .cut) frames
  | .object members key :: frames => collapse (.object ((key, t) :: members).reverse .cut) frames

namespace State

/-- The tree goes no further. -/
def breakOff (t : Tree) (frames : List Frame) : State :=
  .complete (collapse t frames) false

/-- A value is complete. -/
def settle (t : Tree) : List Frame → State
  | [] => .complete t false
  | .array items :: frames => .afterItem (t :: items) frames
  | .object members key :: frames => .afterMember ((key, t) :: members) frames

/-- A word where a value is due. -/
def stepValue (frames : List Frame) : Token → State
  | .openObject => .firstKey frames
  | .openArray => .firstItem frames
  | .null => settle .null frames
  | .bool b => settle (.bool b) frames
  | .number n => settle (.number n) frames
  | .string s => settle (.string s) frames
  | .brokenString read passed => settle (.brokenString read passed) frames
  | .broken read passed => settle (.broken read passed) frames
  | .closeObject | .closeArray | .colon | .comma => breakOff .misplaced frames

/-- A word where a name is due. -/
def stepKey (members : List (Key × Tree)) (frames : List Frame) : Token → State
  | .string s => .colon members (.name s) frames
  | .brokenString read passed => .colon members (.brokenName read passed) frames
  | t => breakOff (.object ((.other t, .null) :: members).reverse .cut) frames

/-- What one word does to a tree under construction. -/
def step : State → Token → State
  | value frames, t => stepValue frames t
  | firstItem frames, .closeArray => settle (.array [] .closed) frames
  | firstItem frames, t => stepValue (.array [] :: frames) t
  | firstKey frames, .closeObject => settle (.object [] .closed) frames
  | firstKey frames, t => stepKey [] frames t
  | nextKey members frames, t => stepKey members frames t
  | colon members key frames, .colon => .value (.object members key :: frames)
  | colon members key frames, _ =>
      breakOff (.object ((key, .misplaced) :: members).reverse .cut) frames
  | afterItem items frames, .comma => .value (.array items :: frames)
  | afterItem items frames, .closeArray => settle (.array items.reverse .closed) frames
  | afterItem items frames, _ => breakOff (.array items.reverse .wrong) frames
  | afterMember members frames, .comma => .nextKey members frames
  | afterMember members frames, .closeObject => settle (.object members.reverse .closed) frames
  | afterMember members frames, _ => breakOff (.object members.reverse .wrong) frames
  | complete root _, _ => .complete root true

/-- The tree at the end of the text. -/
def atEnd : State → Tree × Bool
  | value frames => (collapse .missing frames, false)
  | firstItem frames => (collapse (.array [] .cut) frames, false)
  | firstKey frames => (collapse (.object [] .cut) frames, false)
  | nextKey members frames =>
      (collapse (.object ((.absent, .null) :: members).reverse .cut) frames, false)
  | colon members key frames =>
      (collapse (.object ((key, .missing) :: members).reverse .cut) frames, false)
  | afterItem items frames => (collapse (.array items.reverse .cut) frames, false)
  | afterMember members frames => (collapse (.object members.reverse .cut) frames, false)
  | complete root more => (root, more)

end State

/-- A document: its value, and whether more words follow. -/
structure Document where
  root : Tree
  more : Bool
deriving Inhabited, Repr

/-- The document of a list of words. -/
def Document.ofTokens (ts : List Token) : Document :=
  let (root, more) := (ts.foldl State.step (.value [])).atEnd
  ⟨root, more⟩

/-- The document of a text. -/
def Document.ofText (s : String) : Document :=
  .ofTokens (tokens s.toList)

/-! ## Passing over values -/

/-- What a reader notices at the end of a list or of an object. -/
def Ending.fault? : Ending → Option Fault
  | .closed => none
  | .cut => some .incomplete
  | .wrong => some .malformed

/-- What a reader notices who needs no name. -/
def Key.passedFault? : Key → Option Fault
  | .name _ => none
  | .brokenName _ passed => passed
  | .other _ => some .malformed
  | .absent => some .incomplete

/-- What a reader notices who has to know the name. -/
def Key.fault? : Key → Option Fault
  | .name _ => none
  | .brokenName read _ => some read
  | .other _ => some .malformed
  | .absent => some .incomplete

/-- What a reader notices who needs nothing of the value. -/
def Tree.passOver : Tree → Option Fault
  | .null => none
  | .bool _ => none
  | .number _ => none
  | .string _ => none
  | .array items ending => passOverItems items <|> ending.fault?
  | .object members ending => passOverMembers members <|> ending.fault?
  | .brokenString _ passed => passed
  | .broken _ passed => passed
  | .missing => some .incomplete
where
  passOverItems : List Tree → Option Fault
    | [] => none
    | t :: rest => t.passOver <|> passOverItems rest
  passOverMembers : List (Key × Tree) → Option Fault
    | [] => none
    | (key, t) :: rest => key.passedFault? <|> t.passOver <|> passOverMembers rest

end Json
end PacketPolicy
