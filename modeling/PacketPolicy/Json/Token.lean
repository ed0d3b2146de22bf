import PacketPolicy.Json.Number

namespace PacketPolicy
namespace Json

/-!
# Tokens of documents

The words of which a JSON document is made, and the scanner that finds them.

* `Token` -- a word; a word that is ill-formed is a token as well, which says what
  happens to a reader who comes upon it;
* `Scan.step` -- what one character does to a scanner;
* `tokens` -- the words of a document.

A reader who needs a value notices more than one who passes it over: a surrogate without
its partner and a numeral beyond the range of numbers are only noticed by the former.
The scanner stops behind a word that both notice.  Whether a word is malformed or merely
incomplete depends on whether the text goes on behind the place where it went wrong; a
numbered character needs four bytes, and is incomplete when fewer are left.
-/

/-- What is wrong with a text. -/
inductive Fault where
  /-- A character that cannot stand where it stands. -/
  | malformed
  /-- The text ends too early. -/
  | incomplete
deriving DecidableEq, Repr, Inhabited

/-- A word of a document. -/
inductive Token where
  | openObject
  | closeObject
  | openArray
  | closeArray
  | colon
  | comma
  | null
  | bool (b : Bool)
  | number (n : Number)
  | string (s : String)
  /-- A string that cannot be read, and what a reader notices who passes it over. -/
  | brokenString (read : Fault) (passed : Option Fault)
  /-- Another word that cannot be read. -/
  | broken (read : Fault) (passed : Option Fault)
deriving DecidableEq, Repr, Inhabited

/-! ## Numerals -/

/-- The place in a numeral behind its last character. -/
inductive NumeralPlace where
  | sign
  /-- Behind a zero in first place, which no digit may follow. -/
  | zero
  | whole
  | point
  | fraction
  | mark
  | powerSign
  | power
deriving DecidableEq, Repr

/-- What a character does to a numeral. -/
inductive NumeralStep where
  | goOn (place : NumeralPlace)
  /-- The character stands behind the numeral. -/
  | complete
  | malformed

/-- The grammar of numerals. -/
def NumeralPlace.step (place : NumeralPlace) (c : Char) : NumeralStep :=
  match place with
  | .sign => if c = '0' then .goOn .zero else if c.isDigit then .goOn .whole else .malformed
  | .zero =>
      if c.isDigit then .malformed
      else if c = '.' then .goOn .point
      else if c = 'e' ∨ c = 'E' then .goOn .mark
      else .complete
  | .whole =>
      if c.isDigit then .goOn .whole
      else if c = '.' then .goOn .point
      else if c = 'e' ∨ c = 'E' then .goOn .mark
      else .complete
  | .point => if c.isDigit then .goOn .fraction else .malformed
  | .fraction =>
      if c.isDigit then .goOn .fraction
      else if c = 'e' ∨ c = 'E' then .goOn .mark
      else .complete
  | .mark =>
      if c.isDigit then .goOn .power
      else if c = '+' ∨ c = '-' then .goOn .powerSign
      else .malformed
  | .powerSign => if c.isDigit then .goOn .power else .malformed
  | .power => if c.isDigit then .goOn .power else .complete

/-- The places where a numeral may end. -/
def NumeralPlace.mayEnd : NumeralPlace → Bool
  | .zero | .whole | .fraction | .power => true
  | .sign | .point | .mark | .powerSign => false

/-- The power of ten that the characters behind its mark stand for. -/
def powerOfChars : List Char → Bool × List Char
  | '-' :: digits => (true, digits)
  | '+' :: digits => (false, digits)
  | digits => (false, digits)

/-- The parts of a numeral. -/
def Number.Numeral.ofChars (cs : List Char) : Number.Numeral :=
  let negative := cs.head? == some '-'
  let cs := if negative then cs.drop 1 else cs
  let whole := cs.takeWhile Char.isDigit
  let cs := cs.dropWhile Char.isDigit
  let (fraction, cs) := match cs with
    | '.' :: rest => (some (rest.takeWhile Char.isDigit), rest.dropWhile Char.isDigit)
    | _ => (none, cs)
  let power := match cs with
    | [] => none
    | _ :: rest => some (powerOfChars rest)
  { negative, whole, fraction, power }

/-- The token of a complete numeral; `reversed` are its characters, last first. -/
def numeralToken (reversed : List Char) : Token :=
  match Number.ofNumeral? (Number.Numeral.ofChars reversed.reverse) with
  | some n => .number n
  | none => .broken .malformed none

/-! ## Strings -/

/-- The place in a string behind its last character. -/
inductive StringPlace where
  | plain
  /-- Behind a backslash. -/
  | escape
  /-- In a numbered character: the high surrogate in front of it, the value of the digits
  so far, the bytes they took, and whether one of them was no digit. -/
  | numbered (high : Option Nat) (value : Nat) (bytes : Nat) (bad : Bool)
  /-- Behind a high surrogate. -/
  | high (unit : Nat)
  /-- Behind a high surrogate and a backslash. -/
  | highEscape (unit : Nat)
deriving DecidableEq, Repr

/-- A string that has begun: its characters, last first, and whether a surrogate without
its partner was among them. -/
structure OpenString where
  chars : List Char
  lone : Bool
  place : StringPlace
deriving Repr

/-- A string without characters. -/
def OpenString.start : OpenString := ⟨[], false, .plain⟩

/-- What a character does to a string. -/
inductive StringStep where
  | goOn (s : OpenString)
  | complete (t : Token)
  | malformed

/-- The character that a letter behind a backslash stands for. -/
def escaped? (c : Char) : Option Char :=
  match c with
  | '"' => some '"'
  | '\\' => some '\\'
  | '/' => some '/'
  | 'b' => some '\x08'
  | 'f' => some '\x0c'
  | 'n' => some '\n'
  | 'r' => some '\r'
  | 't' => some '\t'
  | _ => none

/-- The least high surrogate, the least low one, and the number behind the low ones. -/
def firstHigh : Nat := 0xD800
def firstLow : Nat := 0xDC00
def behindLow : Nat := 0xE000

namespace OpenString

/-- One more character of the string. -/
def push (s : OpenString) (c : Char) : OpenString :=
  { s with chars := c :: s.chars, place := .plain }

/-- A surrogate without its partner. -/
def markLone (s : OpenString) : OpenString :=
  { s with lone := true, place := .plain }

/-- A character in plain place. -/
def stepPlain (s : OpenString) (c : Char) : StringStep :=
  if c = '"' then
    .complete
      (if s.lone then .brokenString .malformed none else .string (String.ofList s.chars.reverse))
  else if c = '\\' then .goOn { s with place := .escape }
  else if c.toNat < 0x20 then .malformed
  else .goOn (s.push c)

/-- A character behind a backslash. -/
def stepEscape (s : OpenString) (c : Char) : StringStep :=
  if c = 'u' then .goOn { s with place := .numbered none 0 0 false }
  else
    match escaped? c with
    | some d => .goOn (s.push d)
    | none => .malformed

/-- A unit of sixteen bits has been read. -/
def pushUnit (s : OpenString) (high : Option Nat) (unit : Nat) : OpenString :=
  match high with
  | none =>
      if firstLow ≤ unit ∧ unit < behindLow then s.markLone
      else if firstHigh ≤ unit ∧ unit < firstLow then { s with place := .high unit }
      else s.push (Char.ofNat unit)
  | some h =>
      if firstLow ≤ unit ∧ unit < behindLow then
        s.push (Char.ofNat (0x10000 + (h - firstHigh) * 0x400 + (unit - firstLow)))
      else s.markLone

/-- A character of a string. -/
def step (s : OpenString) (c : Char) : StringStep :=
  match s.place with
  | .plain => s.stepPlain c
  | .escape => s.stepEscape c
  | .numbered high value bytes bad =>
      let digit := Text.hexDigit? c
      let value := value * 16 + digit.getD 0
      let bytes := bytes + c.utf8Size
      let bad := bad || digit.isNone
      if bytes < 4 then .goOn { s with place := .numbered high value bytes bad }
      else if bad then .malformed
      else .goOn (s.pushUnit high value)
  | .high unit =>
      if c = '\\' then .goOn { s with place := .highEscape unit } else s.markLone.stepPlain c
  | .highEscape unit =>
      if c = 'u' then .goOn { s with place := .numbered (some unit) 0 0 false }
      else s.markLone.stepEscape c

/-- What a reader notices who finds the text at its end inside the string. -/
def atEnd (s : OpenString) : Token :=
  .brokenString (if s.lone then .malformed else .incomplete) (some .incomplete)

end OpenString

/-! ## The scanner -/

/-- What the scanner is in the middle of. -/
inductive Scan where
  | between
  /-- In one of the three fixed words: the letters still due, and the token they make. -/
  | word (due : List Char) (token : Token)
  /-- In a numeral: its characters, last first. -/
  | numeral (chars : List Char) (place : NumeralPlace)
  | string (s : OpenString)
  /-- Behind a word that nobody can pass over. -/
  | stopped
deriving Repr

/-- The blank characters of documents. -/
def isSpace (c : Char) : Bool :=
  c == ' ' || c == '\n' || c == '\t' || c == '\r'

/-- A malformed word, and the end of the scan. -/
def stop (t : Token) : Scan × List Token := (.stopped, [t])

namespace Scan

/-- A character between words. -/
def begin (c : Char) : Scan × List Token :=
  if isSpace c then (.between, [])
  else
    match c with
    | '{' => (.between, [.openObject])
    | '}' => (.between, [.closeObject])
    | '[' => (.between, [.openArray])
    | ']' => (.between, [.closeArray])
    | ':' => (.between, [.colon])
    | ',' => (.between, [.comma])
    | '"' => (.string .start, [])
    | 'n' => (.word ['u', 'l', 'l'] .null, [])
    | 't' => (.word ['r', 'u', 'e'] (.bool true), [])
    | 'f' => (.word ['a', 'l', 's', 'e'] (.bool false), [])
    | '-' => (.numeral ['-'] .sign, [])
    | '0' => (.numeral ['0'] .zero, [])
    | c =>
        if c.isDigit then (.numeral [c] .whole, [])
        else stop (.broken .malformed (some .malformed))

/-- What one character does to the scanner, and the words that it completes. -/
def step (scan : Scan) (c : Char) : Scan × List Token :=
  match scan with
  | between => begin c
  | word [] t =>
      let (next, found) := begin c
      (next, t :: found)
  | word (d :: due) t =>
      if c = d then if due.isEmpty then (between, [t]) else (word due t, [])
      else stop (.broken .malformed (some .malformed))
  | numeral chars place =>
      match place.step c with
      | .goOn place => (numeral (c :: chars) place, [])
      | .complete =>
          let (next, found) := begin c
          (next, numeralToken chars :: found)
      | .malformed => stop (.broken .malformed (some .malformed))
  | string s =>
      match s.step c with
      | .goOn s => (string s, [])
      | .complete t => (between, [t])
      | .malformed => stop (.brokenString .malformed (some .malformed))
  | stopped => (stopped, [])

/-- The word that the end of the text completes or breaks off. -/
def atEnd : Scan → List Token
  | between => []
  | word _ _ => [.broken .incomplete (some .incomplete)]
  | numeral chars place =>
      if place.mayEnd then [numeralToken chars]
      else [.broken .incomplete (some .malformed)]
  | string s => [s.atEnd]
  | stopped => []

end Scan

/-- The scanner after some characters, with the words found so far, last first. -/
def scanFrom (scan : Scan) (found : List Token) (cs : List Char) : Scan × List Token :=
  cs.foldl
    (fun (scan, found) c =>
      let (scan, more) := scan.step c
      (scan, more.reverseAux found))
    (scan, found)

/-- The words of a document. -/
def tokens (cs : List Char) : List Token :=
  let (scan, found) := scanFrom .between [] cs
  found.reverse ++ scan.atEnd

end Json
end PacketPolicy
