import PacketPolicy.Time.Calendar
import PacketPolicy.Text.Clip
import PacketPolicy.Text.Blank
import PacketPolicy.Text.Digits

namespace PacketPolicy

/-!
# Timestamps

Moments in coordinated universal time, to the nanosecond, in the notation of
RFC 3339.

* `Timestamp.afterEpoch` -- the moment that a system's clock shows;
* `Timestamp.text` -- the notation with `Z`; `Timestamp.offsetText` with `+00:00`;
* `Timestamp.readStrict` -- reads exactly the notation of the standard, in any offset;
* `Timestamp.read` -- reads it with the liberties people take: blanks between the
  parts, one-digit numbers, signed years, `UTC` for the offset.

A second number 60 is read as a leap second: the last second of its minute with a
nanosecond count of a thousand million or more.  Both readers name the first thing
that is wrong, from left to right; a date the calendar does not have is noticed
after the whole text has been read.
-/

/-- A moment, in coordinated universal time. -/
structure Timestamp where
  date : Date
  /-- The second of the day. -/
  second : Nat
  /-- The nanosecond of the second, counted on through a leap second. -/
  nanosecond : Nat
deriving DecidableEq, Repr, Inhabited

namespace Timestamp

/-- The moment so many seconds and nanoseconds after the beginning of the day from which
systems count. -/
def afterEpoch (seconds nanoseconds : Nat) : Timestamp :=
  ⟨Date.epoch.after (seconds / 86400), seconds % 86400, nanoseconds⟩

/-! ## Writing -/

/-- `n` in at least `width` digits. -/
def padded (width n : Nat) : List Char :=
  let digits := Nat.toDigits 10 n
  List.replicate (width - digits.length) '0' ++ digits

/-- A year in four digits, with a sign if it needs more or is negative. -/
def yearText (year : Int) : List Char :=
  if 0 ≤ year ∧ year ≤ 9999 then padded 4 year.toNat
  else (if year < 0 then '-' else '+') :: padded 4 year.natAbs

/-- The fraction of a second in the fewest of 0, 3, 6 and 9 digits that are exact. -/
def fractionText (nanosecond : Nat) : List Char :=
  if nanosecond = 0 then []
  else if nanosecond % 1000000 = 0 then '.' :: padded 3 (nanosecond / 1000000)
  else if nanosecond % 1000 = 0 then '.' :: padded 6 (nanosecond / 1000)
  else '.' :: padded 9 nanosecond

/-- The characters in front of the offset. -/
def localText (t : Timestamp) : List Char :=
  let leap := 1000000000 ≤ t.nanosecond
  let second := t.second % 60 + if leap then 1 else 0
  let nanosecond := t.nanosecond - if leap then 1000000000 else 0
  yearText t.date.year ++ '-' :: padded 2 t.date.month ++ '-' :: padded 2 t.date.day ++
    'T' :: padded 2 (t.second / 3600) ++ ':' :: padded 2 (t.second / 60 % 60) ++
    ':' :: padded 2 second ++ fractionText nanosecond

/-- The notation with the letter for the offset zero. -/
def text (t : Timestamp) : String :=
  String.ofList (t.localText ++ ['Z'])

/-- The notation with the offset zero in numbers. -/
def offsetText (t : Timestamp) : String :=
  String.ofList (t.localText ++ "+00:00".toList)

/-- Date and time of day to the second, as people read them. -/
def plainText (t : Timestamp) : String :=
  String.ofList
    (yearText t.date.year ++ '-' :: padded 2 t.date.month ++ '-' :: padded 2 t.date.day ++
      ' ' :: padded 2 (t.second / 3600) ++ ':' :: padded 2 (t.second / 60 % 60) ++
      ':' :: padded 2 (t.second % 60 + if 1000000000 ≤ t.nanosecond then 1 else 0))

/-! ## Reading -/

/-- Why a text is no timestamp. -/
inductive Fault where
  /-- A number lies outside its range, or the calendar has no such day. -/
  | outOfRange
  /-- The moment lies outside the calendar once the offset is taken off. -/
  | impossible
  /-- A character that cannot stand where it stands. -/
  | invalid
  /-- The text ends too early. -/
  | tooShort
  /-- Something follows the timestamp. -/
  | tooLong
deriving DecidableEq, Repr

/-- The wording of a fault. -/
def Fault.message : Fault → String
  | .outOfRange => "input is out of range"
  | .impossible => "no possible date and time matching input"
  | .invalid => "input contains invalid characters"
  | .tooShort => "premature end of input"
  | .tooLong => "trailing input"

/-- A number of at least `least` and at most `most` digits; the digits beyond stay. -/
def readNumber (least : Nat) (most : Option Nat) (cs : List Char) :
    Except Fault (Nat × List Char) :=
  if Text.byteLength cs < least then .error .tooShort
  else
    let window := match most with
      | some n => cs.take n
      | none => cs
    let digits := window.takeWhile Char.isDigit
    if digits.length < least then .error .invalid
    else if 9223372036854775807 < Text.digitsValue digits then .error .outOfRange
    else .ok (Text.digitsValue digits, cs.drop digits.length)

/-- A number in a range. -/
def readWithin (least most low high : Nat) (cs : List Char) : Except Fault (Nat × List Char) := do
  let (n, rest) ← readNumber least (some most) cs
  if low ≤ n ∧ n ≤ high then .ok (n, rest) else .error .outOfRange

/-- A given character. -/
def readMark (mark : Char) : List Char → Except Fault (List Char)
  | [] => .error .tooShort
  | c :: cs => if c = mark then .ok cs else .error .invalid

/-- What may stand between date and time. -/
def readDivider : List Char → Except Fault (List Char)
  | [] => .error .tooShort
  | c :: cs => if c = 't' ∨ c = 'T' ∨ c = ' ' then .ok cs else .error .invalid

/-- A fraction of a second in nanoseconds; digits after the ninth are passed over. -/
def readFraction : List Char → Except Fault (Nat × List Char)
  | '.' :: cs => do
      let (n, rest) ← readNumber 1 (some 9) cs
      let places := cs.length - rest.length
      .ok (n * Nat.pow 10 (9 - places), rest.dropWhile Char.isDigit)
  | cs => .ok (0, cs)

/-- Two digits as a number, if there are two bytes left. -/
def readPair : List Char → Except Fault (Nat × Nat × List Char)
  | cs =>
      if Text.byteLength cs < 2 then .error .tooShort
      else
        match cs with
        | a :: b :: rest =>
            if a.isDigit && b.isDigit then
              .ok (a.toNat - '0'.toNat, b.toNat - '0'.toNat, rest)
            else .error .invalid
        | _ => .error .invalid

/-- An offset from universal time in seconds: `Z`, or a sign, hours and minutes with
`divider` between them. -/
def readOffset (divider : List Char → Except Fault (List Char)) (cs : List Char) :
    Except Fault (Int × List Char) :=
  match cs with
  | [] => .error .tooShort
  | c :: rest =>
      if c = 'Z' ∨ c = 'z' then .ok (0, rest)
      else if c = '+' ∨ c = '-' ∨ c = '\u2212' then do
        let (h1, h2, rest) ← readPair rest
        let rest ← divider rest
        let (m1, m2, rest) ← readPair rest
        if 6 ≤ m1 then .error .outOfRange
        else
          let seconds : Int := ((h1 * 10 + h2) * 3600 + (m1 * 10 + m2) * 60 : Nat)
          .ok (if c = '+' then seconds else -seconds, rest)
      else .error .invalid

/-- The parts of a timestamp as they were written. -/
structure Parts where
  year : Int
  month : Nat
  day : Nat
  hour : Nat
  minute : Nat
  second : Nat
  nanosecond : Nat
  /-- Seconds ahead of universal time. -/
  offset : Int

/-- The moment that the parts name. -/
def Parts.moment (p : Parts) : Except Fault Timestamp := do
  let some date := Date.of? p.year p.month p.day | .error .outOfRange
  if p.offset ≤ -86400 ∨ 86400 ≤ p.offset then .error .outOfRange
  else
    let nanosecond := p.nanosecond + if p.second = 60 then 1000000000 else 0
    let localSecond : Int := p.hour * 3600 + p.minute * 60 + (min p.second 59 : Nat)
    let moved := localSecond - p.offset
    if moved < 0 then
      match date.previous? with
      | some date => .ok ⟨date, (moved + 86400).toNat, nanosecond⟩
      | none => .error .impossible
    else if 86400 ≤ moved then
      match date.next? with
      | some date => .ok ⟨date, (moved - 86400).toNat, nanosecond⟩
      | none => .error .impossible
    else .ok ⟨date, moved.toNat, nanosecond⟩

/-- Reads the notation of the standard. -/
def readStrict (s : String) : Except Fault Timestamp := do
  let (year, cs) ← readNumber 4 (some 4) s.toList
  let cs ← readMark '-' cs
  let (month, cs) ← readWithin 2 2 1 12 cs
  let cs ← readMark '-' cs
  let (day, cs) ← readWithin 2 2 1 31 cs
  let cs ← readDivider cs
  let (hour, cs) ← readWithin 2 2 0 23 cs
  let cs ← readMark ':' cs
  let (minute, cs) ← readWithin 2 2 0 59 cs
  let cs ← readMark ':' cs
  let (second, cs) ← readWithin 2 2 0 60 cs
  let (nanosecond, cs) ← readFraction cs
  let (offset, cs) ← readOffset (readMark ':') cs
  if offset < -86340 ∨ 86340 < offset then .error .outOfRange
  else if !cs.isEmpty then .error .tooLong
  else Parts.moment ⟨year, month, day, hour, minute, second, nanosecond, offset⟩

/-- A year: a sign and any number of digits, or at most four digits. -/
def readYear (cs : List Char) : Except Fault (Int × List Char) := do
  let (year, rest) ← match Text.trimStart cs with
    | '-' :: cs => do
        let (n, rest) ← readNumber 1 none cs
        pure (-(n : Int), rest)
    | '+' :: cs => do
        let (n, rest) ← readNumber 1 none cs
        pure ((n : Int), rest)
    | cs => do
        let (n, rest) ← readNumber 1 (some 4) cs
        pure ((n : Int), rest)
  if -2147483648 ≤ year ∧ year ≤ 2147483647 then .ok (year, rest) else .error .outOfRange

/-- A number of one or two digits after blanks. -/
def readLoose (low high : Nat) (cs : List Char) : Except Fault (Nat × List Char) :=
  readWithin 1 2 low high (Text.trimStart cs)

/-- A given character after blanks. -/
def readLooseMark (mark : Char) (cs : List Char) : Except Fault (List Char) :=
  readMark mark (Text.trimStart cs)

/-- The letters `UTC` in either case, or an offset. -/
def readLooseOffset (cs : List Char) : Except Fault (Int × List Char) :=
  match cs with
  | a :: b :: c :: rest =>
      if a.toUpper = 'U' ∧ b.toUpper = 'T' ∧ c.toUpper = 'C' then .ok (0, rest)
      else readOffset (fun cs => .ok (cs.dropWhile fun c => c = ':' || Text.isBlank c)) cs
  | _ => readOffset (fun cs => .ok (cs.dropWhile fun c => c = ':' || Text.isBlank c)) cs

/-- Reads the notation with the liberties people take. -/
def read (s : String) : Except Fault Timestamp := do
  let (year, cs) ← readYear s.toList
  let cs ← readLooseMark '-' cs
  let (month, cs) ← readLoose 1 12 cs
  let cs ← readLooseMark '-' cs
  let (day, cs) ← readLoose 1 31 cs
  let cs ← readDivider cs
  let (hour, cs) ← readLoose 0 23 cs
  let cs ← readLooseMark ':' cs
  let (minute, cs) ← readLoose 0 59 cs
  let cs ← readLooseMark ':' cs
  let (second, cs) ← readLoose 0 60 cs
  let (nanosecond, cs) ← readFraction cs
  let (offset, cs) ← readLooseOffset (Text.trimStart cs)
  if !(Text.trimStart cs).isEmpty then .error .tooLong
  else Parts.moment ⟨year, month, day, hour, minute, second, nanosecond, offset⟩

end Timestamp
end PacketPolicy
