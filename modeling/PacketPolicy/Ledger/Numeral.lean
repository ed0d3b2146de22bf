import PacketPolicy.Decimal.Extended
import PacketPolicy.Decimal.Shortest
import PacketPolicy.Json.Number
import PacketPolicy.Ledger.Table

namespace PacketPolicy
namespace Ledger

/-!
# Numerals in the tables

Columns of whole numbers read texts that are numerals, and columns of texts write numbers
as numerals.  Both go by way of numbers of extended precision.

* `numeral?` -- the parts of a text that is a numeral;
* `Cell.ofText` -- what a column of whole numbers makes of a text;
* `realText` -- the numeral of a floating number, of at most fifteen digits.

A numeral may have blank characters around it and a sign, a fraction and a power of ten,
all of which may be left out, as long as there is a digit in front of or behind the point.
-/

open Decimal

/-! ## Reading -/

/-- The blank characters that numerals may have around them. -/
def isNumeralBlank (c : Char) : Bool :=
  c == ' ' || (0x09 ≤ c.toNat && c.toNat ≤ 0x0D)

/-- A text without blank characters around it. -/
def numeralChars (s : String) : List Char :=
  ((s.toList.dropWhile isNumeralBlank).reverse.dropWhile isNumeralBlank).reverse

/-- The parts of a text that is a numeral. -/
def numeral? (cs : List Char) : Option Json.Number.Numeral :=
  let negative := cs.head? == some '-'
  let cs := match cs with
    | '-' :: rest => rest
    | '+' :: rest => rest
    | cs => cs
  let whole := cs.takeWhile Char.isDigit
  let (fraction, cs) := match cs.dropWhile Char.isDigit with
    | '.' :: rest => (some (rest.takeWhile Char.isDigit), rest.dropWhile Char.isDigit)
    | rest => (none, rest)
  if whole.isEmpty && (fraction.getD []).isEmpty then none
  else
    match cs with
    | [] => some { negative, whole, fraction, power := none }
    | mark :: rest =>
        let (below, digits) := match rest with
          | '-' :: digits => (true, digits)
          | '+' :: digits => (false, digits)
          | digits => (false, digits)
        if (mark = 'e' ∨ mark = 'E') ∧ !digits.isEmpty ∧ digits.all Char.isDigit then
          some { negative, whole, fraction, power := some (below, digits) }
        else none

/-- The digits read so far: the number `value * 10 ^ power`. -/
structure Reading where
  value : Nat
  power : Int
deriving DecidableEq, Repr, Inhabited

/-- A value below this one has room for another digit within sixty-four bits. -/
def digitRoom : Nat := 1844674407370955160

/-- One more digit in front of the point; without room for it only its place counts. -/
def Reading.pushWhole (r : Reading) (c : Char) : Reading :=
  if r.value < digitRoom then { r with value := r.value * 10 + (c.toNat - '0'.toNat) }
  else { r with power := r.power + 1 }

/-- One more digit behind the point, if there is room for it. -/
def Reading.pushFraction (r : Reading) (c : Char) : Reading :=
  if r.value < digitRoom then ⟨r.value * 10 + (c.toNat - '0'.toNat), r.power - 1⟩ else r

/-- No written power of ten counts for more than this one, unless its digits exceed it
with the very last of them. -/
def powerCeiling : Nat := 10000

/-- A written power of ten. -/
def writtenPower (digits : List Char) : Nat :=
  digits.foldl
    (fun n c => if n < powerCeiling then n * 10 + (c.toNat - '0'.toNat) else powerCeiling) 0

/-- The same number with a lower positive power, as far as there is room; `limit` bounds
the number of steps. -/
def Reading.lowered : Nat → Reading → Reading
  | 0, r => r
  | limit + 1, r =>
      if 0 < r.power ∧ r.value ≤ digitRoom then lowered limit ⟨r.value * 10, r.power - 1⟩ else r

/-- The same number with a higher negative power, as long as its last digit is zero. -/
def Reading.raised : Nat → Reading → Reading
  | 0, r => r
  | limit + 1, r =>
      if r.power < 0 ∧ r.value % 10 = 0 then raised limit ⟨r.value / 10, r.power + 1⟩ else r

/-- What the parts of a numeral say, apart from the sign. -/
def Reading.ofNumeral (n : Json.Number.Numeral) : Reading :=
  let r := (n.fraction.getD []).foldl pushFraction (n.whole.foldl pushWhole ⟨0, 0⟩)
  let written : Int := match n.power with
    | none => 0
    | some (below, digits) => if below then -(writtenPower digits : Int) else writtenPower digits
  if r.value = 0 then ⟨0, 0⟩ else raised 20 (lowered 20 { r with power := written + r.power })

/-- The number, found by multiplying with the hundredth, the tenth and the first power of
ten, or with their inverses. -/
def Reading.extended (r : Reading) : Extended :=
  let n := r.power.natAbs
  let powerOf := fun (k : Nat) => Extended.ofPower (if 0 ≤ r.power then k else -k)
  (powerOf 1).timesRepeated (n % 10)
    ((powerOf 10).timesRepeated (n % 100 / 10)
      ((powerOf 100).timesRepeated (n / 100) (.ofNat r.value)))

/-- The bits of the floating number of a numeral. -/
def realBits (n : Json.Number.Numeral) : UInt64 :=
  (Reading.ofNumeral n).extended.toBits n.negative

/-- The whole number that a floating number is, if it is one of sixty-four bits. -/
def wholeOfBits? (bits : UInt64) : Option Int64 :=
  (Binary.ofBits bits).whole?.bind fun n =>
    if -9223372036854775807 ≤ n ∧ n ≤ 9223372036854775807 then some (Int64.ofInt n) else none

/-- A floating number in a column of whole numbers. -/
def Cell.ofBits (bits : UInt64) : Cell :=
  match wholeOfBits? bits with
  | some n => .integer n
  | none => .real bits

/-- The bits of the floating number that is nearest to a whole number. -/
def bitsOfInt (n : Int) : UInt64 :=
  (Extended.ofNat n.natAbs).toBits (n < 0)

/-- A number in a column of whole numbers. -/
def Cell.ofNumber : Json.Number → Cell
  | .integer n =>
      if n.val ≤ 9223372036854775807 then .integer (Int64.ofInt n.val)
      else .ofBits (bitsOfInt n.val)
  | .floating bits => .ofBits bits

/-- What a column of whole numbers makes of a text: the whole number of which it is a
numeral, a floating number, or else the text itself. -/
def Cell.ofText (s : String) : Cell :=
  match numeral? (numeralChars s) with
  | none => .text s
  | some n =>
      let value : Int := Text.digitsValue n.whole
      let value := if n.negative then -value else value
      if n.fraction.isNone ∧ n.power.isNone ∧ -9223372036854775808 ≤ value
          ∧ value ≤ 9223372036854775807 then .integer (Int64.ofInt value)
      else .ofBits (realBits n)

/-! ## Writing -/

/-- Numbers are written out from a ten-thousandth up to fifteen places. -/
def realLayout : Layout where
  least := -4
  greatest := 14
  powerDigits := 2
  pointed := true

/-- Multiplies a number as long as it is at least `bound`, and counts the places by which
that moves the point; `limit` bounds the number of steps. -/
def shrunk (bound factor : Extended) (places : Int) : Nat → Extended × Int → Extended × Int
  | 0, r => r
  | limit + 1, (a, k) =>
      if a.atLeast bound then shrunk bound factor places limit (a.times factor, k + places)
      else (a, k)

/-- Multiplies a number as long as it is below `bound`. -/
def grown (bound factor : Extended) (places : Int) : Nat → Extended × Int → Extended × Int
  | 0, r => r
  | limit + 1, (a, k) =>
      if a.atLeast bound then (a, k)
      else grown bound factor places limit (a.times factor, k - places)

/-- A number as seventeen to nineteen digits and a power of ten. -/
def spread (a : Extended) : Extended × Int :=
  let power := Extended.ofPower
  if a.atLeast (power 19) then
    shrunk (power 19) (power (-1)) 1 20
      (shrunk (power 29) (power (-10)) 10 20 (shrunk (power 119) (power (-100)) 100 20 (a, 0)))
  else
    grown (power 17) (power 1) 1 20
      (grown (power 7) (power 10) 10 20 (grown (power (-97)) (power 100) 100 20 (a, 0)))

/-- The digits that a numeral has at most. -/
def greatestPlaces : Nat := 15

/-- Whole digits and a power of ten, rounded to as many digits as a numeral has. -/
def rounded (digits : Nat) (power : Int) : Scaled :=
  let excess := (Nat.toDigits 10 digits).length - greatestPlaces
  if excess = 0 then ⟨digits, power⟩
  else
    let kept := digits / tenTo excess
    let next := digits / tenTo (excess - 1) % 10
    ⟨if 5 ≤ next then kept + 1 else kept, power + excess⟩

/-- The numeral of a finite floating number. -/
def realText (bits : UInt64) : String :=
  let b := Binary.ofBits bits
  if b.significand = 0 then "0.0"
  else
    let (a, power) := spread (.ofBinary b)
    let digits := (withoutZeros 20 (rounded a.floor power)).text realLayout
    String.ofList (if b.negative then '-' :: digits else digits)

/-- The numeral of a number in a column of texts. -/
def numberText : Json.Number → String
  | .integer n =>
      if n.val ≤ 9223372036854775807 then toString n.val else realText (bitsOfInt n.val)
  | .floating bits => realText bits

end Ledger
end PacketPolicy
