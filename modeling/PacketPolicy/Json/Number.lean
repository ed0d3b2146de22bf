import PacketPolicy.Decimal.Shortest
import PacketPolicy.Text.Digits

namespace PacketPolicy
namespace Json

/-!
# Numbers of documents

A number is whole, when it is written without fraction and exponent and fits sixty-four
bits with or without a sign, and floating otherwise.  Minus zero is floating.

* `Number.ofNumeral?` -- the number of a numeral; none, when it is beyond the range of
  floating numbers;
* `Number.text` -- the numeral of a number.

A floating number is found from its digits without a last correction: the digits are one
whole number of at most sixty-four bits, digits beyond them only count, and the result is
multiplied with or divided by a power of ten.
-/

/-- A whole number that fits sixty-four bits with or without a sign. -/
structure Integer where
  val : Int
  least_le : -9223372036854775808 ≤ val
  le_greatest : val ≤ 18446744073709551615
deriving DecidableEq, Repr

instance : Inhabited Integer := ⟨⟨0, by decide, by decide⟩⟩

/-- The whole number, if it fits. -/
def Integer.of? (n : Int) : Option Integer :=
  if h : -9223372036854775808 ≤ n ∧ n ≤ 18446744073709551615 then some ⟨n, h.1, h.2⟩ else none

/-- A number of a document. -/
inductive Number where
  | integer (n : Integer)
  /-- A floating number by its sixty-four bits. -/
  | floating (bits : UInt64)
deriving DecidableEq, Repr, Inhabited

namespace Number

/-! ## Writing -/

/-- Floating numbers are written out from a hundred-thousandth up to sixteen places. -/
def layout : Decimal.Layout where
  least := -5
  greatest := 15
  powerDigits := 1
  pointed := false

/-- The numeral of a floating number. -/
def floatingText (bits : UInt64) : List Char :=
  let b := Decimal.Binary.ofBits bits
  let sign : List Char := if b.negative then ['-'] else []
  if b.significand = 0 then sign ++ ['0', '.', '0']
  else sign ++ (Decimal.shortest b.significand b.exponent b.narrowBelow).text layout

/-- The numeral of a number. -/
def text : Number → String
  | .integer n => toString n.val
  | .floating bits => String.ofList (floatingText bits)

/-! ## Reading -/

/-- The parts of a numeral, each as it was written. -/
structure Numeral where
  negative : Bool
  whole : List Char
  /-- The digits after the point. -/
  fraction : Option (List Char)
  /-- Whether the power of ten is negative, and its digits. -/
  power : Option (Bool × List Char)
deriving Repr, Inhabited

/-- The greatest whole number of sixty-four bits. -/
def greatestWord : Nat := 18446744073709551615

/-- The greatest power of ten that a floating number can be multiplied with at once. -/
def greatestPower : Nat := 308

/-- The digits read so far, as a number of sixty-four bits, with the digits that had no
more room in it. -/
structure Significand where
  value : Nat
  /-- The digits without room. -/
  beyond : Nat
deriving Repr, Inhabited

/-- One digit more.  After the first digit without room all others are without room. -/
def Significand.push (s : Significand) (c : Char) : Significand :=
  let value := s.value * 10 + (c.toNat - '0'.toNat)
  if s.beyond = 0 ∧ value ≤ greatestWord then { s with value }
  else { s with beyond := s.beyond + 1 }

/-- The floating number `f * 10 ^ power`, if it is in range.  Powers below the table's end
are reached in several steps, of which `limit` bounds the number. -/
def scale? : Nat → Float → Int → Option Float
  | 0, f, _ => some f
  | limit + 1, f, power =>
      if power.natAbs ≤ greatestPower then
        let step := Float.ofScientific 1 false power.natAbs
        if 0 ≤ power then
          let f := f * step
          if f.isInf then none else some f
        else some (f / step)
      else if f == 0 then some f
      else if 0 ≤ power then none
      else scale? limit (f / Float.ofScientific 1 false greatestPower) (power + greatestPower)

/-- The floating number of a significand and a power of ten. -/
def floating? (negative : Bool) (significand : Nat) (power : Int) : Option Number :=
  (scale? 400 significand.toUInt64.toFloat power).map fun f =>
    .floating (if negative then -f else f).toBits

/-- The greatest power of ten that is told from greater ones. -/
def powerLimit : Nat := 2147483647

/-- The power of ten raised by a written one, kept within thirty-two bits. -/
def raised (power : Int) (negative : Bool) (by_ : Nat) : Int :=
  if negative then max (-2147483648) (power - by_) else min 2147483647 (power + by_)

/-- The number of a numeral with a fraction or a power of ten. -/
def ofScientific? (n : Numeral) : Option Number :=
  let whole := n.whole.foldl Significand.push ⟨0, 0⟩
  let all := (n.fraction.getD []).foldl Significand.push ⟨whole.value, 0⟩
  let read := (n.fraction.getD []).length - all.beyond
  let power : Int := (whole.beyond : Int) - read
  match n.power with
  | none => floating? n.negative all.value power
  | some (negative, digits) =>
      let written := Text.digitsValue digits
      if powerLimit < written then
        if all.value ≠ 0 ∧ !negative then none
        else some (.floating (if n.negative then -0.0 else 0.0 : Float).toBits)
      else floating? n.negative all.value (raised power negative written)

/-- The number of a numeral. -/
def ofNumeral? (n : Numeral) : Option Number :=
  match n.fraction, n.power with
  | none, none =>
      let value : Int := Text.digitsValue n.whole
      if n.negative ∧ value = 0 then some (.floating (-0.0 : Float).toBits)
      else
        match Integer.of? (if n.negative then -value else value) with
        | some i => some (.integer i)
        | none => ofScientific? n
  | _, _ => ofScientific? n

end Number
end Json
end PacketPolicy
