import PacketPolicy.Decimal.Binary

namespace PacketPolicy
namespace Decimal

/-!
# Floating numbers of extended precision

Numbers `m * 2 ^ q` whose significand `m` takes up to sixty-four bits.  They are what one
reckons with on the way between decimals and floating numbers of double precision, whose
significand has fifty-three bits.

* `nearest` -- a fraction rounded to so many bits, of two that are equally near to the one
  with an even significand;
* `Extended.times` -- the product, rounded;
* `Extended.toBits` -- the number of double precision that is nearest.
-/

/-- The fraction `n / d` as `m * 2 ^ q`, where `m` takes up to `bits` bits and `q` is not
below `least`. -/
def nearest (bits : Nat) (least : Int) (n d : Nat) : Nat × Int :=
  let first := max ((Nat.log2 n : Int) - Nat.log2 d - bits) least
  let tooSmall := twoTo bits ≤ n * twoTo (-first).toNat / (d * twoTo first.toNat)
  let q := if tooSmall then first + 1 else first
  let above := n * twoTo (-q).toNat
  let below := d * twoTo q.toNat
  let floor := above / below
  let rest := 2 * (above % below)
  let m := if below < rest || (below == rest && floor % 2 == 1) then floor + 1 else floor
  if m = twoTo bits then (m / 2, q + 1) else (m, q)

/-- The number `significand * 2 ^ exponent`, which is not negative. -/
structure Extended where
  significand : Nat
  exponent : Int
deriving DecidableEq, Repr, Inhabited

namespace Extended

/-- The least power of two of a significand. -/
def leastExponent : Int := -16445

/-- The number nearest to a fraction. -/
def ofFraction (n d : Nat) : Extended :=
  let (m, q) := nearest 64 leastExponent n d
  ⟨m, q⟩

/-- The number nearest to a whole number. -/
def ofNat (n : Nat) : Extended :=
  ofFraction n 1

/-- The number nearest to a power of ten. -/
def ofPower (k : Int) : Extended :=
  ofFraction (tenTo k.toNat) (tenTo (-k).toNat)

/-- The number of which a floating number of double precision is the magnitude. -/
def ofBinary (b : Binary) : Extended :=
  ofFraction (b.significand * twoTo b.exponent.toNat) (twoTo (-b.exponent).toNat)

/-- The product of two numbers. -/
def times (a b : Extended) : Extended :=
  let (m, q) := nearest 64 (leastExponent - (a.exponent + b.exponent))
    (a.significand * b.significand) 1
  ⟨m, q + (a.exponent + b.exponent)⟩

/-- A number multiplied so many times with the same factor. -/
def timesRepeated (factor : Extended) : Nat → Extended → Extended
  | 0, a => a
  | n + 1, a => timesRepeated factor n (a.times factor)

/-- Whether a number is at least another one. -/
def atLeast (a b : Extended) : Bool :=
  let low := min a.exponent b.exponent
  b.significand * twoTo (b.exponent - low).toNat ≤ a.significand * twoTo (a.exponent - low).toNat

/-- The whole number below. -/
def floor (a : Extended) : Nat :=
  a.significand * twoTo a.exponent.toNat / twoTo (-a.exponent).toNat

/-- The greatest finite number of double precision. -/
def greatestDouble : Extended :=
  ⟨twoTo 53 - 1, 971⟩

/-- The bits of infinity. -/
def infinityBits : Nat := 0x7FF0000000000000

/-- The bits of the number of double precision that is nearest; what is greater than all
of them is infinite. -/
def toBits (negative : Bool) (a : Extended) : UInt64 :=
  let magnitude :=
    if !greatestDouble.atLeast a then infinityBits
    else
      let (m, q) := nearest 53 (-1074) (a.significand * twoTo a.exponent.toNat)
        (twoTo (-a.exponent).toNat)
      if m < twoTo 52 then m else (q + 1075).toNat * twoTo 52 + (m - twoTo 52)
  UInt64.ofNat (magnitude + if negative then twoTo 63 else 0)

end Extended
end Decimal
end PacketPolicy
