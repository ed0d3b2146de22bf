namespace PacketPolicy
namespace Decimal

/-!
# Floating numbers by their bits

A finite floating number of sixty-four bits is `m * 2 ^ q` with a sign.  Of its bits the
first is the sign, the next eleven say what `q` is, and the others hold `m`, which has one
more bit in front except for the numbers next to zero.

* `Binary.ofBits` -- the parts of a number;
* `Binary.whole?` -- the whole number that it is, if it is one.
-/

/-- A power of two. -/
def twoTo (n : Nat) : Nat := Nat.pow 2 n

/-- A power of ten. -/
def tenTo (n : Nat) : Nat := Nat.pow 10 n

/-- The number `significand * 2 ^ exponent` with a sign. -/
structure Binary where
  negative : Bool
  significand : Nat
  exponent : Int
  /-- Whether the numbers below are half as far apart as those above. -/
  narrowBelow : Bool
deriving DecidableEq, Repr, Inhabited

namespace Binary

/-- The parts of a finite number. -/
def ofBits (bits : UInt64) : Binary :=
  let field := bits.toNat / twoTo 52 % twoTo 11
  let fraction := bits.toNat % twoTo 52
  { negative := bits.toNat / twoTo 63 != 0
    significand := if field = 0 then fraction else fraction + twoTo 52
    exponent := (if field = 0 then 1 else field : Nat) - 1075
    narrowBelow := fraction == 0 && decide (1 < field) }

/-- The whole number that a number is. -/
def whole? (b : Binary) : Option Int :=
  let scaled := b.significand * twoTo b.exponent.toNat
  let unit := twoTo (-b.exponent).toNat
  if scaled % unit = 0 then
    some (if b.negative then -(scaled / unit : Nat) else (scaled / unit : Nat))
  else none

end Binary
end Decimal
end PacketPolicy
