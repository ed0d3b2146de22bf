import PacketPolicy.Decimal.Binary

namespace PacketPolicy
namespace Decimal

/-!
# The shortest decimal that reads back

A binary fraction `m * 2 ^ q` stands for all reals that round to it: half a step to
either side, a quarter step below where the steps below are half as wide, the ends
included when `m` is even.  Of the decimals in that interval the one with the fewest
digits is taken, of several with as many digits the nearest, and of two that are
equally near the even one.

* `shortest` -- that decimal;
* `Decimal.text` -- a decimal in positional or in scientific notation.

If a point of a decimal grid lies in the interval, so does one of the two neighbours of
the number itself on that grid; hence two candidates for each number of digits are enough.
-/

/-- The number `digits * 10 ^ exponent`. -/
structure Scaled where
  digits : Nat
  exponent : Int
deriving DecidableEq, Repr, Inhabited

/-- Two whole numbers in the proportion of `a * 10 ^ k` to `b * 2 ^ j`. -/
def proportion (a : Nat) (k : Int) (b : Nat) (j : Int) : Nat × Nat :=
  (a * tenTo k.toNat * twoTo (-j).toNat, b * twoTo j.toNat * tenTo (-k).toNat)

/-- The power of ten of the first digit of `m * 2 ^ q`, where `m` is not zero. -/
def magnitude (m : Nat) (q : Int) : Int :=
  let above := m * twoTo q.toNat
  let below := twoTo (-q).toNat
  if below ≤ above then (Nat.toDigits 10 (above / below)).length - 1
  else
    let places := (Nat.toDigits 10 (below / above)).length
    if below ≤ above * tenTo (places - 1) then -(places - 1 : Nat) else -places

/-- An interval of reals around `m * 2 ^ q`; its ends are whole numbers of quarter steps. -/
structure Interval where
  low : Nat
  high : Nat
  /-- The power of two of a quarter step. -/
  step : Int
  closed : Bool

/-- The reals that round to `m * 2 ^ q`. -/
def Interval.around (m : Nat) (q : Int) (narrowBelow : Bool) : Interval where
  low := 4 * m - if narrowBelow then 1 else 2
  high := 4 * m + 2
  step := q - 2
  closed := m % 2 == 0

/-- Whether `digits * 10 ^ k` lies in the interval. -/
def Interval.contains (i : Interval) (digits : Nat) (k : Int) : Bool :=
  let (a, low) := proportion digits k i.low i.step
  let (b, high) := proportion digits k i.high i.step
  if i.closed then low ≤ a && b ≤ high else low < a && b < high

/-- The decimal with so many digits that lies in the interval, if one does. -/
def withDigits? (m : Nat) (q : Int) (interval : Interval) (count : Nat) : Option Scaled :=
  let k := magnitude m q + 1 - count
  let (unit, value) := proportion 1 k m q
  let digits := value / unit
  let rest := 2 * (value % unit)
  let nearestAbove := unit < rest || (unit == rest && digits % 2 == 1)
  match interval.contains digits k, interval.contains (digits + 1) k with
  | true, true => some ⟨if nearestAbove then digits + 1 else digits, k⟩
  | true, false => some ⟨digits, k⟩
  | false, true => some ⟨digits + 1, k⟩
  | false, false => none

/-- The same number without zeros at the end of its digits; `limit` bounds their count. -/
def withoutZeros : Nat → Scaled → Scaled
  | 0, s => s
  | limit + 1, s =>
      if s.digits ≠ 0 ∧ s.digits % 10 = 0 then withoutZeros limit ⟨s.digits / 10, s.exponent + 1⟩
      else s

/-- The decimal that stands for `m * 2 ^ q`, where `m` is not zero. -/
def shortest (m : Nat) (q : Int) (narrowBelow : Bool) : Scaled :=
  let interval := Interval.around m q narrowBelow
  match (List.range 17).findSome? fun n => withDigits? m q interval (n + 1) with
  | some s => withoutZeros 17 s
  | none => ⟨m, q⟩

/-- When a decimal is written out in places, and when with a power of ten. -/
structure Layout where
  /-- The least power of ten of a first digit that is written out. -/
  least : Int
  /-- The greatest such power. -/
  greatest : Int
  /-- The least number of digits of a power of ten. -/
  powerDigits : Nat
  /-- Whether a lone digit in front of a power of ten has a zero after the point. -/
  pointed : Bool

/-- A power of ten with its sign. -/
def powerText (layout : Layout) (power : Int) : List Char :=
  let digits := Nat.toDigits 10 power.natAbs
  'e' :: (if power < 0 then '-' else '+') ::
    (List.replicate (layout.powerDigits - digits.length) '0' ++ digits)

/-- A decimal in the notation of a layout; a whole number written out has one zero
after the point. -/
def Scaled.text (layout : Layout) (s : Scaled) : List Char :=
  let digits := Nat.toDigits 10 s.digits
  let power : Int := s.exponent + digits.length - 1
  if layout.least ≤ power ∧ power ≤ layout.greatest then
    if 0 ≤ s.exponent then digits ++ List.replicate s.exponent.toNat '0' ++ ['.', '0']
    else if 0 ≤ power then
      digits.take (power.toNat + 1) ++ '.' :: digits.drop (power.toNat + 1)
    else '0' :: '.' :: (List.replicate ((-power).toNat - 1) '0' ++ digits)
  else
    match digits with
    | [] => powerText layout power
    | [d] => d :: ((if layout.pointed then ['.', '0'] else []) ++ powerText layout power)
    | d :: rest => d :: '.' :: (rest ++ powerText layout power)

end Decimal
end PacketPolicy
