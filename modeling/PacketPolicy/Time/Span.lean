namespace PacketPolicy

/-!
# Spans of time

A `Span` is a length of time in whole nanoseconds.  Its text names the largest
unit of which it holds at least one, with a decimal fraction that has no zero at
its end.

* `Span.text` -- `1.5s`, `250ms`, `1.05ms`, `1.5µs`, `1ns`, `0ns`.
-/

/-- A length of time, in nanoseconds. -/
structure Span where
  nanoseconds : Nat
deriving DecidableEq, Repr, Inhabited

namespace Span

/-- No time at all. -/
def zero : Span := ⟨0⟩

def ofSeconds (n : Nat) : Span := ⟨n * 1000000000⟩

def ofMilliseconds (n : Nat) : Span := ⟨n * 1000000⟩

/-- The longest span whose seconds fit sixty-four bits. -/
def longest : Span := ⟨18446744073709551615 * 1000000000 + 999999999⟩

/-- The sum of two spans. -/
def add (a b : Span) : Span := ⟨a.nanoseconds + b.nanoseconds⟩

/-- The whole seconds of a span. -/
def seconds (s : Span) : Nat := s.nanoseconds / 1000000000

/-- The digits of `n`, which is below `10 ^ places`, in so many places, without
the zeros at the end. -/
def fractionDigits (places n : Nat) : List Char :=
  let digits := Nat.toDigits 10 n
  let padded := List.replicate (places - digits.length) '0' ++ digits
  (padded.reverse.dropWhile (· == '0')).reverse

/-- `whole` and `part / 10 ^ places` as one decimal number. -/
def decimal (whole places part : Nat) : String :=
  if part = 0 then toString whole
  else toString whole ++ "." ++ String.ofList (fractionDigits places part)

/-- The span in the largest of the units second, millisecond, microsecond and
nanosecond of which it holds at least one. -/
def text (s : Span) : String :=
  let n := s.nanoseconds
  if 1000000000 ≤ n then decimal (n / 1000000000) 9 (n % 1000000000) ++ "s"
  else if 1000000 ≤ n then decimal (n / 1000000) 6 (n % 1000000) ++ "ms"
  else if 1000 ≤ n then decimal (n / 1000) 3 (n % 1000) ++ "µs"
  else toString n ++ "ns"

end Span
end PacketPolicy
