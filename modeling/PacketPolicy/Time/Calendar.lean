namespace PacketPolicy

/-!
# The calendar

Days of the Gregorian calendar, carried back before its introduction, with a year
zero and negative years.  The calendar has a first and a last day, far outside any
day a record can be about.

* `Date.of?` -- the day of a year, month and day of the month, if there is one;
* `Date.next?`, `Date.previous?` -- the neighbouring days;
* `Date.after` -- the day so many days after another one.
-/

/-- A day of the calendar. -/
structure Date where
  year : Int
  month : Nat
  day : Nat
deriving DecidableEq, Repr, Inhabited

namespace Date

/-- The first year of the calendar. -/
def firstYear : Int := -262143

/-- The last year of the calendar. -/
def lastYear : Int := 262142

/-- A leap year has a number divisible by four, but not by a hundred unless by four hundred. -/
def isLeapYear (year : Int) : Bool :=
  year % 4 == 0 && (year % 100 != 0 || year % 400 == 0)

/-- The number of days of a month. -/
def daysOfMonth (year : Int) (month : Nat) : Nat :=
  if month == 2 then if isLeapYear year then 29 else 28
  else if month == 4 || month == 6 || month == 9 || month == 11 then 30
  else 31

/-- The day with these numbers, if the calendar has one. -/
def of? (year : Int) (month day : Nat) : Option Date :=
  if firstYear ≤ year ∧ year ≤ lastYear ∧ 1 ≤ month ∧ month ≤ 12 ∧ 1 ≤ day ∧
      day ≤ daysOfMonth year month then
    some ⟨year, month, day⟩
  else none

/-- The following day. -/
def next? (d : Date) : Option Date :=
  if d.day < daysOfMonth d.year d.month then some { d with day := d.day + 1 }
  else if d.month < 12 then some ⟨d.year, d.month + 1, 1⟩
  else of? (d.year + 1) 1 1

/-- The day before. -/
def previous? (d : Date) : Option Date :=
  if 1 < d.day then some { d with day := d.day - 1 }
  else if 1 < d.month then some ⟨d.year, d.month - 1, daysOfMonth d.year (d.month - 1)⟩
  else of? (d.year - 1) 12 31

/-- The day `n` days after another one; the calendar does not go beyond its last day. -/
def after : Nat → Date → Date
  | 0, d => d
  | n + 1, d =>
      match d.next? with
      | some d => after n d
      | none => d

/-- The day from which systems count. -/
def epoch : Date := ⟨1970, 1, 1⟩

end Date
end PacketPolicy
