namespace PacketPolicy
namespace Text

/-!
# Numerals

Whole numbers in decimal and in hexadecimal digits, and a text cut at a mark.

* `digitsValue`, `natOfDigits?` -- the number that a run of decimal digits stands for;
* `intOfDigits?` -- the same with a sign in front;
* `hexDigit?`, `hexValue?` -- hexadecimal digits of either case;
* `pieces` -- what stands between the marks of a text.
-/

/-- The number that decimal digits stand for. -/
def digitsValue (digits : List Char) : Nat :=
  digits.foldl (fun n c => n * 10 + (c.toNat - '0'.toNat)) 0

/-- The number that a text stands for, if it is one or more decimal digits. -/
def natOfDigits? (cs : List Char) : Option Nat :=
  if !cs.isEmpty && cs.all Char.isDigit then some (digitsValue cs) else none

/-- The number that decimal digits after an optional sign stand for. -/
def intOfDigits? : List Char → Option Int
  | '-' :: cs => (natOfDigits? cs).map fun n => -(n : Int)
  | '+' :: cs => (natOfDigits? cs).map Int.ofNat
  | cs => (natOfDigits? cs).map Int.ofNat

/-- The value of a hexadecimal digit. -/
def hexDigit? (c : Char) : Option Nat :=
  if '0' ≤ c ∧ c ≤ '9' then some (c.toNat - '0'.toNat)
  else if 'a' ≤ c ∧ c ≤ 'f' then some (c.toNat - 'a'.toNat + 10)
  else if 'A' ≤ c ∧ c ≤ 'F' then some (c.toNat - 'A'.toNat + 10)
  else none

/-- The number that hexadecimal digits stand for; no digits stand for zero. -/
def hexValue? (cs : List Char) : Option Nat :=
  cs.foldl (fun n c => n.bind fun n => (hexDigit? c).map (n * 16 + ·)) (some 0)

/-- What stands before, between and after the marks of a text: one piece more
than there are marks. -/
def pieces (mark : Char) : List Char → List (List Char)
  | [] => [[]]
  | c :: cs =>
      if c = mark then [] :: pieces mark cs
      else
        match pieces mark cs with
        | [] => [[c]]
        | piece :: rest => (c :: piece) :: rest

/-- A text has one piece more than marks. -/
theorem length_pieces (mark : Char) (cs : List Char) :
    (pieces mark cs).length = cs.count mark + 1 := by
  induction cs with
  | nil => simp [pieces]
  | cons c cs ih =>
      by_cases h : c = mark
      · simp [pieces, h, ih]
      · cases hp : pieces mark cs with
        | nil => simp [hp] at ih
        | cons piece rest => simpa [pieces, h, hp] using ih

end Text
end PacketPolicy
