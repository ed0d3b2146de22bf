import Mathlib.Algebra.Group.Nat.Defs
import PacketPolicy.Proofs.Text.Numerals
import PacketPolicy.Time.Timestamp

/-!
# Timestamps that were written

A moment of the years that have four digits is read back from its notation with the offset in
numbers.

* `Timestamp.Usual` -- the moments that the notation is made for;
* `readNumber_padded`, `readWithin_padded`, `readFraction_padded` -- numbers of a fixed width;
* `readFraction_fractionText` -- the fraction in whichever of its widths;
* `readStrict_offsetText` -- the whole notation, part by part;
* `Possible`, `asWritten`, `readStrict_eq_asWritten` -- what any other moment of these years is read
  as;
* `readStrict_offsetText_fault` -- a moment of any other year is not read at all.
-/

namespace PacketPolicy
namespace Timestamp

/-- A day of the calendar in a year of four digits, a second of the day, and a nanosecond that goes
beyond its second only in a leap second at the end of a minute. -/
structure Usual (t : Timestamp) : Prop where
  year : 0 ≤ t.date.year ∧ t.date.year ≤ 9999
  date : Date.of? t.date.year t.date.month t.date.day = some t.date
  second : t.second < 86400
  nanosecond : t.nanosecond < 2000000000
  leap : 1000000000 ≤ t.nanosecond → t.second % 60 = 59

/-! ## Numbers of a fixed width -/

theorem length_padded {width n : Nat} (hwidth : 0 < width) (h : n < 10 ^ width) :
    (padded width n).length = width := by
  have hlength : (Nat.toDigits 10 n).length ≤ width :=
    (Nat.length_toDigits_le_iff (by omega) hwidth).mpr h
  simp only [padded, List.length_append, List.length_replicate]
  omega

theorem isDigit_of_mem_padded {width n : Nat} {c : Char} (h : c ∈ padded width n) :
    c.isDigit = true := by
  rcases List.mem_append.mp h with hzero | hdigit
  · rw [List.eq_of_mem_replicate hzero]
    rfl
  · exact Nat.isDigit_of_mem_toDigits (by omega) (by omega) hdigit

/-- Zeros in front do not count. -/
theorem digitsValue_padded (width n : Nat) : Text.digitsValue (padded width n) = n := by
  have hzeros (k : Nat) (digits : List Char) :
      Text.digitsValue (List.replicate k '0' ++ digits) = Text.digitsValue digits := by
    induction k with
    | zero => rfl
    | succ k ih => exact ih
  rw [padded, hzeros, ← Nat.toList_repr, ← Nat.toString_eq_repr, Text.digitsValue_toString]

theorem length_le_byteLength (cs : List Char) : cs.length ≤ Text.byteLength cs := by
  induction cs with
  | nil => exact Nat.le_refl 0
  | cons c cs ih =>
      have hsize := c.utf8Size_pos
      rw [List.length_cons, Text.byteLength_cons]
      omega

/-- Where the digits end, either there is no room for more of them or something else stands
there. -/
theorem readNumber_digits {digits rest : List Char} {least most : Nat}
    (hdigits : ∀ c ∈ digits, c.isDigit = true) (hleast : least ≤ digits.length)
    (hmost : digits.length ≤ most)
    (hend : ∀ c ∈ (rest.take (most - digits.length)).head?, c.isDigit = false)
    (hvalue : Text.digitsValue digits ≤ 9223372036854775807) :
    readNumber least (some most) (digits ++ rest) = .ok (Text.digitsValue digits, rest) := by
  have hlength := length_le_byteLength (digits ++ rest)
  rw [List.length_append] at hlength
  have hwindow : ((digits ++ rest).take most).takeWhile Char.isDigit = digits := by
    rw [List.take_append, List.take_of_length_le hmost, List.takeWhile_append_of_pos hdigits]
    cases hrest : rest.take (most - digits.length) with
    | nil => simp
    | cons c cs => simp [hend c (by simp [hrest])]
  unfold readNumber
  simp only [hwindow]
  rw [if_neg (by omega), if_neg (by omega), if_neg (by omega), List.drop_left]

theorem readNumber_padded {width n : Nat} (hwidth : 0 < width) (hbound : width ≤ 18)
    (h : n < 10 ^ width) (rest : List Char) :
    readNumber width (some width) (padded width n ++ rest) = .ok (n, rest) := by
  have hlength := length_padded hwidth h
  have hpow : 10 ^ width ≤ 10 ^ 18 := Nat.pow_le_pow_right (by omega) hbound
  have hread := @readNumber_digits (padded width n) rest width width
    (fun _ => isDigit_of_mem_padded) (Nat.le_of_eq hlength.symm) (Nat.le_of_eq hlength)
    (by simp [hlength]) (by rw [digitsValue_padded]; omega)
  rwa [digitsValue_padded] at hread

/-- Two digits. -/
theorem readWithin_padded {low high n : Nat} (hlow : low ≤ n) (hhigh : n ≤ high)
    (hbound : high ≤ 99) (rest : List Char) :
    readWithin 2 2 low high (padded 2 n ++ rest) = .ok (n, rest) := by
  unfold readWithin
  rw [readNumber_padded (by omega) (by omega) (by omega)]
  show (if low ≤ n ∧ n ≤ high then _ else _) = _
  rw [if_pos ⟨hlow, hhigh⟩]

/-! ## Fractions of a second -/

/-- A fraction is counted in nanoseconds, whatever its width. -/
theorem readFraction_padded {width n : Nat} (hwidth : 0 < width) (hbound : width ≤ 9)
    (h : n < 10 ^ width) {rest : List Char} (hend : ∀ c ∈ rest.head?, c.isDigit = false) :
    readFraction ('.' :: (padded width n ++ rest)) = .ok (n * 10 ^ (9 - width), rest) := by
  have hlength := length_padded hwidth h
  have hpow : 10 ^ width ≤ 10 ^ 9 := Nat.pow_le_pow_right (by omega) hbound
  have hread := @readNumber_digits (padded width n) rest 1 9
    (fun _ => isDigit_of_mem_padded) (by omega) (by omega)
    (by
      intro c hc
      cases rest with
      | nil => simp at hc
      | cons d cs =>
          cases hroom : 9 - (padded width n).length with
          | zero => simp [hroom] at hc
          | succ k =>
              rw [hroom, List.take_succ_cons, List.head?_cons, Option.mem_some_iff] at hc
              exact hc ▸ hend d rfl)
    (by rw [digitsValue_padded]; omega)
  have hdrop : rest.dropWhile Char.isDigit = rest := by
    cases rest with
    | nil => rfl
    | cons d cs => simp [hend d rfl]
  rw [digitsValue_padded] at hread
  show (readNumber 1 (some 9) (padded width n ++ rest) >>= _) = _
  rw [hread]
  show Except.ok (n * Nat.pow 10 (9 - ((padded width n ++ rest).length - rest.length)),
    rest.dropWhile Char.isDigit) = _
  rw [hdrop, List.length_append, hlength, Nat.add_sub_cancel]
  rfl

/-- The fraction of a second is exact in the width that is chosen for it. -/
theorem readFraction_fractionText {nanosecond : Nat} (h : nanosecond < 1000000000)
    {c : Char} {rest : List Char} (hdigit : c.isDigit = false) (hpoint : c ≠ '.') :
    readFraction (fractionText nanosecond ++ c :: rest) = .ok (nanosecond, c :: rest) := by
  have hend : ∀ d ∈ (c :: rest).head?, d.isDigit = false := by
    intro d hd
    rwa [← Option.mem_some_iff.mp hd]
  unfold fractionText
  split
  · rename_i hzero
    subst hzero
    unfold readFraction
    split
    · rename_i heq
      exact absurd (List.cons.inj heq).1 hpoint
    · rfl
  split
  · rw [List.cons_append, readFraction_padded (by omega) (by omega) (by omega) hend]
    exact congrArg (fun n => Except.ok (n, c :: rest)) (by omega)
  split
  · rw [List.cons_append, readFraction_padded (by omega) (by omega) (by omega) hend]
    exact congrArg (fun n => Except.ok (n, c :: rest)) (by omega)
  · rw [List.cons_append, readFraction_padded (by omega) (by omega) (by omega) hend]
    exact congrArg (fun n => Except.ok (n, c :: rest)) (by omega)

/-! ## The whole notation -/

/-- The parts of the notation are the parts of the moment. -/
theorem moment_parts {t : Timestamp} (h : t.Usual) {second nanosecond : Nat}
    (hsecond : second = t.second % 60 + if 1000000000 ≤ t.nanosecond then 1 else 0)
    (hnanosecond : nanosecond =
      t.nanosecond - if 1000000000 ≤ t.nanosecond then 1000000000 else 0) :
    Parts.moment ⟨t.date.year, t.date.month, t.date.day, t.second / 3600, t.second / 60 % 60,
      second, nanosecond, 0⟩ = .ok t := by
  have hbelow := h.second
  have hleap := h.leap
  -- a second 60 is the last one of its minute, counted on
  have hnano : (nanosecond + if second = 60 then 1000000000 else 0) = t.nanosecond := by
    by_cases hcounted : 1000000000 ≤ t.nanosecond
    · rw [if_pos hcounted] at hsecond hnanosecond
      rw [if_pos (by omega)]
      omega
    · rw [if_neg hcounted] at hsecond hnanosecond
      rw [if_neg (by omega)]
      omega
  have htotal : ((t.second / 3600 : Nat) : Int) * 3600 + ((t.second / 60 % 60 : Nat) : Int) * 60 +
      ((min second 59 : Nat) : Int) = t.second := by
    split at hsecond <;> omega
  unfold Parts.moment
  simp only [h.date, hnano, htotal]
  rw [if_neg (by omega), if_neg (by omega), if_neg (by omega)]
  simp

theorem daysOfMonth_le (year : Int) (month : Nat) : Date.daysOfMonth year month ≤ 31 := by
  unfold Date.daysOfMonth
  split
  · split <;> omega
  · split <;> omega

/-- The characters of a usual moment, in the order in which they are read. -/
theorem toList_offsetText {t : Timestamp} (h : 0 ≤ t.date.year ∧ t.date.year ≤ 9999) :
    t.offsetText.toList =
      padded 4 t.date.year.toNat ++ '-' :: (padded 2 t.date.month ++ '-' :: (padded 2 t.date.day ++
        'T' :: (padded 2 (t.second / 3600) ++ ':' :: (padded 2 (t.second / 60 % 60) ++
          ':' :: (padded 2 (t.second % 60 + if 1000000000 ≤ t.nanosecond then 1 else 0) ++
            (fractionText (t.nanosecond - if 1000000000 ≤ t.nanosecond then 1000000000 else 0) ++
              '+' :: "00:00".toList)))))) := by
  unfold offsetText localText yearText
  rw [if_pos h, String.toList_ofList]
  simp

theorem readMark_self (mark : Char) (cs : List Char) : readMark mark (mark :: cs) = .ok cs :=
  if_pos rfl

theorem readDivider_letter (cs : List Char) : readDivider ('T' :: cs) = .ok cs := rfl

/-- A moment is read back from its notation. -/
theorem readStrict_offsetText {t : Timestamp} (h : t.Usual) :
    readStrict t.offsetText = .ok t := by
  obtain ⟨hyear, hdate, hsecond, hnano, hleap⟩ := id h
  have hday : 1 ≤ t.date.month ∧ t.date.month ≤ 12 ∧ 1 ≤ t.date.day ∧ t.date.day ≤ 31 := by
    have hdays := daysOfMonth_le t.date.year t.date.month
    unfold Date.of? at hdate
    split at hdate
    · omega
    · cases hdate
  have hminute : (t.second % 60 + if 1000000000 ≤ t.nanosecond then 1 else 0) ≤ 60 := by
    split <;> omega
  have hfraction : (t.nanosecond - if 1000000000 ≤ t.nanosecond then 1000000000 else 0) <
      1000000000 := by
    split <;> omega
  -- each part is read from the front of whatever follows it
  have hreadYear := @readNumber_padded 4 t.date.year.toNat (by omega) (by omega) (by omega)
  have hreadMonth := readWithin_padded hday.1 hday.2.1 (by omega)
  have hreadDay := readWithin_padded hday.2.2.1 hday.2.2.2 (by omega)
  have hreadHour := @readWithin_padded 0 23 (t.second / 3600) (by omega) (by omega) (by omega)
  have hreadMinute := @readWithin_padded 0 59 (t.second / 60 % 60) (by omega) (by omega)
    (by omega)
  have hreadSecond := readWithin_padded (Nat.zero_le _) hminute (by omega)
  have hreadFraction := @readFraction_fractionText _ hfraction '+' "00:00".toList rfl (by decide)
  have hreadOffset : readOffset (readMark ':') ('+' :: "00:00".toList) = .ok (0, []) := rfl
  have hmoment := moment_parts h rfl rfl
  rw [← Int.toNat_of_nonneg hyear.1] at hmoment
  simp only [readStrict, toList_offsetText hyear, bind, Except.bind, hreadYear, hreadMonth,
    hreadDay, hreadHour, hreadMinute, hreadSecond, hreadFraction, hreadOffset, readMark_self,
    readDivider_letter]
  exact hmoment

/-! ## Moments that the notation is not made for -/

/-- A day of the calendar, in whichever year, a second of the day, and a nanosecond that may go
beyond its second in any minute's middle as well. -/
structure Possible (t : Timestamp) : Prop where
  date : Date.of? t.date.year t.date.month t.date.day = some t.date
  second : t.second < 86400
  nanosecond : t.nanosecond < 2000000000

/-- The years that have four digits. -/
def HasPlainYear (t : Timestamp) : Prop :=
  0 ≤ t.date.year ∧ t.date.year ≤ 9999

/-- The moment that the notation of a moment names.  A leap second in the middle of a minute has no
notation of its own, and goes by that of the second after it. -/
def asWritten (t : Timestamp) : Timestamp :=
  if 1000000000 ≤ t.nanosecond ∧ t.second % 60 ≠ 59 then
    { t with second := t.second + 1, nanosecond := t.nanosecond - 1000000000 }
  else t

theorem asWritten_of_usual {t : Timestamp} (h : t.Usual) : t.asWritten = t :=
  if_neg fun hleap => hleap.2 (h.leap hleap.1)

/-- The two moments have the same notation. -/
theorem offsetText_asWritten {t : Timestamp} (h : t.nanosecond < 2000000000) :
    t.asWritten.offsetText = t.offsetText := by
  unfold asWritten
  split
  · rename_i hleap
    have hhour : (t.second + 1) / 3600 = t.second / 3600 := by omega
    have hminute : (t.second + 1) / 60 % 60 = t.second / 60 % 60 := by omega
    have hsecond : (t.second + 1) % 60 = t.second % 60 + 1 := by omega
    unfold offsetText localText
    simp only [hhour, hminute, hsecond, if_pos hleap.1,
      if_neg (show ¬ 1000000000 ≤ t.nanosecond - 1000000000 by omega), Nat.add_zero, Nat.sub_zero]
  · rfl

theorem usual_asWritten {t : Timestamp} (h : t.Possible) (hyear : t.HasPlainYear) :
    t.asWritten.Usual := by
  obtain ⟨hdate, hsecond, hnanosecond⟩ := h
  unfold asWritten
  split
  · exact ⟨hyear, hdate, by dsimp only; omega, by dsimp only; omega, by dsimp only; omega⟩
  · exact ⟨hyear, hdate, hsecond, hnanosecond, by omega⟩

/-- A moment of a year with four digits is read as what its notation says. -/
theorem readStrict_eq_asWritten {t : Timestamp} (h : t.Possible) (hyear : t.HasPlainYear) :
    readStrict t.offsetText = .ok t.asWritten := by
  rw [← offsetText_asWritten h.nanosecond]
  exact readStrict_offsetText (usual_asWritten h hyear)

/-- It is read as itself just when it is one that the notation is made for. -/
theorem asWritten_eq_iff {t : Timestamp} (h : t.Possible) (hyear : t.HasPlainYear) :
    t.asWritten = t ↔ t.Usual := by
  constructor
  · intro heq
    rw [← heq]
    exact usual_asWritten h hyear
  · exact asWritten_of_usual

/-- What begins with something other than a digit is no number. -/
theorem readNumber_fault {least most : Nat} (hleast : 0 < least) {c : Char}
    (hc : c.isDigit = false) (cs : List Char) :
    ∃ fault, readNumber least (some most) (c :: cs) = .error fault := by
  have hdigits : ((c :: cs).take most).takeWhile Char.isDigit = [] := by
    cases most with
    | zero => rfl
    | succ n => simp [hc]
  unfold readNumber
  split
  · exact ⟨_, rfl⟩
  · simp only [hdigits, List.length_nil, hleast, if_true]
    exact ⟨_, rfl⟩

/-- A year without four digits has a sign, with which no year begins for the reader. -/
theorem readStrict_offsetText_fault {t : Timestamp} (h : ¬ t.HasPlainYear) :
    ∃ fault, readStrict t.offsetText = .error fault := by
  obtain ⟨sign, hsign, cs, htext⟩ : ∃ sign : Char, sign.isDigit = false ∧
      ∃ cs, t.offsetText.toList = sign :: cs := by
    refine ⟨if t.date.year < 0 then '-' else '+', by split <;> rfl, ?_⟩
    have hyear : yearText t.date.year =
        (if t.date.year < 0 then '-' else '+') :: padded 4 t.date.year.natAbs := if_neg h
    unfold offsetText localText
    rw [hyear, String.toList_ofList]
    exact ⟨_, rfl⟩
  obtain ⟨fault, hfault⟩ := @readNumber_fault 4 4 (by omega) sign hsign cs
  refine ⟨fault, ?_⟩
  unfold readStrict
  rw [htext, hfault]
  rfl

end Timestamp
end PacketPolicy
