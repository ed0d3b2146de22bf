import PacketPolicy.Text.Digits

/-!
# Numerals and pieces

What the readers of numerals accept, and that a number that is written in decimal digits is read
back.

* `natOfDigits?_eq_some_iff` -- the numerals of a number are its digits after any number of zeros;
* `isDigit_of_natOfDigits?`, `hexDigit?_isSome_of_hexValue?` -- nothing but digits is a numeral;
* `pieces_append` -- a text is cut at its first mark, and what follows is cut by itself;
* `eq_append_of_pieces`, `mem_pieces_of_mem` -- cutting a text at its marks loses nothing else.
-/

namespace PacketPolicy
namespace Text

/-! ## Pieces -/

/-- A character of a text is a mark or stands in one of the pieces. -/
theorem mem_pieces_of_mem {mark c : Char} {cs : List Char} (h : c ∈ cs) :
    c = mark ∨ ∃ piece ∈ pieces mark cs, c ∈ piece := by
  induction cs with
  | nil => cases h
  | cons d cs ih =>
      by_cases hd : d = mark
      · rcases List.mem_cons.mp h with rfl | hmem
        · exact .inl hd
        · rcases ih hmem with heq | ⟨piece, hpiece, hc⟩
          · exact .inl heq
          · exact .inr ⟨piece, by simp [pieces, hd, hpiece], hc⟩
      -- there is always a first piece, to which the character is added
      · cases hp : pieces mark cs with
        | nil =>
            have hlength := length_pieces mark cs
            rw [hp] at hlength
            simp at hlength
        | cons first rest =>
            have hpieces : pieces mark (d :: cs) = (d :: first) :: rest := by
              simp [pieces, hd, hp]
            rw [hpieces]
            rcases List.mem_cons.mp h with rfl | hmem
            · exact .inr ⟨c :: first, List.mem_cons_self, List.mem_cons_self⟩
            · rcases ih hmem with heq | ⟨piece, hpiece, hc⟩
              · exact .inl heq
              · rw [hp] at hpiece
                rcases List.mem_cons.mp hpiece with rfl | hrest
                · exact .inr ⟨d :: piece, List.mem_cons_self, List.mem_cons_of_mem _ hc⟩
                · exact .inr ⟨piece, List.mem_cons_of_mem _ hrest, hc⟩

/-- A character of a piece is one of the text. -/
theorem mem_of_mem_pieces {mark c : Char} {cs piece : List Char} (hpiece : piece ∈ pieces mark cs)
    (hc : c ∈ piece) : c ∈ cs := by
  induction cs generalizing piece with
  | nil =>
      rw [List.mem_singleton.mp hpiece] at hc
      cases hc
  | cons d cs ih =>
      by_cases hd : d = mark
      · rw [pieces, if_pos hd] at hpiece
        rcases List.mem_cons.mp hpiece with rfl | hrest
        · cases hc
        · exact List.mem_cons_of_mem d (ih hrest hc)
      · rw [pieces, if_neg hd] at hpiece
        split at hpiece
        · rw [List.mem_singleton.mp hpiece, List.mem_singleton] at hc
          exact hc ▸ List.mem_cons_self
        · rename_i first rest heq
          rcases List.mem_cons.mp hpiece with rfl | hrest
          · rcases List.mem_cons.mp hc with rfl | hfirst
            · exact List.mem_cons_self
            · exact List.mem_cons_of_mem d (ih (heq ▸ List.mem_cons_self) hfirst)
          · exact List.mem_cons_of_mem d (ih (heq ▸ List.mem_cons_of_mem first hrest) hc)

/-- A text without marks is one piece. -/
theorem pieces_of_not_mem {mark : Char} {cs : List Char} (h : mark ∉ cs) :
    pieces mark cs = [cs] := by
  induction cs with
  | nil => rfl
  | cons c cs ih =>
      obtain ⟨hc, hcs⟩ := List.ne_and_not_mem_of_not_mem_cons h
      simp only [pieces, if_neg (Ne.symm hc), ih hcs]

theorem pieces_ne_nil (mark : Char) (cs : List Char) : pieces mark cs ≠ [] := by
  intro hnone
  have hlength := length_pieces mark cs
  rw [hnone, List.length_nil] at hlength
  omega

/-- A character that is no mark comes to the first piece. -/
theorem pieces_cons {mark c : Char} (h : c ≠ mark) (cs : List Char) :
    pieces mark (c :: cs) = (pieces mark cs).modifyHead (c :: ·) := by
  rw [pieces, if_neg h]
  cases hp : pieces mark cs with
  | nil => exact absurd hp (pieces_ne_nil mark cs)
  | cons piece rest => rfl

/-- What stands before a mark and what stands behind it are cut by themselves. -/
theorem pieces_append_mark (mark : Char) (before after : List Char) :
    pieces mark (before ++ mark :: after) = pieces mark before ++ pieces mark after := by
  induction before with
  | nil => simp [pieces]
  | cons c before ih =>
      rw [List.cons_append]
      by_cases hc : c = mark
      · simp only [pieces, if_pos hc, ih, List.cons_append]
      · rw [pieces_cons hc, pieces_cons hc, ih]
        cases hp : pieces mark before with
        | nil => exact absurd hp (pieces_ne_nil mark before)
        | cons piece rest => rfl

/-- A text is cut at its first mark, and what follows the mark is cut by itself. -/
theorem pieces_append {mark : Char} {before : List Char} (h : mark ∉ before) (after : List Char) :
    pieces mark (before ++ mark :: after) = before :: pieces mark after := by
  rw [pieces_append_mark, pieces_of_not_mem h, List.singleton_append]

/-- What has no marks in it comes to the first piece. -/
theorem pieces_append_of_not_mem {mark : Char} {before : List Char} (h : mark ∉ before)
    (after : List Char) :
    pieces mark (before ++ after) = (pieces mark after).modifyHead (before ++ ·) := by
  induction before with
  | nil =>
      rw [List.nil_append, show ([] ++ ·) = (id : List Char → List Char) from rfl,
        List.modifyHead_id]
      rfl
  | cons c before ih =>
      obtain ⟨hc, hbefore⟩ := List.ne_and_not_mem_of_not_mem_cons h
      rw [List.cons_append, pieces_cons (Ne.symm hc), ih hbefore, List.modifyHead_modifyHead]
      rfl

/-- Only a text without marks is one piece. -/
theorem not_mem_of_pieces {mark : Char} {cs piece : List Char} (h : pieces mark cs = [piece]) :
    mark ∉ cs := by
  intro hmem
  have hlength := length_pieces mark cs
  have hpositive := List.count_pos_iff.mpr hmem
  rw [h, List.length_singleton] at hlength
  omega

/-- A text that is cut into two pieces is the two with a mark between them. -/
theorem eq_append_of_pieces {mark : Char} {cs before after : List Char}
    (h : pieces mark cs = [before, after]) : cs = before ++ mark :: after := by
  have hmark : mark ∈ cs := by
    refine Decidable.byContradiction fun hnone => ?_
    rw [pieces_of_not_mem hnone] at h
    cases h
  obtain ⟨start, rest, rfl, hstart⟩ := List.eq_append_cons_of_mem hmark
  rw [pieces_append hstart] at h
  obtain ⟨rfl, hrest⟩ := List.cons.inj h
  rw [pieces_of_not_mem (not_mem_of_pieces hrest)] at hrest
  rw [(List.cons.inj hrest).1]

/-- Texts without marks are cut again at the marks that have been put between them. -/
theorem pieces_intercalate {mark : Char} {words : List (List Char)} (hne : words ≠ [])
    (h : ∀ word ∈ words, mark ∉ word) : pieces mark ([mark].intercalate words) = words := by
  induction words with
  | nil => exact absurd rfl hne
  | cons word rest ih =>
      obtain ⟨hword, hrest⟩ := List.forall_mem_cons.mp h
      cases rest with
      | nil =>
          rw [List.intercalate_singleton]
          exact pieces_of_not_mem hword
      | cons next rest =>
          rw [List.intercalate_cons_cons, List.append_assoc, List.singleton_append,
            pieces_append hword, ih nofun hrest]

/-! ## Decimal digits -/

theorem digitsValue_eq_ofDigitChars (digits : List Char) :
    digitsValue digits = Nat.ofDigitChars 10 digits 0 := by
  rw [Nat.ofDigitChars_eq_foldl]
  unfold digitsValue
  congr 1
  funext n c
  rw [Nat.mul_comm]

theorem isDigit_of_mem_toString {n : Nat} {c : Char} (h : c ∈ (toString n).toList) :
    c.isDigit = true := by
  rw [Nat.toString_eq_repr, Nat.toList_repr] at h
  exact Nat.isDigit_of_mem_toDigits (by omega) (by omega) h

theorem toList_toString_ne_nil (n : Nat) : (toString n).toList ≠ [] := by
  rw [Nat.toString_eq_repr, Nat.toList_repr]
  exact Nat.toDigits_ne_nil

/-- Only zero is written with a zero in front. -/
theorem head?_toString_ne_zero {n : Nat} (h : 0 < n) : (toString n).toList.head? ≠ some '0' := by
  rw [Nat.toString_eq_repr, Nat.toList_repr]
  induction n using Nat.base_induction 10 (by omega) with
  | single m hm =>
      rw [Nat.toDigits_of_lt_base hm]
      simp only [List.head?_cons, ne_eq, Option.some.injEq, Nat.digitChar_eq_zero]
      omega
  | digit m k hk hm ih =>
      have hne : Nat.toDigits 10 m ≠ [] := Nat.toDigits_ne_nil
      obtain ⟨d, ds, hds⟩ := List.exists_cons_of_ne_nil hne
      have hhead := ih hm
      rw [← Nat.toDigits_append_toDigits (by omega) hm hk, hds]
      rwa [hds] at hhead

/-- The digits of a number stand for the number. -/
theorem digitsValue_toString (n : Nat) : digitsValue (toString n).toList = n := by
  rw [digitsValue_eq_ofDigitChars, Nat.toString_eq_repr, Nat.toList_repr,
    Nat.ofDigitChars_ten_toDigits]

theorem digitsValue_zeros (zeros : Nat) (digits : List Char) :
    digitsValue (List.replicate zeros '0' ++ digits) = digitsValue digits := by
  induction zeros with
  | zero => rfl
  | succ zeros ih =>
      rw [← ih]
      rfl

theorem digitChar_of_isDigit {d : Char} (h : d.isDigit = true) :
    d.toNat - '0'.toNat < 10 ∧ Nat.digitChar (d.toNat - '0'.toNat) = d := by
  have hrange : 48 ≤ d.toNat ∧ d.toNat ≤ 57 := by
    simpa [Char.isDigit, UInt32.le_iff_toNat_le] using h
  have hlt : d.toNat - '0'.toNat < 10 := by
    show d.toNat - 48 < 10
    omega
  refine ⟨hlt, Char.toNat_inj.mp ?_⟩
  rw [Nat.toNat_digitChar_of_lt_ten hlt]
  show 48 + (d.toNat - 48) = d.toNat
  omega

/-- Digits behind those of a positive number make the digits of a number with them. -/
theorem toDigits_append {n : Nat} {digits : List Char} (hn : 0 < n)
    (hdigits : ∀ c ∈ digits, c.isDigit = true) :
    Nat.toDigits 10 n ++ digits = Nat.toDigits 10 (Nat.ofDigitChars 10 digits n) := by
  induction digits generalizing n with
  | nil => simp
  | cons d digits ih =>
      obtain ⟨hlt, hchar⟩ := digitChar_of_isDigit (hdigits d List.mem_cons_self)
      have hone : Nat.toDigits 10 n ++ [d] = Nat.toDigits 10 (10 * n + (d.toNat - '0'.toNat)) := by
        rw [← Nat.toDigits_append_toDigits (by omega) hn hlt, Nat.toDigits_of_lt_base hlt, hchar]
      calc Nat.toDigits 10 n ++ d :: digits
        _ = (Nat.toDigits 10 n ++ [d]) ++ digits := by simp
        _ = Nat.toDigits 10 (Nat.ofDigitChars 10 digits (10 * n + (d.toNat - '0'.toNat))) := by
            rw [hone, ih (by omega) fun c hc => hdigits c (List.mem_cons_of_mem d hc)]
        _ = Nat.toDigits 10 (Nat.ofDigitChars 10 (d :: digits) n) := by
            rw [Nat.ofDigitChars_cons]

/-- Digits are those of the number that they stand for, after some zeros. -/
theorem exists_zeros {digits : List Char} (hne : digits ≠ [])
    (hdigits : ∀ c ∈ digits, c.isDigit = true) :
    ∃ zeros, digits = List.replicate zeros '0' ++ (toString (digitsValue digits)).toList := by
  induction digits with
  | nil => exact absurd rfl hne
  | cons d digits ih =>
      have hrest : ∀ c ∈ digits, c.isDigit = true :=
        fun c hc => hdigits c (List.mem_cons_of_mem d hc)
      obtain ⟨hlt, hchar⟩ := digitChar_of_isDigit (hdigits d List.mem_cons_self)
      rcases Nat.eq_zero_or_pos (d.toNat - '0'.toNat) with hzero | hpos
      · obtain rfl : d = '0' := by
          rw [← hchar, hzero]
          rfl
        by_cases hempty : digits = []
        -- a zero that stands alone is the number and none of the zeros in front
        · subst hempty
          exact ⟨0, rfl⟩
        · obtain ⟨zeros, heq⟩ := ih hempty hrest
          exact ⟨zeros + 1, congrArg (List.cons '0') heq⟩
      · refine ⟨0, ?_⟩
        rw [digitsValue_eq_ofDigitChars, Nat.ofDigitChars_cons, Nat.mul_zero, Nat.zero_add,
          Nat.toString_eq_repr, Nat.toList_repr, ← toDigits_append hpos hrest,
          Nat.toDigits_of_lt_base hlt, hchar]
        rfl

/-- The numerals of a number are its digits, with any number of zeros in front of them. -/
theorem natOfDigits?_eq_some_iff {cs : List Char} {n : Nat} :
    natOfDigits? cs = some n ↔
      ∃ zeros, cs = List.replicate zeros '0' ++ (toString n).toList := by
  unfold natOfDigits?
  constructor
  · intro h
    split at h
    · rename_i hnumeral
      simp only [Bool.and_eq_true, Bool.not_eq_true', List.isEmpty_eq_false_iff,
        List.all_eq_true] at hnumeral
      rw [← Option.some.inj h]
      exact exists_zeros hnumeral.1 hnumeral.2
    · cases h
  · rintro ⟨zeros, rfl⟩
    have hdigits : (List.replicate zeros '0' ++ (toString n).toList).all Char.isDigit = true := by
      rw [List.all_append, Bool.and_eq_true]
      refine ⟨List.all_eq_true.mpr fun c hc => ?_,
        List.all_eq_true.mpr fun c hc => isDigit_of_mem_toString hc⟩
      rw [(List.mem_replicate.mp hc).2]
      rfl
    have hempty : (List.replicate zeros '0' ++ (toString n).toList).isEmpty = false := by simp
    rw [hdigits, hempty, digitsValue_zeros, digitsValue_toString]
    rfl

theorem natOfDigits?_zeros (zeros n : Nat) :
    natOfDigits? (List.replicate zeros '0' ++ (toString n).toList) = some n :=
  natOfDigits?_eq_some_iff.mpr ⟨zeros, rfl⟩

/-- A number is read back from its digits. -/
theorem natOfDigits?_toString (n : Nat) : natOfDigits? (toString n).toList = some n :=
  natOfDigits?_zeros 0 n

theorem isDigit_of_natOfDigits? {cs : List Char} {n : Nat} (h : natOfDigits? cs = some n) :
    ∀ c ∈ cs, c.isDigit = true := by
  unfold natOfDigits? at h
  split at h
  · rename_i hdigits
    simp only [Bool.and_eq_true, List.all_eq_true] at hdigits
    exact hdigits.2
  · cases h

theorem not_mem_of_natOfDigits? {cs : List Char} {n : Nat} {c : Char}
    (h : natOfDigits? cs = some n) (hc : c.isDigit = false) : c ∉ cs := by
  intro hmem
  rw [isDigit_of_natOfDigits? h c hmem] at hc
  cases hc

/-! ## Hexadecimal digits -/

theorem hexDigit?_isSome_of_isDigit {c : Char} (h : c.isDigit = true) :
    (hexDigit? c).isSome = true := by
  have hrange : '0' ≤ c ∧ c ≤ '9' := by
    simpa [Char.isDigit, Char.le_def] using h
  simp [hexDigit?, hrange]

/-- Once there is no number, further digits do not bring one back. -/
theorem foldl_hexDigit?_none (cs : List Char) :
    cs.foldl (fun n c => n.bind fun n => (hexDigit? c).map (n * 16 + ·)) (none : Option Nat) =
      none := by
  induction cs with
  | nil => rfl
  | cons c cs ih => exact ih

theorem hexDigit?_isSome_of_foldl {cs : List Char} {start : Option Nat} {n : Nat}
    (h : cs.foldl (fun n c => n.bind fun n => (hexDigit? c).map (n * 16 + ·)) start = some n) :
    ∀ c ∈ cs, (hexDigit? c).isSome = true := by
  induction cs generalizing start with
  | nil => simp
  | cons c cs ih =>
      rw [List.foldl_cons] at h
      refine List.forall_mem_cons.mpr ⟨?_, ih h⟩
      cases hc : hexDigit? c with
      | some v => rfl
      | none =>
          rw [hc] at h
          have hnone : (start.bind fun n => (none : Option Nat).map (n * 16 + ·)) = none := by
            cases start <;> rfl
          rw [hnone, foldl_hexDigit?_none] at h
          cases h

theorem hexDigit?_digitChar : ∀ n < 16, hexDigit? (Nat.digitChar n) = some n := by
  decide

/-- A number is read back from its hexadecimal digits. -/
theorem hexValue?_toDigits (n : Nat) : hexValue? (Nat.toDigits 16 n) = some n := by
  induction n using Nat.base_induction 16 (by omega) with
  | single m hm =>
      rw [Nat.toDigits_of_lt_base hm]
      show (some 0).bind (fun n => (hexDigit? (Nat.digitChar m)).map (n * 16 + ·)) = _
      rw [hexDigit?_digitChar m hm]
      simp
  | digit m k hk hm ih =>
      unfold hexValue? at ih ⊢
      rw [← Nat.toDigits_append_toDigits (by omega) hm hk, Nat.toDigits_of_lt_base hk,
        List.foldl_append, ih]
      show (some m).bind (fun n => (hexDigit? (Nat.digitChar k)).map (n * 16 + ·)) = _
      rw [hexDigit?_digitChar k hk]
      simp [Nat.mul_comm]

theorem hexDigit?_isSome_of_hexValue? {cs : List Char} {n : Nat} (h : hexValue? cs = some n) :
    ∀ c ∈ cs, (hexDigit? c).isSome = true :=
  hexDigit?_isSome_of_foldl h

end Text
end PacketPolicy
