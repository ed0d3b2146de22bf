import PacketPolicy.Proofs.Network.Characters

/-!
# How a block may be written

The texts that stand for a block, when they have a slash at all: an address of either version,
the slash, and the number of leading bits that matter.  This number has more notations than its
decimal digits: zeros or a plus sign may come in front of them, and for version 4 it may be a mask.

* `Address.exists_parse?_iff` -- the family of an address is the one in whose notation it is
  written; no text is an address of both versions;
* `Spells` -- the notations of a number of bits;
* `Block.lengthOf?_eq_some_iff` -- these are the texts that are read as a number of bits;
* `Block.writes_iff` -- with an address and a slash in front, these are the texts with a slash that
  are read as a block.
-/

namespace PacketPolicy
namespace Network

/-! ## The version of an address -/

theorem V4.parse?_eq_none {cs : List Char} (h : '.' ∉ cs) : V4.parse? cs = none := by
  unfold V4.parse?
  rw [Text.pieces_of_not_mem h]

theorem V4.not_mem_of_parse? {cs : List Char} {a : V4} {c : Char} (h : V4.parse? cs = some a)
    (hdigit : c.isDigit = false) (hdot : c ≠ '.') : c ∉ cs := by
  intro hc
  rcases V4.isDigit_or_dot_of_parse? h c hc with hyes | hyes
  · rw [hdigit] at hyes
    cases hyes
  · exact hdot hyes

/-- One piece stands for one group or two, so eight groups need a colon. -/
theorem V6.parse?_eq_none {cs : List Char} (h : ':' ∉ cs) : V6.parse? cs = none := by
  have hgap : V6.splitGap? cs = none := by
    cases hsplit : V6.splitGap? cs with
    | none => rfl
    | some sides =>
        obtain ⟨before, after⟩ := sides
        rw [V6.splitGap?_eq_some hsplit] at h
        simp at h
  unfold V6.parse?
  rw [hgap, Text.pieces_of_not_mem h]
  show (V6.groupsOf? [cs]).bind V6.ofGroups? = none
  unfold V6.groupsOf?
  cases V6.group? cs with
  | some g => rfl
  | none => cases V4.parse? cs <;> rfl

/-- No text is an address of both versions. -/
theorem V6.parse?_eq_none_of_v4 {cs : List Char} {a : V4} (h : V4.parse? cs = some a) :
    V6.parse? cs = none :=
  V6.parse?_eq_none (V4.not_mem_of_parse? h (by decide) (by decide))

/-- A text is read as an address of the family in whose notation it is written. -/
theorem Address.exists_parse?_iff (cs : List Char) (family : Family) :
    (∃ a, Address.parse? cs = some a ∧ a.family = family) ↔
      (family = .ip ↔ (V4.parse? cs).isSome) ∧ (family = .ip6 ↔ (V6.parse? cs).isSome) := by
  unfold Address.parse?
  cases hfour : V4.parse? cs with
  | some b =>
      rw [V6.parse?_eq_none_of_v4 hfour]
      cases family <;> simp [Address.family]
  | none =>
      cases hsix : V6.parse? cs with
      | some b => cases family <;> simp [Address.family]
      | none => cases family <;> simp

theorem Address.slash_not_mem {cs : List Char} {a : Address} (h : Address.parse? cs = some a) :
    '/' ∉ cs :=
  fun hslash => absurd (Address.madeOf_of_parse? h _ hslash) (by decide)

/-! ## Numbers of bits -/

/-- The number of bits of the addresses of a family. -/
def Family.width : Family → Nat
  | .ip => 32
  | .ip6 => 128

theorem Address.width_eq (a : Address) : a.width = a.family.width := by
  cases a <;> rfl

/-- The notations of the number of bits `n` in a block of this family. -/
inductive Spells (family : Family) (n : Nat) : List Char → Prop where
  /-- The decimal digits of the number, with any number of zeros in front. -/
  | digits (zeros : Nat) :
      Spells family n (List.replicate zeros '0' ++ (toString n).toList)
  /-- The same with a plus sign in front. -/
  | signed (zeros : Nat) :
      Spells family n ('+' :: (List.replicate zeros '0' ++ (toString n).toList))
  /-- The mask of version 4 that begins with so many ones. -/
  | mask {cs : List Char} {mask : V4} (hfamily : family = .ip) (hread : V4.parse? cs = some mask)
      (hvalue : mask.value = Block.maskValue n) : Spells family n cs

namespace Spells

variable {family : Family} {n : Nat} {cs : List Char}

theorem of_natOfDigits? (h : Text.natOfDigits? cs = some n) : Spells family n cs := by
  obtain ⟨zeros, rfl⟩ := Text.natOfDigits?_eq_some_iff.mp h
  exact .digits zeros

theorem signed_of_natOfDigits? (h : Text.natOfDigits? cs = some n) :
    Spells family n ('+' :: cs) := by
  obtain ⟨zeros, rfl⟩ := Text.natOfDigits?_eq_some_iff.mp h
  exact .signed zeros

/-- No notation has a character but digits, dots and the plus sign. -/
theorem not_mem (h : Spells family n cs) {c : Char} (hdigit : c.isDigit = false) (hdot : c ≠ '.')
    (hplus : c ≠ '+') : c ∉ cs := by
  have hnumeral (zeros : Nat) : c ∉ List.replicate zeros '0' ++ (toString n).toList :=
    Text.not_mem_of_natOfDigits? (Text.natOfDigits?_zeros zeros n) hdigit
  cases h with
  | digits zeros => exact hnumeral zeros
  | signed zeros => exact List.not_mem_cons_of_ne_of_not_mem hplus (hnumeral zeros)
  | mask hfamily hread hvalue => exact V4.not_mem_of_parse? hread hdigit hdot

end Spells

namespace Block

theorem netmask?_eq_some_iff (mask : V4) (n : Nat) :
    netmask? mask = some n ↔ n ≤ 32 ∧ mask.value = maskValue n := by
  unfold netmask?
  constructor
  · intro h
    have hmem := List.mem_range.mp (List.mem_of_find?_eq_some h)
    exact ⟨by omega, by simpa using List.find?_some h⟩
  -- masks with different numbers of ones have different values, so the first is the only one
  · rintro ⟨hn, hvalue⟩
    have hinjective : ∀ m < 33, ∀ k < 33, maskValue m = maskValue k → m = k := by decide
    have hsome : ((List.range 33).find? fun m => mask.value == maskValue m).isSome = true :=
      List.find?_isSome.mpr ⟨n, List.mem_range.mpr (by omega), by simp [hvalue]⟩
    obtain ⟨m, hm⟩ := Option.isSome_iff_exists.mp hsome
    have hrange := List.mem_range.mp (List.mem_of_find?_eq_some hm)
    have hfound : mask.value = maskValue m := by simpa using List.find?_some hm
    rw [hm, hinjective m hrange n (by omega) (by rw [← hfound, hvalue])]

/-- A number of bits is written in digits, or in digits after a plus sign. -/
theorem length?_eq_some_iff (width : Nat) (cs : List Char) (n : Nat) :
    length? width cs = some n ↔ n ≤ width ∧
      (Text.natOfDigits? cs = some n ∨
        ∃ digits, cs = '+' :: digits ∧ Text.natOfDigits? digits = some n) := by
  have hbounded {result : Option Nat} {digits : List Char}
      (hnone : Text.natOfDigits? digits = none → result = none)
      (hsome : ∀ m, Text.natOfDigits? digits = some m →
        result = if m ≤ width then some m else none) :
      result = some n ↔ n ≤ width ∧ Text.natOfDigits? digits = some n := by
    cases hread : Text.natOfDigits? digits with
    | none => simp [hnone hread]
    | some m =>
        rw [hsome m hread]
        by_cases hm : m ≤ width
        · simp only [if_pos hm, Option.some.injEq]
          constructor
          · rintro rfl
            exact ⟨hm, rfl⟩
          · exact And.right
        · simp only [if_neg hm, Option.some.injEq, reduceCtorEq, false_iff]
          rintro ⟨hn, rfl⟩
          exact hm hn
  unfold length?
  split
  · rename_i digits
    have hsign : Text.natOfDigits? ('+' :: digits) = none := by
      simp [Text.natOfDigits?, Char.isDigit]
    refine (@hbounded _ digits (fun hnone => by simp only [hnone])
      fun m hsome => by simp only [hsome]).trans ?_
    simp [hsign]
  · rename_i hunsigned
    refine (@hbounded _ cs (fun hnone => by simp only [hnone])
      fun m hsome => by simp only [hsome]).trans ?_
    refine and_congr_right fun _ => ⟨Or.inl, fun hread => ?_⟩
    rcases hread with hread | ⟨digits, heq, -⟩
    · exact hread
    · exact absurd heq (hunsigned digits)

/-- What is read as a number of bits are its notations, if an address has so many bits. -/
theorem lengthOf?_eq_some_iff (a : Address) (cs : List Char) (n : Nat) :
    lengthOf? a cs = some n ↔ n ≤ a.width ∧ Spells a.family n cs := by
  have hnumeral {width : Nat} {family : Family} (h : length? width cs = some n) :
      n ≤ width ∧ Spells family n cs := by
    obtain ⟨hn, hread | ⟨digits, rfl, hread⟩⟩ := (length?_eq_some_iff width cs n).mp h
    · exact ⟨hn, .of_natOfDigits? hread⟩
    · exact ⟨hn, .signed_of_natOfDigits? hread⟩
  constructor
  · intro h
    unfold lengthOf? at h
    split at h
    · split at h
      · rename_i mask hread
        obtain ⟨hn, hvalue⟩ := (netmask?_eq_some_iff mask n).mp h
        exact ⟨hn, .mask rfl hread hvalue⟩
      · exact hnumeral h
    · exact hnumeral h
  -- digits without a dot are no mask, so they are read as a number for both versions
  · rintro ⟨hn, hspells⟩
    have hplain (hdot : '.' ∉ cs) (hlength : length? a.width cs = some n) :
        lengthOf? a cs = some n := by
      unfold lengthOf?
      cases a with
      | v4 b =>
          rw [V4.parse?_eq_none hdot]
          exact hlength
      | v6 b => exact hlength
    cases hspells with
    | digits zeros =>
        have hread := Text.natOfDigits?_zeros zeros n
        refine hplain (Text.not_mem_of_natOfDigits? hread (by decide)) ?_
        exact (length?_eq_some_iff _ _ n).mpr ⟨hn, .inl hread⟩
    | signed zeros =>
        have hread := Text.natOfDigits?_zeros zeros n
        refine hplain (List.not_mem_cons_of_ne_of_not_mem (by decide)
          (Text.not_mem_of_natOfDigits? hread (by decide))) ?_
        exact (length?_eq_some_iff _ _ n).mpr ⟨hn, .inr ⟨_, rfl, hread⟩⟩
    | mask hfamily hread hvalue =>
        cases a with
        | v4 b =>
            unfold lengthOf?
            rw [hread]
            exact (netmask?_eq_some_iff _ n).mpr ⟨hn, hvalue⟩
        | v6 b => cases hfamily

/-! ## Blocks -/

/-- A text as which a block may be written: its address, a slash and its number of bits. -/
def Writes (b : Block) (s : String) : Prop :=
  ∃ address length : String, s = address ++ "/" ++ length ∧
    Address.parse? address.toList = some b.address ∧ Spells b.family b.length length.toList

/-- With a slash in it, what is read as a block is what the block may be written as. -/
theorem writes_iff (b : Block) (s : String) :
    b.Writes s ↔ '/' ∈ s.toList ∧ parse? s = some b := by
  constructor
  · rintro ⟨address, length, rfl, haddress, hspells⟩
    have htext : (address ++ "/" ++ length).toList = address.toList ++ '/' :: length.toList := by
      simp
    have hlength : '/' ∉ length.toList := hspells.not_mem (by decide) (by decide) (by decide)
    refine ⟨by rw [htext]; simp, ?_⟩
    have hn : lengthOf? b.address length.toList = some b.length :=
      (lengthOf?_eq_some_iff _ _ _).mpr ⟨b.length_le, hspells⟩
    unfold parse?
    rw [htext, Text.pieces_append (Address.slash_not_mem haddress),
      Text.pieces_of_not_mem hlength]
    simp [haddress, hn, ofLength?, b.length_le]
  · rintro ⟨hslash, h⟩
    unfold parse? at h
    split at h
    · rename_i address hpieces
      exact absurd hslash (Text.not_mem_of_pieces hpieces)
    · rename_i address length hpieces
      obtain ⟨a, haddress, h⟩ := Option.bind_eq_some_iff.mp h
      obtain ⟨n, hn, h⟩ := Option.bind_eq_some_iff.mp h
      unfold ofLength? at h
      split at h
      · obtain rfl := Option.some.inj h
        refine ⟨.ofList address, .ofList length, ?_, ?_, ?_⟩
        · rw [← String.toList_inj, Text.eq_append_of_pieces hpieces]
          simp
        · rw [String.toList_ofList]
          exact haddress
        · rw [String.toList_ofList]
          exact ((lengthOf?_eq_some_iff a length n).mp hn).2
      · cases h
    · cases h

end Block
end Network
end PacketPolicy
