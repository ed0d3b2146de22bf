import PacketPolicy.Network.Block
import PacketPolicy.Proofs.Text.Numerals

/-!
# The characters of addresses and blocks

What is read as an address is made of hexadecimal digits, dots and colons alone, and what is read as
a block of those, slashes and plus signs.  A text that is accepted as a prefix therefore cannot end
the word in which it stands.

* `isAddressChar`, `isPrefixChar` -- these characters;
* `Address.madeOf_of_parse?` -- an address has no others than the former;
* `Block.isPrefixChar_of_parse?` -- a block has no others than the latter.

An address is cut into pieces at its marks and each piece is read by itself, so a character of
the text is a mark or belongs to a piece that was read.
-/

namespace PacketPolicy

namespace Network

/-- The characters that addresses are made of. -/
def isAddressChar (c : Char) : Bool :=
  (Text.hexDigit? c).isSome || c == '.' || c == ':'

/-- The characters that prefixes are made of. -/
def isPrefixChar (c : Char) : Bool :=
  (Text.hexDigit? c).isSome || c == '.' || c == ':' || c == '/' || c == '+'

theorem isPrefixChar_of_isAddressChar {c : Char} (h : isAddressChar c = true) :
    isPrefixChar c = true := by
  unfold isAddressChar at h
  simp [isPrefixChar, h]

/-- A text is made of characters of one kind. -/
def MadeOf (kind : Char → Bool) (cs : List Char) : Prop :=
  ∀ c ∈ cs, kind c = true

theorem MadeOf.forPrefix {cs : List Char} (h : MadeOf isAddressChar cs) : MadeOf isPrefixChar cs :=
  fun c hc => isPrefixChar_of_isAddressChar (h c hc)

theorem madeOf_of_hex {cs : List Char} (h : ∀ c ∈ cs, (Text.hexDigit? c).isSome = true) :
    MadeOf isAddressChar cs := by
  intro c hc
  simp [isAddressChar, h c hc]

theorem madeOf_of_natOfDigits? {cs : List Char} {n : Nat} (h : Text.natOfDigits? cs = some n) :
    MadeOf isAddressChar cs :=
  madeOf_of_hex fun c hc =>
    Text.hexDigit?_isSome_of_isDigit (Text.isDigit_of_natOfDigits? h c hc)

/-- A text whose marks and pieces are of one kind is of this kind. -/
theorem madeOf_of_pieces {kind : Char → Bool} (mark : Char) {cs : List Char}
    (hmark : kind mark = true) (h : ∀ piece ∈ Text.pieces mark cs, MadeOf kind piece) :
    MadeOf kind cs := by
  intro c hc
  have hcases : c = mark ∨ _ := Text.mem_pieces_of_mem hc
  rcases hcases with heq | ⟨piece, hpiece, hmem⟩
  · rwa [heq]
  · exact h piece hpiece c hmem

namespace V4

theorem isDigit_of_octet? {cs : List Char} {o : UInt8} (h : octet? cs = some o) :
    ∀ c ∈ cs, c.isDigit = true := by
  unfold octet? at h
  split at h
  · rename_i n hnumber
    exact Text.isDigit_of_natOfDigits? hnumber
  · cases h

/-- Addresses of version 4 are made of digits and dots alone. -/
theorem isDigit_or_dot_of_parse? {cs : List Char} {a : V4} (h : parse? cs = some a) :
    ∀ c ∈ cs, c.isDigit = true ∨ c = '.' := by
  intro c hc
  unfold parse? at h
  split at h
  · rename_i first second third fourth hpieces
    obtain ⟨o₁, h₁, h⟩ := Option.bind_eq_some_iff.mp h
    obtain ⟨o₂, h₂, h⟩ := Option.bind_eq_some_iff.mp h
    obtain ⟨o₃, h₃, h⟩ := Option.bind_eq_some_iff.mp h
    obtain ⟨o₄, h₄, -⟩ := Option.bind_eq_some_iff.mp h
    have hcases : c = '.' ∨ _ := Text.mem_pieces_of_mem hc
    rcases hcases with hdot | ⟨piece, hpiece, hmem⟩
    · exact .inr hdot
    · rw [hpieces] at hpiece
      simp only [List.mem_cons, List.not_mem_nil, or_false] at hpiece
      rcases hpiece with rfl | rfl | rfl | rfl
      · exact .inl (isDigit_of_octet? h₁ c hmem)
      · exact .inl (isDigit_of_octet? h₂ c hmem)
      · exact .inl (isDigit_of_octet? h₃ c hmem)
      · exact .inl (isDigit_of_octet? h₄ c hmem)
  · cases h

theorem madeOf_of_parse? {cs : List Char} {a : V4} (h : parse? cs = some a) :
    MadeOf isAddressChar cs := by
  intro c hc
  rcases isDigit_or_dot_of_parse? h c hc with hdigit | rfl
  · simp [isAddressChar, Text.hexDigit?_isSome_of_isDigit hdigit]
  · decide

end V4

namespace V6

theorem madeOf_of_group? {cs : List Char} {g : UInt16} (h : group? cs = some g) :
    MadeOf isAddressChar cs := by
  unfold group? at h
  split at h
  · obtain ⟨n, hn, -⟩ := Option.map_eq_some_iff.mp h
    exact madeOf_of_hex (Text.hexDigit?_isSome_of_hexValue? hn)
  · cases h

theorem madeOf_of_groupsOf? {texts : List (List Char)} {groups : List UInt16}
    (h : groupsOf? texts = some groups) : ∀ piece ∈ texts, MadeOf isAddressChar piece := by
  induction texts using groupsOf?.induct generalizing groups with
  | case1 => simp
  | case2 piece g hgroup =>
      simpa using madeOf_of_group? hgroup
  | case3 piece hgroup =>
      simp only [groupsOf?, hgroup] at h
      obtain ⟨a, ha, -⟩ := Option.map_eq_some_iff.mp h
      simpa using V4.madeOf_of_parse? ha
  | case4 piece rest hrest ih =>
      rw [groupsOf?] at h
      · obtain ⟨g, hg, h⟩ := Option.bind_eq_some_iff.mp h
        obtain ⟨gs, hgs, -⟩ := Option.bind_eq_some_iff.mp h
        exact List.forall_mem_cons.mpr ⟨madeOf_of_group? hg, ih hgs⟩
      · exact hrest

theorem madeOf_of_plainGroupsOf? {texts : List (List Char)} {groups : List UInt16}
    (h : plainGroupsOf? texts = some groups) : ∀ piece ∈ texts, MadeOf isAddressChar piece := by
  unfold plainGroupsOf? at h
  induction texts generalizing groups with
  | nil => simp
  | cons piece rest ih =>
      rw [List.mapM_cons] at h
      obtain ⟨g, hg, h⟩ := Option.bind_eq_some_iff.mp h
      obtain ⟨gs, hgs, -⟩ := Option.bind_eq_some_iff.mp h
      exact List.forall_mem_cons.mpr ⟨madeOf_of_group? hg, ih hgs⟩

/-- A side of the gap is made of the characters of its pieces and of colons. -/
theorem madeOf_of_sidePieces {cs : List Char}
    (h : ∀ piece ∈ sidePieces cs, MadeOf isAddressChar piece) : MadeOf isAddressChar cs := by
  unfold sidePieces at h
  split at h
  · rename_i hempty
    rw [List.isEmpty_iff.mp hempty]
    exact fun c hc => nomatch hc
  · exact madeOf_of_pieces ':' (by decide) h

theorem splitGap?_eq_some {cs before after : List Char}
    (h : splitGap? cs = some (before, after)) : cs = before ++ ':' :: ':' :: after := by
  induction cs using splitGap?.induct generalizing before with
  | case1 => cases h
  | case2 => cases h
  | case3 c d rest hcolons =>
      obtain ⟨rfl, rfl⟩ := hcolons
      simp only [splitGap?, and_self, if_true, Option.some.injEq, Prod.mk.injEq] at h
      obtain ⟨rfl, rfl⟩ := h
      rfl
  | case4 c d rest hcolons ih =>
      rw [splitGap?, if_neg hcolons] at h
      obtain ⟨⟨start, last⟩, hsplit, heq⟩ := Option.map_eq_some_iff.mp h
      obtain ⟨rfl, rfl⟩ := Prod.mk.inj heq
      rw [ih hsplit]
      rfl

theorem madeOf_of_parse? {cs : List Char} {a : V6} (h : parse? cs = some a) :
    MadeOf isAddressChar cs := by
  unfold parse? at h
  split at h
  · obtain ⟨groups, hgroups, -⟩ := Option.bind_eq_some_iff.mp h
    exact madeOf_of_pieces ':' (by decide) (madeOf_of_groupsOf? hgroups)
  · rename_i before after hgap
    obtain ⟨head, hhead, h⟩ := Option.bind_eq_some_iff.mp h
    obtain ⟨tail, htail, -⟩ := Option.bind_eq_some_iff.mp h
    have hbefore := madeOf_of_sidePieces (madeOf_of_plainGroupsOf? hhead)
    have hafter := madeOf_of_sidePieces (madeOf_of_groupsOf? htail)
    have hcolon : isAddressChar ':' = true := by decide
    rw [splitGap?_eq_some hgap]
    intro c hc
    simp only [List.mem_append, List.mem_cons] at hc
    rcases hc with hc | rfl | rfl | hc
    · exact hbefore c hc
    · exact hcolon
    · exact hcolon
    · exact hafter c hc

end V6

theorem Address.madeOf_of_parse? {cs : List Char} {a : Address} (h : parse? cs = some a) :
    MadeOf isAddressChar cs := by
  unfold parse? at h
  split at h
  · rename_i b hfour
    exact V4.madeOf_of_parse? hfour
  · obtain ⟨b, hsix, -⟩ := Option.map_eq_some_iff.mp h
    exact V6.madeOf_of_parse? hsix

namespace Block

theorem madeOf_of_length? {width : Nat} {cs : List Char} {n : Nat}
    (h : length? width cs = some n) : MadeOf isPrefixChar cs := by
  unfold length? at h
  split at h
  · rename_i digits
    cases hnumber : Text.natOfDigits? digits with
    | none => simp [hnumber] at h
    | some m =>
        exact List.forall_mem_cons.mpr ⟨by decide, (madeOf_of_natOfDigits? hnumber).forPrefix⟩
  · cases hnumber : Text.natOfDigits? cs with
    | none => simp [hnumber] at h
    | some m => exact (madeOf_of_natOfDigits? hnumber).forPrefix

theorem madeOf_of_lengthOf? {a : Address} {cs : List Char} {n : Nat}
    (h : lengthOf? a cs = some n) : MadeOf isPrefixChar cs := by
  unfold lengthOf? at h
  split at h
  · split at h
    · rename_i mask hmask
      exact (V4.madeOf_of_parse? hmask).forPrefix
    · exact madeOf_of_length? h
  · exact madeOf_of_length? h

/-- A block is made of the characters of prefixes alone. -/
theorem isPrefixChar_of_parse? {s : String} {b : Block} (h : parse? s = some b) :
    ∀ c ∈ s.toList, isPrefixChar c = true := by
  show MadeOf isPrefixChar s.toList
  unfold parse? at h
  split at h
  · rename_i address hpieces
    obtain ⟨a, ha, -⟩ := Option.bind_eq_some_iff.mp h
    refine madeOf_of_pieces '/' (by decide) ?_
    rw [hpieces]
    simpa using (Address.madeOf_of_parse? ha).forPrefix
  · rename_i address length hpieces
    obtain ⟨a, ha, h⟩ := Option.bind_eq_some_iff.mp h
    obtain ⟨n, hn, -⟩ := Option.bind_eq_some_iff.mp h
    refine madeOf_of_pieces '/' (by decide) ?_
    rw [hpieces]
    simpa using ⟨(Address.madeOf_of_parse? ha).forPrefix, madeOf_of_lengthOf? hn⟩
  · cases h

end Block
end Network
end PacketPolicy
