import PacketPolicy.Proofs.Network.Notation

/-!
# How addresses are shown

An address has a canonical notation: decimal octets, or groups in hexadecimal digits, where the
first longest run of zero groups is left out and an address that stands for one of version 4 shows
it.  Whatever is left out, the same address is read back.

* `splitGap?_intercalate` -- in groups with colons between them there is no gap, and what stands
  behind them is looked through by itself;
* `Gap`, `gap_longestGap` -- what is left out is a run of zeros;
* `V4.parse?_text`, `V6.parse?_text`, `Address.parse?_text` -- an address is read back;
* `Block.writes_text` -- so is a block.
-/

namespace PacketPolicy
namespace Network

/-! ## Version 4 -/

namespace V4

/-- An octet is read back from its digits. -/
theorem octet?_toString (o : UInt8) : octet? (toString o.toNat).toList = some o := by
  have hlt : o.toNat < 256 := o.toNat_lt
  have hlength : (toString o.toNat).toList.length ≤ 3 := by
    rw [Nat.toString_eq_repr, Nat.toList_repr]
    exact (Nat.length_toDigits_le_iff (by omega) (by omega)).mpr (by omega)
  have hfront : (toString o.toNat).toList.head? ≠ some '0' ∨
      (toString o.toNat).toList.length = 1 := by
    rcases Nat.eq_zero_or_pos o.toNat with hzero | hpos
    · rw [hzero]
      exact Or.inr rfl
    · exact Or.inl (Text.head?_toString_ne_zero hpos)
  unfold octet?
  rw [Text.natOfDigits?_toString]
  refine (if_pos ⟨hlt, hlength, hfront⟩).trans ?_
  rw [Nat.toUInt8_eq, UInt8.ofNat_toNat]

theorem toList_text (a : V4) :
    a.text.toList = ['.'].intercalate (a.octets.map fun o => (toString o.toNat).toList) := by
  unfold text
  rw [String.toList_intercalate, List.map_map]
  rfl

theorem parse?_text (a : V4) : parse? a.text.toList = some a := by
  have hpieces : Text.pieces '.' a.text.toList =
      a.octets.map fun o => (toString o.toNat).toList := by
    rw [toList_text]
    refine Text.pieces_intercalate (List.cons_ne_nil _ _) fun word hword => ?_
    obtain ⟨o, -, rfl⟩ := List.mem_map.mp hword
    exact Text.not_mem_of_natOfDigits? (Text.natOfDigits?_toString _) (by decide)
  unfold parse?
  rw [hpieces]
  simp only [octets, List.map_cons, List.map_nil, octet?_toString]
  rfl

theorem dot_mem_text (a : V4) : '.' ∈ a.text.toList := by
  rw [toList_text, octets, List.map_cons, List.map_cons, List.intercalate_cons_cons]
  simp

end V4

/-! ## Groups of version 6 -/

namespace V6

/-- The texts of groups. -/
def words (groups : List UInt16) : List (List Char) :=
  groups.map fun g => Nat.toDigits 16 g.toNat

theorem toList_groupsText (groups : List UInt16) :
    (groupsText groups).toList = [':'].intercalate (words groups) := by
  unfold groupsText
  rw [String.toList_intercalate, List.map_map]
  refine congrArg _ (List.map_congr_left fun g _ => ?_)
  exact String.toList_ofList

theorem not_mem_of_mem_words {groups : List UInt16} {word : List Char} (h : word ∈ words groups)
    {c : Char} (hc : Text.hexDigit? c = none) : c ∉ word := by
  obtain ⟨g, -, rfl⟩ := List.mem_map.mp h
  intro hmem
  have hdigit := Text.hexDigit?_isSome_of_hexValue? (Text.hexValue?_toDigits g.toNat) c hmem
  rw [hc] at hdigit
  cases hdigit

theorem colon_not_mem_of_mem_words {groups : List UInt16} :
    ∀ word ∈ words groups, ':' ∉ word :=
  fun _ hword => not_mem_of_mem_words hword (by decide)

theorem ne_nil_of_mem_words {groups : List UInt16} : ∀ word ∈ words groups, word ≠ [] := by
  intro word hword
  obtain ⟨g, -, rfl⟩ := List.mem_map.mp hword
  exact Nat.toDigits_ne_nil

/-- A group is read back from its digits. -/
theorem group?_toDigits (g : UInt16) : group? (Nat.toDigits 16 g.toNat) = some g := by
  have hsome : 1 ≤ (Nat.toDigits 16 g.toNat).length := List.length_pos_iff.mpr Nat.toDigits_ne_nil
  have hfew : (Nat.toDigits 16 g.toNat).length ≤ 4 :=
    (Nat.length_toDigits_le_iff (by omega) (by omega)).mpr g.toNat_lt
  unfold group?
  rw [if_pos ⟨hsome, hfew⟩, Text.hexValue?_toDigits, Option.map_some, Nat.toUInt16_eq,
    UInt16.ofNat_toNat]

theorem plainGroupsOf?_words (groups : List UInt16) :
    plainGroupsOf? (words groups) = some groups := by
  unfold plainGroupsOf?
  induction groups with
  | nil => rfl
  | cons g rest ih =>
      show ((Nat.toDigits 16 g.toNat) :: words rest).mapM group? = _
      rw [List.mapM_cons, group?_toDigits, ih]
      rfl

theorem groupsOf?_words (groups : List UInt16) : groupsOf? (words groups) = some groups := by
  induction groups with
  | nil => rfl
  | cons g rest ih =>
      cases rest with
      | nil =>
          rw [words, List.map_singleton, groupsOf?, group?_toDigits]
      | cons next rest =>
          show (group? (Nat.toDigits 16 g.toNat) >>= fun g =>
            groupsOf? (words (next :: rest)) >>= fun gs => some (g :: gs)) = _
          rw [group?_toDigits, ih]
          rfl

theorem sidePieces_of_ne_nil {cs : List Char} (h : cs ≠ []) : sidePieces cs = Text.pieces ':' cs :=
  if_neg fun hempty => h (List.isEmpty_iff.mp hempty)

theorem sidePieces_intercalate (groups : List UInt16) :
    sidePieces ([':'].intercalate (words groups)) = words groups := by
  cases groups with
  | nil => rfl
  | cons g rest =>
      have hpieces : Text.pieces ':' ([':'].intercalate (words (g :: rest))) = words (g :: rest) :=
        Text.pieces_intercalate (List.cons_ne_nil _ _) colon_not_mem_of_mem_words
      have hsome : [':'].intercalate (words (g :: rest)) ≠ [] := by
        intro hnil
        have hmem : [] ∈ words (g :: rest) := by
          rw [← hpieces, hnil]
          exact List.mem_singleton_self []
        exact ne_nil_of_mem_words [] hmem rfl
      rw [sidePieces_of_ne_nil hsome, hpieces]

theorem ofGroups?_groups (a : V6) : ofGroups? a.groups = some a :=
  dif_pos a.length_groups

/-! ## Looking for a gap -/

theorem splitGap?_cons {c : Char} (h : c ≠ ':') (cs : List Char) :
    splitGap? (c :: cs) = (splitGap? cs).map fun sides => (c :: sides.1, sides.2) := by
  cases cs with
  | nil => rfl
  | cons d cs => rw [splitGap?, if_neg fun hboth => h hboth.1]

/-- A word without colons is passed over. -/
theorem splitGap?_append {word : List Char} (h : ':' ∉ word) (rest : List Char) :
    splitGap? (word ++ rest) = (splitGap? rest).map fun sides => (word ++ sides.1, sides.2) := by
  induction word with
  | nil => exact Option.map_id'.symm
  | cons c word ih =>
      obtain ⟨hc, hword⟩ := List.ne_and_not_mem_of_not_mem_cons h
      rw [List.cons_append, splitGap?_cons (Ne.symm hc), ih hword, Option.map_map]
      rfl

/-- So is one with a single colon in front. -/
theorem splitGap?_colon_append {word : List Char} (hne : word ≠ []) (h : ':' ∉ word)
    (rest : List Char) :
    splitGap? (':' :: word ++ rest) =
      (splitGap? rest).map fun sides => (':' :: word ++ sides.1, sides.2) := by
  cases word with
  | nil => exact absurd rfl hne
  | cons c word =>
      have hc := (List.ne_and_not_mem_of_not_mem_cons h).1
      rw [List.cons_append, List.cons_append, splitGap?, if_neg fun hboth => hc hboth.2.symm,
        ← List.cons_append, splitGap?_append h, Option.map_map]
      rfl

theorem intercalate_cons (mark : Char) (word : List Char) (rest : List (List Char)) :
    [mark].intercalate (word :: rest) = word ++ rest.flatMap fun next => mark :: next := by
  induction rest generalizing word with
  | nil => simp
  | cons next rest ih =>
      rw [List.intercalate_cons_cons, ih]
      simp

/-- Words with a colon in front of each are passed over. -/
theorem splitGap?_flatMap_append {others : List (List Char)} (hne : ∀ word ∈ others, word ≠ [])
    (h : ∀ word ∈ others, ':' ∉ word) (rest : List Char) :
    splitGap? (others.flatMap (fun next => ':' :: next) ++ rest) =
      (splitGap? rest).map fun sides =>
        (others.flatMap (fun next => ':' :: next) ++ sides.1, sides.2) := by
  induction others with
  | nil => exact Option.map_id'.symm
  | cons word others ih =>
      obtain ⟨hword, hrest⟩ := List.forall_mem_cons.mp h
      obtain ⟨hfirst, hmore⟩ := List.forall_mem_cons.mp hne
      rw [List.flatMap_cons, List.append_assoc, splitGap?_colon_append hfirst hword,
        ih hmore hrest, Option.map_map]
      simp [Function.comp_def]

/-- So are words with a colon between them. -/
theorem splitGap?_intercalate {words : List (List Char)} (hne : ∀ word ∈ words, word ≠ [])
    (h : ∀ word ∈ words, ':' ∉ word) (rest : List Char) :
    splitGap? ([':'].intercalate words ++ rest) =
      (splitGap? rest).map fun sides => ([':'].intercalate words ++ sides.1, sides.2) := by
  cases words with
  | nil => exact Option.map_id'.symm
  | cons word others =>
      obtain ⟨hword, hrest⟩ := List.forall_mem_cons.mp h
      rw [intercalate_cons, List.append_assoc, splitGap?_append hword,
        splitGap?_flatMap_append (List.forall_mem_cons.mp hne).2 hrest, Option.map_map]
      simp [Function.comp_def]

theorem splitGap?_gap_cons (after : List Char) :
    splitGap? (':' :: ':' :: after) = some ([], after) :=
  if_pos ⟨rfl, rfl⟩

/-- What stands in front of a gap and what stands behind it. -/
theorem splitGap?_gap (groups : List UInt16) (after : List Char) :
    splitGap? ([':'].intercalate (words groups) ++ ':' :: ':' :: after) =
      some ([':'].intercalate (words groups), after) := by
  rw [splitGap?_intercalate ne_nil_of_mem_words colon_not_mem_of_mem_words, splitGap?_gap_cons,
    Option.map_some, List.append_nil]

/-! ## What is left out -/

/-- So many groups from a place on are zeros. -/
structure Gap (groups : List UInt16) (start length : Nat) : Prop where
  fits : start + length ≤ groups.length
  zeros : groups.take start ++ List.replicate length 0 ++ groups.drop (start + length) = groups

theorem replicate_leadingZeros (groups : List UInt16) :
    List.replicate (leadingZeros groups) 0 ++ groups.drop (leadingZeros groups) = groups := by
  induction groups with
  | nil => rfl
  | cons g rest ih =>
      unfold leadingZeros at ih ⊢
      rw [List.takeWhile_cons]
      split
      · rename_i hg
        rw [List.length_cons, List.replicate_succ, List.cons_append, List.drop_succ_cons, ih,
          beq_iff_eq.mp hg]
      · rfl

theorem gap_leadingZeros {groups : List UInt16} {start : Nat} (h : start ≤ groups.length) :
    Gap groups start (leadingZeros (groups.drop start)) := by
  have hrun := replicate_leadingZeros (groups.drop start)
  constructor
  · have hlength : leadingZeros (groups.drop start) ≤ (groups.drop start).length :=
      (List.takeWhile_sublist _).length_le
    rw [List.length_drop] at hlength
    omega
  · rw [List.drop_drop] at hrun
    rw [List.append_assoc, hrun, List.take_append_drop]

theorem gap_longestGap (groups : List UInt16) :
    Gap groups (longestGap groups).1 (longestGap groups).2 := by
  unfold longestGap
  -- whatever place has been the best one so far, a run of zeros begins there
  refine List.foldlRecOn (motive := fun best : Nat × Nat => Gap groups best.1 best.2) _ _
    ⟨Nat.zero_le _, rfl⟩ fun best hbest i hi => ?_
  dsimp only
  split
  · exact gap_leadingZeros (Nat.le_of_lt (List.mem_range.mp hi))
  · exact hbest

/-! ## Reading back -/

theorem parse?_groupsText (a : V6) : parse? (groupsText a.groups).toList = some a := by
  have hnone : splitGap? ([':'].intercalate (words a.groups)) = none := by
    rw [← List.append_nil (List.intercalate _ _),
      splitGap?_intercalate ne_nil_of_mem_words colon_not_mem_of_mem_words]
    rfl
  have hsome : words a.groups ≠ [] := by
    intro hnil
    have hlength := a.length_groups
    rw [List.map_eq_nil_iff.mp hnil] at hlength
    cases hlength
  unfold parse?
  rw [toList_groupsText, hnone]
  show (groupsOf? (Text.pieces ':' _)).bind ofGroups? = _
  rw [Text.pieces_intercalate hsome colon_not_mem_of_mem_words, groupsOf?_words]
  exact ofGroups?_groups a

/-- Zeros that are left out are put back. -/
theorem parse?_gap (a : V6) {start length : Nat} (h : Gap a.groups start length)
    (hlength : 1 ≤ length) :
    parse? (groupsText (a.groups.take start) ++ "::" ++
      groupsText (a.groups.drop (start + length))).toList = some a := by
  have htext : (groupsText (a.groups.take start) ++ "::" ++
      groupsText (a.groups.drop (start + length))).toList =
      [':'].intercalate (words (a.groups.take start)) ++ ':' :: ':' ::
        [':'].intercalate (words (a.groups.drop (start + length))) := by
    rw [String.toList_append, String.toList_append, toList_groupsText, toList_groupsText]
    simp
  have hfits := h.fits
  have hgroups := a.length_groups
  have hfront : (a.groups.take start).length = start := List.length_take_of_le (by omega)
  have hback : (a.groups.drop (start + length)).length = 8 - (start + length) := by
    rw [List.length_drop, hgroups]
  unfold parse?
  rw [htext, splitGap?_gap]
  show (plainGroupsOf? (sidePieces _) >>= fun head => groupsOf? (sidePieces _) >>= fun tail =>
    if head.length + tail.length ≤ 7 then
      ofGroups? (head ++ List.replicate (8 - (head.length + tail.length)) 0 ++ tail)
    else none) = _
  rw [sidePieces_intercalate, sidePieces_intercalate, plainGroupsOf?_words, groupsOf?_words]
  show (if (a.groups.take start).length + (a.groups.drop (start + length)).length ≤ 7 then
    ofGroups? (a.groups.take start ++ List.replicate (8 - ((a.groups.take start).length +
      (a.groups.drop (start + length)).length)) 0 ++ a.groups.drop (start + length))
    else none) = _
  -- as many zeros are put in as were left out
  rw [hfront, hback, if_pos (by omega), show 8 - (start + (8 - (start + length))) = length by omega,
    h.zeros]
  exact ofGroups?_groups a

/-- The octets of a group make the group. -/
theorem group_of_octets (g : UInt16) :
    (g / 256).toUInt8.toUInt16 * 256 + g.toUInt8.toUInt16 = g := by
  have hlt := g.toNat_lt
  rw [← UInt16.toNat_inj]
  simp
  omega

/-- An address of version 4 is none of the groups. -/
theorem group?_text (b : V4) : group? b.text.toList = none := by
  cases hread : group? b.text.toList with
  | none => rfl
  | some g =>
      unfold group? at hread
      split at hread
      · obtain ⟨n, hn, -⟩ := Option.map_eq_some_iff.mp hread
        have hdigit := Text.hexDigit?_isSome_of_hexValue? hn _ b.dot_mem_text
        cases hdigit
      · cases hread

/-- A word of four letters and an address of version 4 are three groups. -/
theorem groupsOf?_mapped (b : V4) :
    groupsOf? [['f', 'f', 'f', 'f'], b.text.toList] =
      some [0xFFFF, b.first.toUInt16 * 256 + b.second.toUInt16,
        b.third.toUInt16 * 256 + b.fourth.toUInt16] := by
  have hletters : group? ['f', 'f', 'f', 'f'] = some 0xFFFF := by decide
  have hlast : groupsOf? [b.text.toList] = some [b.first.toUInt16 * 256 + b.second.toUInt16,
      b.third.toUInt16 * 256 + b.fourth.toUInt16] := by
    rw [groupsOf?, group?_text, V4.parse?_text]
    rfl
  rw [groupsOf?, hletters, hlast]
  · rfl
  · simp

theorem sidePieces_mapped (b : V4) :
    sidePieces (['f', 'f', 'f', 'f'] ++ ':' :: b.text.toList) =
      [['f', 'f', 'f', 'f'], b.text.toList] := by
  have hcolon : ':' ∉ b.text.toList :=
    V4.not_mem_of_parse? (V4.parse?_text b) (by decide) (by decide)
  rw [sidePieces_of_ne_nil (List.append_ne_nil_of_left_ne_nil (List.cons_ne_nil _ _) _),
    Text.pieces_append (by decide), Text.pieces_of_not_mem hcolon]

theorem groups_of_mapped? {a : V6} {b : V4} (h : a.mapped? = some b) :
    a.groups = [0, 0, 0, 0, 0, 0xFFFF, b.first.toUInt16 * 256 + b.second.toUInt16,
      b.third.toUInt16 * 256 + b.fourth.toUInt16] := by
  unfold mapped? at h
  split at h
  · rename_i g k hgroups
    obtain rfl := Option.some.inj h
    rw [hgroups, group_of_octets, group_of_octets]
  · cases h

theorem parse?_mapped {a : V6} {b : V4} (h : a.mapped? = some b) :
    parse? ("::ffff:" ++ b.text).toList = some a := by
  have htext : ("::ffff:" ++ b.text).toList =
      ':' :: ':' :: (['f', 'f', 'f', 'f'] ++ ':' :: b.text.toList) := by
    rw [String.toList_append]
    rfl
  have hempty : plainGroupsOf? (sidePieces []) = some [] := rfl
  unfold parse?
  rw [htext, splitGap?_gap_cons]
  dsimp only
  rw [hempty, sidePieces_mapped, groupsOf?_mapped, Option.bind_eq_bind, Option.bind_some,
    Option.bind_some, if_pos (by simp), ← ofGroups?_groups a,
    groups_of_mapped? h]
  rfl

theorem parse?_text (a : V6) : parse? a.text.toList = some a := by
  unfold text
  cases hmapped : a.mapped? with
  | some b => exact parse?_mapped hmapped
  | none =>
      dsimp only
      split
      · exact parse?_groupsText a
      · exact parse?_gap a (gap_longestGap a.groups) (by omega)

end V6

/-- An address is read back from its notation. -/
theorem Address.parse?_text (a : Address) : parse? a.text.toList = some a := by
  unfold parse?
  cases a with
  | v4 b =>
      rw [text, V4.parse?_text]
  | v6 b =>
      have hsix : V6.parse? b.text.toList = some b := V6.parse?_text b
      -- no text is an address of both versions
      have hfour : V4.parse? b.text.toList = none := by
        cases hread : V4.parse? b.text.toList with
        | none => rfl
        | some c =>
            rw [V6.parse?_eq_none_of_v4 hread] at hsix
            cases hsix
      rw [text, hfour, hsix]
      rfl

/-- A block may be written as its address is shown, a slash and the digits of its length. -/
theorem Block.writes_text (b : Block) : b.Writes (b.address.text ++ "/" ++ toString b.length) :=
  ⟨b.address.text, toString b.length, rfl, Address.parse?_text b.address, .digits 0⟩

end Network
end PacketPolicy
