import PacketPolicy.Text.Clip

/-!
# Where a text is clipped

A text that is too wide for its place is cut where no character is split, and as late as possible.

* `fitting` -- the longest beginning of a text with at most so many bytes; `isPrefix_fitting` says
  that it is;
* `getLast?_startsFrom`, `cutWithin_eq` -- a text that is too wide is cut behind this beginning;
* `clip_leaves_longest_beginning` -- what clipping leaves of a text, and how wide it is then;
* `clip_exceeds_small_widths` -- three dots do not fit into less than three bytes.
-/

namespace PacketPolicy
namespace Text

/-- The longest beginning of `cs` with at most `room` bytes. -/
def fitting (room : Nat) : List Char → List Char
  | [] => []
  | c :: cs => if c.utf8Size ≤ room then c :: fitting (room - c.utf8Size) cs else []

theorem fitting_isPrefix (room : Nat) (cs : List Char) : fitting room cs <+: cs := by
  induction cs generalizing room with
  | nil => simp [fitting]
  | cons c cs ih =>
      by_cases h : c.utf8Size ≤ room
      · simpa [fitting, h] using ih (room - c.utf8Size)
      · simp [fitting, h]

theorem byteLength_fitting_le (room : Nat) (cs : List Char) :
    byteLength (fitting room cs) ≤ room := by
  induction cs generalizing room with
  | nil => simp [fitting]
  | cons c cs ih =>
      by_cases h : c.utf8Size ≤ room
      · have := ih (room - c.utf8Size)
        simp only [fitting, h, if_true, byteLength_cons]
        omega
      · simp [fitting, h]

/-- Whatever beginning of the text fits is a part of the longest one. -/
theorem isPrefix_fitting {room : Nat} {cs start : List Char} (hstart : start <+: cs)
    (hroom : byteLength start ≤ room) : start <+: fitting room cs := by
  induction cs generalizing room start with
  | nil => simpa [fitting] using hstart
  | cons c cs ih =>
      cases start with
      | nil => exact List.nil_prefix
      | cons d start =>
          obtain ⟨rfl, hrest⟩ := List.cons_prefix_cons.mp hstart
          rw [byteLength_cons] at hroom
          have hfits : d.utf8Size ≤ room := by omega
          have hlater : start <+: fitting (room - d.utf8Size) cs := ih hrest (by omega)
          simpa [fitting, hfits] using hlater

/-- Of the characters that begin within the room the last one is the first that does not fit. -/
theorem getLast?_startsFrom {room : Nat} {cs : List Char} (h : room < byteLength cs)
    (start : Nat) : ((startsFrom start cs).takeWhile (· ≤ start + room)).getLast? =
      some (start + byteLength (fitting room cs)) := by
  induction cs generalizing room start with
  | nil => simp at h
  | cons c cs ih =>
      rw [startsFrom, List.takeWhile_cons_of_pos (by simp)]
      by_cases hfits : c.utf8Size ≤ room
      · rw [byteLength_cons] at h
        -- the rest of the text has what the first character leaves of the room
        have hrest := @ih (room - c.utf8Size) (by omega) (start + c.utf8Size)
        have hbound : start + c.utf8Size + (room - c.utf8Size) = start + room := by omega
        rw [hbound] at hrest
        rw [List.getLast?_cons, hrest, Option.getD_some, fitting, if_pos hfits, byteLength_cons,
          Nat.add_assoc]
      · have hnone : (startsFrom (start + c.utf8Size) cs).takeWhile (· ≤ start + room) = [] := by
          cases cs with
          | nil => rfl
          | cons d cs =>
              refine List.takeWhile_cons_of_neg ?_
              simpa using hfits
        rw [hnone, fitting, if_neg hfits]
        rfl

theorem cutWithin_eq {room : Nat} {s : String} (h : room < s.utf8ByteSize) :
    cutWithin room s = byteLength (fitting room s.toList) := by
  rw [utf8ByteSize_eq] at h
  have hlast := getLast?_startsFrom h 0
  rw [Nat.zero_add] at hlast
  rw [cutWithin, hlast, Option.getD_some, Nat.zero_add]

/-- A text is the longest beginning that fits and what follows it. -/
theorem exists_eq_fitting_append (room : Nat) (s : String) :
    ∃ rest, s = String.ofList (fitting room s.toList) ++ rest := by
  obtain ⟨rest, hrest⟩ := fitting_isPrefix room s.toList
  exact ⟨String.ofList rest, by rw [← String.ofList_append, hrest, String.ofList_toList]⟩

/-- No cut within the room is farther on than the end of the longest beginning that fits. -/
theorem le_byteLength_fitting {room n : Nat} {s : String} (hn : n ≤ room)
    (hvalid : String.Pos.Raw.IsValid s ⟨n⟩) : n ≤ byteLength (fitting room s.toList) := by
  obtain ⟨start, rest, hs, hsize⟩ := String.Pos.Raw.isValid_iff_exists_append.mp hvalid
  obtain rfl : n = start.utf8ByteSize := congrArg String.Pos.Raw.byteIdx hsize
  have hprefix : start.toList <+: s.toList := ⟨rest.toList, by rw [hs, String.toList_append]⟩
  rw [utf8ByteSize_eq] at hn ⊢
  obtain ⟨more, hmore⟩ := isPrefix_fitting hprefix hn
  rw [← hmore, byteLength_append]
  exact Nat.le_add_right _ _

/-! ## What is left -/

theorem clip?_eq_some_clip (width : Nat) (s : String) : clip? width s = some (clip width s) :=
  (Option.some_get _).symm

theorem clip_of_le {width : Nat} {s : String} (h : s.utf8ByteSize ≤ width) : clip width s = s := by
  have hclip := clip?_eq_some_clip width s
  rw [clip?, if_pos h] at hclip
  exact (Option.some.inj hclip).symm

theorem clip_of_lt {width : Nat} {s : String} (h : width < s.utf8ByteSize) :
    clip width s = String.ofList (fitting (width - 3) s.toList) ++ "..." := by
  have hclip := clip?_eq_some_clip width s
  rw [clip?, if_neg (Nat.not_le.mpr h), cutWithin_eq (by omega)] at hclip
  obtain ⟨rest, hs⟩ := exists_eq_fitting_append (width - 3) s
  have hfirst := firstBytes?_append (String.ofList (fitting (width - 3) s.toList)) rest
  rw [← hs, utf8ByteSize_ofList] at hfirst
  rw [hfirst] at hclip
  exact (Option.some.inj hclip).symm

/-- Clipping always leaves a text.  One that fits stays as it is; of a longer one the longest
beginning stays that leaves room for three dots and splits no character, and the dots follow.  The
result fits as well, as long as the dots do. -/
theorem clip_leaves_longest_beginning (width : Nat) (s : String) :
    clip? width s = some (clip width s) ∧
      (s.utf8ByteSize ≤ width → clip width s = s) ∧
      (width < s.utf8ByteSize →
        ∃ start rest, s = start ++ rest ∧ clip width s = start ++ "..." ∧
          start.utf8ByteSize = cutWithin (width - 3) s ∧ start.utf8ByteSize ≤ width - 3 ∧
          ∀ n ≤ width - 3, String.Pos.Raw.IsValid s ⟨n⟩ → n ≤ start.utf8ByteSize) ∧
      String.Pos.Raw.IsValid s ⟨cutWithin (width - 3) s⟩ ∧
      (3 ≤ width ∨ s.utf8ByteSize ≤ width → (clip width s).utf8ByteSize ≤ width) := by
  have hroom := byteLength_fitting_le (width - 3) s.toList
  refine ⟨clip?_eq_some_clip width s, clip_of_le, fun hwide => ?_, ?_, fun hdots => ?_⟩
  · obtain ⟨rest, hs⟩ := exists_eq_fitting_append (width - 3) s
    refine ⟨_, rest, hs, clip_of_lt hwide, ?_, ?_, fun n hn hvalid => ?_⟩
    · rw [utf8ByteSize_ofList, cutWithin_eq (by omega)]
    · rwa [utf8ByteSize_ofList]
    · rw [utf8ByteSize_ofList]
      exact le_byteLength_fitting hn hvalid
  · obtain ⟨before, after, hs, hcut⟩ := exists_append_of_cutWithin (width - 3) s
    rw [hcut]
    exact String.Pos.Raw.isValid_iff_exists_append.mpr ⟨before, after, hs, rfl⟩
  · rcases Nat.lt_or_ge width s.utf8ByteSize with hwide | hfits
    · have hthree : "...".utf8ByteSize = 3 := rfl
      rw [clip_of_lt hwide, String.utf8ByteSize_append, utf8ByteSize_ofList, hthree]
      omega
    · rwa [clip_of_le hfits]

/-- No room is too little for the dots. -/
theorem clip_exceeds_small_widths :
    ¬ ∀ (width : Nat) (s : String), (clip width s).utf8ByteSize ≤ width := by
  intro hfits
  exact absurd (hfits 0 "a") (by decide +kernel)

end Text
end PacketPolicy
