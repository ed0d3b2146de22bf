namespace PacketPolicy
namespace Text

/-!
# Clipping a text to a number of bytes

A text too wide for its place is cut, and three dots say so.  Widths are counted in UTF-8
bytes.  A text can be cut only where a character begins or where it ends.

* `firstBytes?` -- the beginning of a text with so many bytes, if it can be cut there;
* `cutWithin` -- where a text that is too wide is cut;
* `clip?` -- the text itself, or what stands in front of the cut, followed by `...`;
* `clip` -- the same; it can be cut there in any case (`isSome_clip?`).
-/

/-- The number of bytes a list of characters takes in UTF-8. -/
def byteLength : List Char → Nat
  | [] => 0
  | c :: cs => c.utf8Size + byteLength cs

@[simp]
theorem byteLength_nil : byteLength [] = 0 := rfl

@[simp]
theorem byteLength_cons (c : Char) (cs : List Char) :
    byteLength (c :: cs) = c.utf8Size + byteLength cs := rfl

@[simp]
theorem byteLength_append (as bs : List Char) :
    byteLength (as ++ bs) = byteLength as + byteLength bs := by
  induction as with
  | nil => simp
  | cons a as ih => simp [ih, Nat.add_assoc]

theorem utf8ByteSize_ofList (cs : List Char) : (String.ofList cs).utf8ByteSize = byteLength cs := by
  induction cs with
  | nil => rfl
  | cons c cs ih =>
      rw [String.ofList_cons, String.utf8ByteSize_append, String.utf8ByteSize_singleton, ih]
      rfl

theorem utf8ByteSize_eq (s : String) : s.utf8ByteSize = byteLength s.toList := by
  rw [← utf8ByteSize_ofList, String.ofList_toList]

/-! ## Cutting -/

/-- The beginning of a text with so many bytes, if it can be cut there. -/
def firstBytes? (n : Nat) (s : String) : Option String :=
  (s.pos? ⟨n⟩).map fun p => (s.sliceTo p).copy

theorem pos?_of_isValid {s : String} {n : String.Pos.Raw} (h : n.IsValid s) :
    s.pos? n = some (s.pos n h) := by
  unfold String.pos? String.Slice.pos?
  rw [dif_pos (String.Pos.Raw.isValidForSlice_eq_true_iff.mpr h.toSlice)]
  rfl

theorem firstBytes?_append (s t : String) : firstBytes? s.utf8ByteSize (s ++ t) = some s := by
  have hvalid : String.Pos.Raw.IsValid (s ++ t) ⟨s.utf8ByteSize⟩ :=
    String.Pos.Raw.isValid_iff_exists_append.mpr ⟨s, t, rfl, rfl⟩
  have hsplits : ((s ++ t).pos ⟨s.utf8ByteSize⟩ hvalid).Splits s t := ⟨rfl, rfl⟩
  unfold firstBytes?
  rw [pos?_of_isValid hvalid, Option.map_some, hsplits.copy_sliceTo_eq]

/-- Where the characters of a text begin, the first of which begins at `start`. -/
def startsFrom (start : Nat) : List Char → List Nat
  | [] => []
  | c :: cs => start :: startsFrom (start + c.utf8Size) cs

/-- Where a text that may have `room` bytes is cut: where the last of those characters begins
that begin within them. -/
def cutWithin (room : Nat) (s : String) : Nat :=
  ((startsFrom 0 s.toList).takeWhile (· ≤ room)).getLast?.getD 0

/-- What stands in front of a character is a beginning of the text. -/
theorem exists_of_mem_startsFrom {n start : Nat} {cs : List Char} (h : n ∈ startsFrom start cs) :
    ∃ before after, cs = before ++ after ∧ n = start + byteLength before := by
  induction cs generalizing start with
  | nil => cases h
  | cons c cs ih =>
      rcases List.mem_cons.mp h with rfl | h
      · exact ⟨[], c :: cs, rfl, rfl⟩
      · obtain ⟨before, after, rfl, rfl⟩ := ih h
        exact ⟨c :: before, after, rfl, by rw [byteLength_cons, Nat.add_assoc]⟩

/-- The cut falls between two characters. -/
theorem exists_append_of_cutWithin (room : Nat) (s : String) :
    ∃ before after, s = before ++ after ∧ cutWithin room s = before.utf8ByteSize := by
  unfold cutWithin
  cases hlast : ((startsFrom 0 s.toList).takeWhile (· ≤ room)).getLast? with
  | none => exact ⟨"", s, by simp, rfl⟩
  | some n =>
      have hmem := (List.takeWhile_sublist _).subset (List.mem_of_getLast? hlast)
      obtain ⟨before, after, hs, rfl⟩ := exists_of_mem_startsFrom hmem
      refine ⟨String.ofList before, String.ofList after, ?_, ?_⟩
      · rw [← String.ofList_append, ← hs, String.ofList_toList]
      · rw [utf8ByteSize_ofList, Option.getD_some, Nat.zero_add]

/-! ## Clipping -/

/-- The dots that stand for what was cut off. -/
def ellipsis : String := "..."

/-- A text of at most `width` bytes stays as it is.  A longer one is cut so that there is room for
the dots; when there is none even for them, only the dots are left. -/
def clip? (width : Nat) (s : String) : Option String :=
  if s.utf8ByteSize ≤ width then some s
  else (firstBytes? (cutWithin (width - 3) s) s).map (· ++ ellipsis)

theorem isSome_clip? (width : Nat) (s : String) : (clip? width s).isSome = true := by
  unfold clip?
  split
  · rfl
  · obtain ⟨before, after, hs, hcut⟩ := exists_append_of_cutWithin (width - 3) s
    rw [hcut, hs, firstBytes?_append]
    rfl

/-- The text, clipped to `width` bytes. -/
def clip (width : Nat) (s : String) : String :=
  (clip? width s).get (isSome_clip? width s)

example : clip 8 "héllo wörld" = "héll..." := by decide +kernel

end Text
end PacketPolicy
