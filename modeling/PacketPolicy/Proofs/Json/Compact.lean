import Mathlib.Data.String.Basic
import PacketPolicy.Proofs.Json.Scanning

/-!
# Values that were written without blanks

A value is read back from the text in which it stands without any blanks, if its numbers are whole,
the names in its objects are in ascending order, and it does not nest too deep.

* `gives_compact` -- the words of the value are found in its text;
* `Value.Ordered`, `readable_ofMembers` -- names in ascending order, which an object put together
  from members always has;
* `Value.depth` -- how deep lists and objects nest;
* `value?_ofValue` -- the tree of the value is read as the value;
* `ofText_compact` -- the whole text;
* `value?_fault_of_deep`, `ofText_compact_fault` -- what nests deeper than readers go.
-/

namespace PacketPolicy
namespace Json

open Scan

/-! ## Words without blanks between them -/

namespace Value

/-- The items after the first one, each with a comma in front. -/
theorem compactItems_cons (v : Value) (items : List Value) :
    compactChars.compactItems (v :: items) =
      v.compactChars ++ items.flatMap fun w => ',' :: w.compactChars := by
  induction items generalizing v with
  | nil => simp [compactChars.compactItems]
  | cons w rest ih => simp [compactChars.compactItems, ih]

theorem compactMembers_cons (name : String) (v : Value) (members : List (String × Value)) :
    compactChars.compactMembers ((name, v) :: members) =
      quoted name ++ ':' :: v.compactChars ++
        members.flatMap fun m => ',' :: (quoted m.1 ++ ':' :: m.2.compactChars) := by
  induction members generalizing name v with
  | nil => simp [compactChars.compactMembers]
  | cons m rest ih =>
      obtain ⟨other, w⟩ := m
      simp [compactChars.compactMembers, ih]

end Value

theorem endsNumeral_closeArray : EndsNumeral ']' := by
  refine ⟨?_, ?_, ?_, ?_⟩ <;> decide

theorem endsNumeral_closeObject : EndsNumeral '\x7d' := by
  refine ⟨?_, ?_, ?_, ?_⟩ <;> decide

/-- A name with the colon behind it. -/
theorem closed_compactName (name : String) :
    Closed (Value.quoted name ++ [':']) [.string name, .colon] :=
  (closed_quoted name).append (closed_mark rfl)

mutual

/-- The words of a value are found in its text without blanks. -/
theorem gives_compact (v : Value) (h : v.Whole) : Gives v.compactChars v.tokens := by
  cases v with
  | array items =>
      have hopen : Closed ['['] [.openArray] := closed_mark rfl
      cases items with
      | nil => exact (hopen.append (closed_mark rfl : Closed [']'] [.closeArray])).gives
      | cons v items =>
          obtain ⟨hv, hitems⟩ := h
          have hfirst := hopen.append_gives (gives_compact v hv)
          have hmore := gives_compactItems items hitems hfirst
          have hall := hmore.append_mark endsNumeral_closeArray rfl
          simpa [Value.compactChars, Value.compactItems_cons, Value.tokens] using hall.gives
  | object members =>
      have hopen : Closed ['\x7b'] [.openObject] := closed_mark rfl
      cases members with
      | nil => exact (hopen.append (closed_mark rfl : Closed ['\x7d'] [.closeObject])).gives
      | cons member members =>
          obtain ⟨name, v⟩ := member
          obtain ⟨hv, hmembers⟩ := h
          have hname := hopen.append (closed_compactName name)
          have hmore := gives_compactMembers members hmembers
            (hname.append_gives (gives_compact v hv))
          have hall := hmore.append_mark endsNumeral_closeObject rfl
          simpa [Value.compactChars, Value.compactMembers_cons, Value.tokens] using hall.gives
  -- a value without parts has the same text in lines
  | null => exact gives_indented .null h 0
  | bool b => exact gives_indented (.bool b) h 0
  | number n => exact gives_indented (.number n) h 0
  | string s => exact gives_indented (.string s) h 0

theorem gives_compactItems (items : List Value) (h : Value.Whole.wholeItems items)
    {cs : List Char} {ts : List Token} (hcs : Gives cs ts) :
    Gives (cs ++ items.flatMap fun w => ',' :: w.compactChars)
      (ts ++ Value.tokens.moreItems items) := by
  cases items with
  | nil => simpa [Value.tokens.moreItems] using hcs
  | cons v items =>
      obtain ⟨hv, hitems⟩ := h
      have hcomma := hcs.append_mark endsNumeral_comma rfl
      have hmore := gives_compactItems items hitems (hcomma.append_gives (gives_compact v hv))
      simpa [Value.tokens.moreItems] using hmore

theorem gives_compactMembers (members : List (String × Value))
    (h : Value.Whole.wholeMembers members) {cs : List Char} {ts : List Token}
    (hcs : Gives cs ts) :
    Gives (cs ++ members.flatMap fun m => ',' :: (Value.quoted m.1 ++ ':' :: m.2.compactChars))
      (ts ++ Value.tokens.moreMembers members) := by
  cases members with
  | nil => simpa [Value.tokens.moreMembers] using hcs
  | cons member members =>
      obtain ⟨name, v⟩ := member
      obtain ⟨hv, hmembers⟩ := h
      have hname := (hcs.append_mark endsNumeral_comma rfl).append (closed_compactName name)
      have hmore := gives_compactMembers members hmembers
        (hname.append_gives (gives_compact v hv))
      simpa [Value.tokens.moreMembers] using hmore

end

/-! ## Names in ascending order -/

namespace Value

/-- Whether the names in all objects of a value are in ascending order. -/
def Ordered : Value → Prop
  | .array items => orderedItems items
  | .object members => (members.map Prod.fst).Pairwise (· < ·) ∧ orderedMembers members
  | _ => True
where
  orderedItems : List Value → Prop
    | [] => True
    | v :: rest => v.Ordered ∧ orderedItems rest
  orderedMembers : List (String × Value) → Prop
    | [] => True
    | (_, v) :: rest => v.Ordered ∧ orderedMembers rest

/-- How deep lists and objects nest in a value. -/
def depth : Value → Nat
  | .array items => depthOfItems items + 1
  | .object members => depthOfMembers members + 1
  | _ => 0
where
  depthOfItems : List Value → Nat
    | [] => 0
    | v :: rest => max v.depth (depthOfItems rest)
  depthOfMembers : List (String × Value) → Nat
    | [] => 0
    | (_, v) :: rest => max v.depth (depthOfMembers rest)

theorem insertMember_of_lt {name : String} {v : Value} {members : List (String × Value)}
    (h : ∀ m ∈ members, m.1 < name) : insertMember name v members = members ++ [(name, v)] := by
  induction members with
  | nil => rfl
  | cons m rest ih =>
      obtain ⟨hfirst, hrest⟩ := List.forall_mem_cons.mp h
      rw [insertMember, if_neg (lt_asymm hfirst), if_neg (ne_of_gt hfirst), ih hrest]
      rfl

theorem foldl_insertMember (before : List (String × Value)) {members : List (String × Value)}
    (h : ((before ++ members).map Prod.fst).Pairwise (· < ·)) :
    members.foldl (fun sorted (name, v) => insertMember name v sorted) before =
      before ++ members := by
  induction members generalizing before with
  | nil => simp
  | cons m rest ih =>
      obtain ⟨name, v⟩ := m
      rw [List.append_cons] at h
      have hbefore : ∀ m ∈ before, m.1 < name := by
        intro m hm
        rw [List.map_append, List.map_append, List.append_assoc, List.pairwise_append] at h
        exact h.2.2 m.1 (List.mem_map_of_mem hm) name (by simp)
      rw [List.foldl_cons]
      simp only [insertMember_of_lt hbefore]
      rw [ih _ h, List.append_assoc]
      rfl

/-- Members in ascending order stay as they are. -/
theorem sortedMembers_of_pairwise {members : List (String × Value)}
    (h : (members.map Prod.fst).Pairwise (· < ·)) : sortedMembers members = members :=
  foldl_insertMember [] (by simpa using h)

theorem mem_insertMember {name : String} {v : Value} {members : List (String × Value)}
    {m : String × Value} (h : m ∈ insertMember name v members) : m = (name, v) ∨ m ∈ members := by
  induction members with
  | nil => exact Or.inl (List.mem_singleton.mp h)
  | cons other rest ih =>
      unfold insertMember at h
      split at h
      · exact List.mem_cons.mp h
      split at h
      · exact (List.mem_cons.mp h).imp_right (List.mem_cons_of_mem _)
      · rcases List.mem_cons.mp h with rfl | hrest
        · exact Or.inr List.mem_cons_self
        · exact (ih hrest).imp_right (List.mem_cons_of_mem _)

/-- A new member takes its place between those before and those after it. -/
theorem pairwise_insertMember {members : List (String × Value)}
    (h : (members.map Prod.fst).Pairwise (· < ·)) (name : String) (v : Value) :
    ((insertMember name v members).map Prod.fst).Pairwise (· < ·) := by
  induction members with
  | nil => exact List.pairwise_singleton _ _
  | cons m rest ih =>
      obtain ⟨hfirst, hrest⟩ := List.pairwise_cons.mp h
      unfold insertMember
      split
      · rename_i hlt
        refine List.pairwise_cons.mpr ⟨fun other hother => ?_, h⟩
        rcases List.mem_cons.mp hother with rfl | hmem
        · exact hlt
        · exact lt_trans hlt (hfirst other hmem)
      split
      · rename_i heq
        exact List.pairwise_cons.mpr ⟨fun other hother => heq ▸ hfirst other hother, hrest⟩
      · rename_i hge hne
        refine List.pairwise_cons.mpr ⟨fun other hother => ?_, ih hrest⟩
        obtain ⟨m', hm', rfl⟩ := List.mem_map.mp hother
        rcases mem_insertMember hm' with rfl | hmem
        · exact lt_of_le_of_ne (not_lt.mp hge) (Ne.symm hne)
        · exact hfirst m'.1 (List.mem_map_of_mem hmem)

/-- Whatever is true of all members is true of them when they are sorted, and they are in ascending
order then. -/
theorem sortedMembers_spec (members : List (String × Value)) :
    ((sortedMembers members).map Prod.fst).Pairwise (· < ·) ∧
      ∀ m ∈ sortedMembers members, m ∈ members := by
  suffices h : ∀ before : List (String × Value), (before.map Prod.fst).Pairwise (· < ·) →
      let sorted := members.foldl (fun sorted (name, v) => insertMember name v sorted) before
      (sorted.map Prod.fst).Pairwise (· < ·) ∧ ∀ m ∈ sorted, m ∈ before ∨ m ∈ members by
    obtain ⟨hpairwise, hmem⟩ := h [] List.Pairwise.nil
    exact ⟨hpairwise, fun m hm => (hmem m hm).resolve_left List.not_mem_nil⟩
  induction members with
  | nil => exact fun before h => ⟨h, fun m hm => Or.inl hm⟩
  | cons m rest ih =>
      intro before h
      obtain ⟨hpairwise, hmem⟩ := ih _ (pairwise_insertMember h m.1 m.2)
      refine ⟨hpairwise, fun m' hm' => ?_⟩
      rcases hmem m' hm' with hinserted | hrest
      · rcases mem_insertMember hinserted with rfl | hbefore
        · exact Or.inr List.mem_cons_self
        · exact Or.inl hbefore
      · exact Or.inr (List.mem_cons_of_mem _ hrest)

theorem wholeMembers_iff (members : List (String × Value)) :
    Whole.wholeMembers members ↔ ∀ m ∈ members, m.2.Whole := by
  induction members with
  | nil => simp [Whole.wholeMembers]
  | cons m rest ih => rw [List.forall_mem_cons, ← ih]; rfl

theorem orderedMembers_iff (members : List (String × Value)) :
    Ordered.orderedMembers members ↔ ∀ m ∈ members, m.2.Ordered := by
  induction members with
  | nil => simp [Ordered.orderedMembers]
  | cons m rest ih => rw [List.forall_mem_cons, ← ih]; rfl

theorem depthOfMembers_le_iff (members : List (String × Value)) (n : Nat) :
    depth.depthOfMembers members ≤ n ↔ ∀ m ∈ members, m.2.depth ≤ n := by
  induction members with
  | nil => simp [depth.depthOfMembers]
  | cons m rest ih => rw [List.forall_mem_cons, ← ih]; exact Nat.max_le

theorem depthOfItems_le_iff (items : List Value) (n : Nat) :
    depth.depthOfItems items ≤ n ↔ ∀ v ∈ items, v.depth ≤ n := by
  induction items with
  | nil => simp [depth.depthOfItems]
  | cons v rest ih => rw [List.forall_mem_cons, ← ih]; exact Nat.max_le

/-- What stands in a text without blanks and is read back. -/
structure Readable (v : Value) : Prop where
  whole : v.Whole
  ordered : v.Ordered
  depth : v.depth ≤ nestingLimit

/-- An object of values of which each can be read back can be read back. -/
theorem readable_ofMembers {members : List (String × Value)}
    (h : ∀ m ∈ members, m.2.Whole ∧ m.2.Ordered ∧ m.2.depth < nestingLimit) :
    (ofMembers members).Readable := by
  obtain ⟨hpairwise, hmem⟩ := sortedMembers_spec members
  constructor
  · exact (wholeMembers_iff _).mpr fun m hm => (h m (hmem m hm)).1
  · exact ⟨hpairwise, (orderedMembers_iff _).mpr fun m hm => (h m (hmem m hm)).2.1⟩
  · refine Nat.succ_le_succ (m := 126) ((depthOfMembers_le_iff _ _).mpr fun m hm => ?_)
    exact Nat.le_of_lt_succ (h m (hmem m hm)).2.2

end Value

/-! ## Reading trees of values -/

mutual

/-- The tree of a value is read as the value, if there is room for its depth. -/
theorem value?_ofValue (v : Value) (room : Nat) (hordered : v.Ordered) (hdepth : v.depth ≤ room) :
    Tree.value? (some room) (.ofValue v) = .ok v := by
  cases v with
  | array items =>
      obtain ⟨below, rfl⟩ : ∃ below, room = below + 1 := ⟨room - 1, by
        rw [Value.depth] at hdepth
        omega⟩
      have hitems := itemValues_ofItems items below hordered (Nat.le_of_succ_le_succ hdepth)
      show (Tree.value?.itemValues (some below) (Tree.ofValue.ofItems items) >>= _) = _
      rw [hitems]
      rfl
  | object members =>
      obtain ⟨below, rfl⟩ : ∃ below, room = below + 1 := ⟨room - 1, by
        rw [Value.depth] at hdepth
        omega⟩
      obtain ⟨hnames, hvalues⟩ := hordered
      have hmembers := memberValues_ofMembers members below hvalues
        (Nat.le_of_succ_le_succ hdepth)
      show (Tree.value?.memberValues (some below) (Tree.ofValue.ofMembers members) >>= _) = _
      rw [hmembers]
      show Except.ok (Value.ofMembers members) = _
      rw [Value.ofMembers, Value.sortedMembers_of_pairwise hnames]
  | null => rfl
  | bool b => rfl
  | number n => rfl
  | string s => rfl

theorem itemValues_ofItems (items : List Value) (room : Nat)
    (hordered : Value.Ordered.orderedItems items) (hdepth : Value.depth.depthOfItems items ≤ room) :
    Tree.value?.itemValues (some room) (Tree.ofValue.ofItems items) = .ok items := by
  cases items with
  | nil => rfl
  | cons v rest =>
      obtain ⟨hv, hrest⟩ := hordered
      have hbounds := Nat.max_le.mp hdepth
      show (Tree.value? (some room) (.ofValue v) >>= fun v =>
        Tree.value?.itemValues (some room) (Tree.ofValue.ofItems rest) >>= fun values =>
          .ok (v :: values)) = _
      rw [value?_ofValue v room hv hbounds.1, itemValues_ofItems rest room hrest hbounds.2]
      rfl

theorem memberValues_ofMembers (members : List (String × Value)) (room : Nat)
    (hordered : Value.Ordered.orderedMembers members)
    (hdepth : Value.depth.depthOfMembers members ≤ room) :
    Tree.value?.memberValues (some room) (Tree.ofValue.ofMembers members) = .ok members := by
  cases members with
  | nil => rfl
  | cons m rest =>
      obtain ⟨name, v⟩ := m
      obtain ⟨hv, hrest⟩ := hordered
      have hbounds := Nat.max_le.mp hdepth
      show (Tree.value? (some room) (.ofValue v) >>= fun v =>
        Tree.value?.memberValues (some room) (Tree.ofValue.ofMembers rest) >>= fun values =>
          .ok ((name, v) :: values)) = _
      rw [value?_ofValue v room hv hbounds.1, memberValues_ofMembers rest room hrest hbounds.2]
      rfl

end

mutual

/-- A value that nests deeper than there is room is not read. -/
theorem value?_fault_of_deep (v : Value) (room : Nat) (hdepth : room < v.depth) :
    ∃ fault, Tree.value? (some room) (.ofValue v) = .error fault := by
  cases v with
  | array items =>
      cases room with
      | zero => exact ⟨_, rfl⟩
      | succ below =>
          obtain ⟨fault, hfault⟩ :=
            itemValues_fault_of_deep items below (Nat.lt_of_succ_lt_succ hdepth)
          refine ⟨fault, ?_⟩
          show (Tree.value?.itemValues (some below) (Tree.ofValue.ofItems items) >>= _) = _
          rw [hfault]
          rfl
  | object members =>
      cases room with
      | zero => exact ⟨_, rfl⟩
      | succ below =>
          obtain ⟨fault, hfault⟩ :=
            memberValues_fault_of_deep members below (Nat.lt_of_succ_lt_succ hdepth)
          refine ⟨fault, ?_⟩
          show (Tree.value?.memberValues (some below) (Tree.ofValue.ofMembers members) >>= _) = _
          rw [hfault]
          rfl
  | null => cases hdepth
  | bool b => cases hdepth
  | number n => cases hdepth
  | string s => cases hdepth

theorem itemValues_fault_of_deep (items : List Value) (room : Nat)
    (hdepth : room < Value.depth.depthOfItems items) :
    ∃ fault, Tree.value?.itemValues (some room) (Tree.ofValue.ofItems items) = .error fault := by
  cases items with
  | nil => cases hdepth
  | cons v rest =>
      show ∃ fault, (Tree.value? (some room) (.ofValue v) >>= fun v =>
        Tree.value?.itemValues (some room) (Tree.ofValue.ofItems rest) >>= fun values =>
          .ok (v :: values)) = .error fault
      rcases lt_max_iff.mp hdepth with hv | hrest
      · obtain ⟨fault, hfault⟩ := value?_fault_of_deep v room hv
        exact ⟨fault, by rw [hfault]; rfl⟩
      · obtain ⟨fault, hfault⟩ := itemValues_fault_of_deep rest room hrest
        cases Tree.value? (some room) (.ofValue v) with
        | error earlier => exact ⟨earlier, rfl⟩
        | ok w => exact ⟨fault, by rw [hfault]; rfl⟩

theorem memberValues_fault_of_deep (members : List (String × Value)) (room : Nat)
    (hdepth : room < Value.depth.depthOfMembers members) :
    ∃ fault, Tree.value?.memberValues (some room) (Tree.ofValue.ofMembers members) =
      .error fault := by
  cases members with
  | nil => cases hdepth
  | cons m rest =>
      obtain ⟨name, v⟩ := m
      show ∃ fault, (Tree.value? (some room) (.ofValue v) >>= fun v =>
        Tree.value?.memberValues (some room) (Tree.ofValue.ofMembers rest) >>= fun values =>
          .ok ((name, v) :: values)) = .error fault
      rcases lt_max_iff.mp hdepth with hv | hrest
      · obtain ⟨fault, hfault⟩ := value?_fault_of_deep v room hv
        exact ⟨fault, by rw [hfault]; rfl⟩
      · obtain ⟨fault, hfault⟩ := memberValues_fault_of_deep rest room hrest
        cases Tree.value? (some room) (.ofValue v) with
        | error earlier => exact ⟨earlier, rfl⟩
        | ok w => exact ⟨fault, by rw [hfault]; rfl⟩

end

/-- The text of a value without blanks is taken apart into the tree of the value. -/
theorem document_compact {v : Value} (h : v.Whole) :
    Document.ofText v.compact = ⟨.ofValue v, false⟩ := by
  unfold Document.ofText Value.compact
  rw [String.toList_ofList, tokens_of_gives (gives_compact v h), ofTokens_tokens]

/-- A value is read back from its text without blanks. -/
theorem ofText_compact {v : Value} (h : v.Readable) : Value.ofText v.compact = .ok v := by
  have hread := value?_ofValue v nestingLimit h.ordered h.depth
  unfold Value.ofText Reader.ofText Reader.anyValue
  simp only [document_compact h.whole]
  rw [Nat.sub_zero, hread]
  rfl

/-- A value that nests too deep is written, but not read back. -/
theorem ofText_compact_fault {v : Value} (h : v.Whole) (hdepth : nestingLimit < v.depth) :
    ∃ problem, Value.ofText v.compact = .error problem := by
  obtain ⟨fault, hfault⟩ := value?_fault_of_deep v nestingLimit hdepth
  refine ⟨.text fault, ?_⟩
  unfold Value.ofText Reader.ofText Reader.anyValue
  simp only [document_compact h]
  rw [Nat.sub_zero, hfault]
  rfl

end Json
end PacketPolicy
