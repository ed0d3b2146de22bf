import Mathlib.Data.Option.Basic
import PacketPolicy.Json.Tree

/-!
# Trees and their words

A tree in which nothing is wrong and the words of its document determine each other.

* `Tree.words` -- the words that a tree is written as;
* `Tree.WellFormed` -- nothing is wrong with the tree, as far as one sees who needs nothing of it;
* `foldl_step_words`, `ofTokens_words` -- wherever a value is due, these words make the tree;
* `State.Spells`, `spells_step` -- the words that went into a tree under construction are those of
  what it holds so far;
* `words_of_ofTokens` -- so a document in which nothing is wrong has the words of its tree;
* `Token.Sound`, `sound_words` -- nothing is wrong with these words;
* `Token.Numeral`, `not_adjacent_numerals` -- and no two of them are numerals side by side.
-/

namespace PacketPolicy
namespace Json

/-! ## Words -/

/-- One after another, with a comma between them. -/
def separated : List (List Token) → List Token
  | [] => []
  | first :: rest => first ++ rest.flatMap (Token.comma :: ·)

/-- A comma may be counted to what stands before it or to what stands behind it. -/
theorem comma_cons_flatMap (ws : List (List Token)) :
    Token.comma :: ws.flatMap (· ++ [Token.comma]) =
      ws.flatMap (Token.comma :: ·) ++ [Token.comma] := by
  induction ws with
  | nil => rfl
  | cons w ws ih => simp [← ih]

theorem separated_concat (before : List (List Token)) (last : List Token) :
    separated (before ++ [last]) = before.flatMap (· ++ [Token.comma]) ++ last := by
  cases before with
  | nil => simp [separated]
  | cons first rest =>
      have hshift := congrArg (first ++ · ++ last) (comma_cons_flatMap rest)
      simpa [separated] using hshift.symm

/-- The words in the place of a name. -/
def Key.words : Key → List Token
  | .name s => [.string s]
  | .brokenName read passed => [.brokenString read passed]
  | .other t => [t]
  | .absent => []

namespace Tree

/-- The words of a tree. -/
def words : Tree → List Token
  | .null => [.null]
  | .bool b => [.bool b]
  | .number n => [.number n]
  | .string s => [.string s]
  | .array items _ => .openArray :: (separated (itemWords items) ++ [.closeArray])
  | .object members _ => .openObject :: (separated (memberWords members) ++ [.closeObject])
  | .brokenString read passed => [.brokenString read passed]
  | .broken read passed => [.broken read passed]
  | .missing => []
where
  itemWords : List Tree → List (List Token)
    | [] => []
    | t :: rest => t.words :: itemWords rest
  memberWords : List (Key × Tree) → List (List Token)
    | [] => []
    | (key, t) :: rest => (key.words ++ .colon :: t.words) :: memberWords rest

theorem itemWords_eq_map (items : List Tree) : words.itemWords items = items.map words := by
  induction items with
  | nil => rfl
  | cons t rest ih => rw [words.itemWords, ih, List.map_cons]

theorem memberWords_eq_map (members : List (Key × Tree)) :
    words.memberWords members = members.map fun m => m.1.words ++ .colon :: m.2.words := by
  induction members with
  | nil => rfl
  | cons m rest ih =>
      obtain ⟨key, t⟩ := m
      rw [words.memberWords, ih, List.map_cons]

/-! ## Trees in which nothing is wrong -/

/-- Nothing is wrong with the tree, as far as one sees who needs nothing of it. -/
def WellFormed (t : Tree) : Prop :=
  t.passOver = none

instance (t : Tree) : Decidable t.WellFormed :=
  inferInstanceAs (Decidable (t.passOver = none))

theorem passOverItems_eq_none_iff (items : List Tree) :
    passOver.passOverItems items = none ↔ ∀ t ∈ items, t.WellFormed := by
  induction items with
  | nil => simp [passOver.passOverItems]
  | cons t rest ih =>
      rw [passOver.passOverItems, Option.orElse_eq_none, ih, List.forall_mem_cons, WellFormed]

theorem passOverMembers_eq_none_iff (members : List (Key × Tree)) :
    passOver.passOverMembers members = none ↔
      ∀ m ∈ members, m.1.passedFault? = none ∧ m.2.WellFormed := by
  induction members with
  | nil => simp [passOver.passOverMembers]
  | cons m rest ih =>
      obtain ⟨key, t⟩ := m
      rw [passOver.passOverMembers, Option.orElse_eq_none, Option.orElse_eq_none, ih,
        List.forall_mem_cons, WellFormed, and_assoc]

theorem fault?_eq_none_iff (e : Ending) : e.fault? = none ↔ e = .closed := by
  cases e <;> simp [Ending.fault?]

theorem wellFormed_array_iff (items : List Tree) (e : Ending) :
    (Tree.array items e).WellFormed ↔ (∀ t ∈ items, t.WellFormed) ∧ e = .closed := by
  rw [WellFormed, passOver, Option.orElse_eq_none, passOverItems_eq_none_iff, fault?_eq_none_iff]

theorem wellFormed_object_iff (members : List (Key × Tree)) (e : Ending) :
    (Tree.object members e).WellFormed ↔
      (∀ m ∈ members, m.1.passedFault? = none ∧ m.2.WellFormed) ∧ e = .closed := by
  rw [WellFormed, passOver, Option.orElse_eq_none, passOverMembers_eq_none_iff,
    fault?_eq_none_iff]

end Tree

/-! ## From the words to the tree -/

/-- The first item of a list stands where any value may stand. -/
theorem step_firstItem {t : Tree} (h : t.WellFormed) (frames : List Frame) (rest : List Token) :
    (t.words ++ rest).foldl State.step (.firstItem frames) =
      (t.words ++ rest).foldl State.step (.value (.array [] :: frames)) := by
  cases t with
  | missing => exact absurd h (by simp [Tree.WellFormed, Tree.passOver])
  | _ => rfl

/-- A name of an object, in first place or behind a comma. -/
theorem stepKey_words {key : Key} (h : key.passedFault? = none) (members : List (Key × Tree))
    (frames : List Frame) :
    ∃ word, key.words = [word] ∧ word ≠ .closeObject ∧
      State.stepKey members frames word = .colon members key frames := by
  cases key with
  | name s => exact ⟨_, rfl, by simp, rfl⟩
  | brokenName read passed => exact ⟨_, rfl, by simp, rfl⟩
  | other t => exact absurd h (by simp [Key.passedFault?])
  | absent => exact absurd h (by simp [Key.passedFault?])

mutual

/-- Where a value is due, the words of a tree make the tree. -/
theorem foldl_step_words (t : Tree) (h : t.WellFormed) (frames : List Frame) :
    t.words.foldl State.step (.value frames) = State.settle t frames := by
  cases t with
  | null => rfl
  | bool b => rfl
  | number n => rfl
  | string s => rfl
  | brokenString read passed => rfl
  | broken read passed => rfl
  | missing => exact absurd h (by simp [Tree.WellFormed, Tree.passOver])
  | array items e =>
      obtain ⟨hitems, rfl⟩ := (Tree.wellFormed_array_iff items e).mp h
      cases items with
      | nil => rfl
      | cons t items =>
          obtain ⟨ht, hitems⟩ := List.forall_mem_cons.mp hitems
          -- the first item opens the frame, the others are appended to it one by one
          have hfirst := foldl_step_words t ht (.array [] :: frames)
          have hmore := foldl_step_items items hitems [t] frames
          show (t.words ++ (Tree.words.itemWords items).flatMap (Token.comma :: ·) ++
            [Token.closeArray]).foldl State.step (.firstItem frames) = _
          rw [List.append_assoc, step_firstItem ht, List.foldl_append, hfirst, List.foldl_append]
          show [Token.closeArray].foldl State.step
            (((Tree.words.itemWords items).flatMap (Token.comma :: ·)).foldl State.step
              (.afterItem [t] frames)) = _
          rw [hmore]
          show State.settle (.array _ .closed) frames = _
          simp
  | object members e =>
      obtain ⟨hmembers, rfl⟩ := (Tree.wellFormed_object_iff members e).mp h
      cases members with
      | nil => rfl
      | cons m members =>
          obtain ⟨key, t⟩ := m
          obtain ⟨⟨hkey, ht⟩, hmembers⟩ := List.forall_mem_cons.mp hmembers
          -- the name is already on the frame when its value begins
          obtain ⟨word, hword, hclose, hname⟩ := stepKey_words hkey [] frames
          have hfirst := foldl_step_words t ht (.object [] key :: frames)
          have hmore := foldl_step_members members hmembers [(key, t)] frames
          have hbegin : State.step (.firstKey frames) word = .colon [] key frames := by
            rw [← hname]
            cases word <;> first | rfl | exact absurd rfl hclose
          show (key.words ++ Token.colon :: t.words ++
            (Tree.words.memberWords members).flatMap (Token.comma :: ·) ++
            [Token.closeObject]).foldl State.step (.firstKey frames) = _
          rw [hword, List.append_assoc, List.foldl_append, List.foldl_append]
          show [Token.closeObject].foldl State.step
            (((Tree.words.memberWords members).flatMap (Token.comma :: ·)).foldl State.step
              (t.words.foldl State.step
                (State.step (State.step (.firstKey frames) word) .colon))) = _
          rw [hbegin]
          show [Token.closeObject].foldl State.step
            (((Tree.words.memberWords members).flatMap (Token.comma :: ·)).foldl State.step
              (t.words.foldl State.step (.value (.object [] key :: frames)))) = _
          rw [hfirst]
          show [Token.closeObject].foldl State.step
            (((Tree.words.memberWords members).flatMap (Token.comma :: ·)).foldl State.step
              (.afterMember [(key, t)] frames)) = _
          rw [hmore]
          show State.settle (.object _ .closed) frames = _
          simp

theorem foldl_step_items (items : List Tree) (h : ∀ t ∈ items, t.WellFormed)
    (before : List Tree) (frames : List Frame) :
    ((Tree.words.itemWords items).flatMap (Token.comma :: ·)).foldl State.step
      (.afterItem before frames) = .afterItem (items.reverse ++ before) frames := by
  cases items with
  | nil => rfl
  | cons t rest =>
      obtain ⟨ht, hrest⟩ := List.forall_mem_cons.mp h
      have hfirst := foldl_step_words t ht (.array before :: frames)
      have hmore := foldl_step_items rest hrest (t :: before) frames
      show (t.words ++ (Tree.words.itemWords rest).flatMap (Token.comma :: ·)).foldl State.step
        (.value (.array before :: frames)) = _
      rw [List.foldl_append, hfirst]
      show ((Tree.words.itemWords rest).flatMap (Token.comma :: ·)).foldl State.step
        (.afterItem (t :: before) frames) = _
      rw [hmore]
      simp

theorem foldl_step_members (members : List (Key × Tree))
    (h : ∀ m ∈ members, m.1.passedFault? = none ∧ m.2.WellFormed)
    (before : List (Key × Tree)) (frames : List Frame) :
    ((Tree.words.memberWords members).flatMap (Token.comma :: ·)).foldl State.step
      (.afterMember before frames) = .afterMember (members.reverse ++ before) frames := by
  cases members with
  | nil => rfl
  | cons m rest =>
      obtain ⟨key, t⟩ := m
      obtain ⟨⟨hkey, ht⟩, hrest⟩ := List.forall_mem_cons.mp h
      obtain ⟨word, hword, -, hname⟩ := stepKey_words hkey before frames
      have hfirst := foldl_step_words t ht (.object before key :: frames)
      have hmore := foldl_step_members rest hrest ((key, t) :: before) frames
      show (key.words ++ Token.colon :: t.words ++
        (Tree.words.memberWords rest).flatMap (Token.comma :: ·)).foldl State.step
        (.nextKey before frames) = _
      rw [hword, List.foldl_append]
      show ((Tree.words.memberWords rest).flatMap (Token.comma :: ·)).foldl State.step
        (t.words.foldl State.step
          (State.step (State.stepKey before frames word) .colon)) = _
      rw [hname]
      show ((Tree.words.memberWords rest).flatMap (Token.comma :: ·)).foldl State.step
        (t.words.foldl State.step (.value (.object before key :: frames))) = _
      rw [hfirst]
      show ((Tree.words.memberWords rest).flatMap (Token.comma :: ·)).foldl State.step
        (.afterMember ((key, t) :: before) frames) = _
      rw [hmore]
      simp

end

/-- The words of a tree make a document that holds the tree and nothing else. -/
theorem ofTokens_words {t : Tree} (h : t.WellFormed) : Document.ofTokens t.words = ⟨t, false⟩ := by
  unfold Document.ofTokens
  rw [foldl_step_words t h []]
  rfl

/-! ## From the tree to the words -/

/-- The words of the members, each with a comma behind it. -/
def passedMembers (members : List (Key × Tree)) : List Token :=
  (Tree.words.memberWords members.reverse).flatMap (· ++ [Token.comma])

/-- The words of the items, each with a comma behind it. -/
def passedItems (items : List Tree) : List Token :=
  (Tree.words.itemWords items.reverse).flatMap (· ++ [Token.comma])

/-- The words of the lists and objects that have begun, up to where a value is due. -/
def frameWords : List Frame → List Token
  | [] => []
  | .array items :: frames => frameWords frames ++ .openArray :: passedItems items
  | .object members key :: frames =>
      frameWords frames ++ .openObject :: (passedMembers members ++ key.words ++ [.colon])

/-- These words went into the tree under construction, unless something is wrong with it. -/
def State.Spells (ts : List Token) : State → Prop
  | value frames => ts = frameWords frames
  | firstItem frames => ts = frameWords frames ++ [.openArray]
  | firstKey frames => ts = frameWords frames ++ [.openObject]
  | nextKey members frames => ts = frameWords frames ++ .openObject :: passedMembers members
  | colon members key frames =>
      ts = frameWords frames ++ .openObject :: (passedMembers members ++ key.words)
  | afterItem items frames =>
      items ≠ [] ∧
        ts = frameWords frames ++ .openArray :: separated (Tree.words.itemWords items.reverse)
  | afterMember members frames =>
      members ≠ [] ∧
        ts = frameWords frames ++
          .openObject :: separated (Tree.words.memberWords members.reverse)
  | complete root more => more = false → root.WellFormed → ts = root.words

theorem separated_items (t : Tree) (items : List Tree) :
    separated (Tree.words.itemWords (t :: items).reverse) = passedItems items ++ t.words := by
  simp [passedItems, Tree.itemWords_eq_map, separated_concat]

theorem separated_members (key : Key) (t : Tree) (members : List (Key × Tree)) :
    separated (Tree.words.memberWords ((key, t) :: members).reverse) =
      passedMembers members ++ key.words ++ .colon :: t.words := by
  simp [passedMembers, Tree.memberWords_eq_map, separated_concat]

/-- With a comma behind the last item another one is due. -/
theorem passedItems_eq {items : List Tree} (h : items ≠ []) :
    passedItems items = separated (Tree.words.itemWords items.reverse) ++ [.comma] := by
  obtain ⟨t, rest, rfl⟩ := List.exists_cons_of_ne_nil h
  rw [separated_items]
  simp [passedItems, Tree.itemWords_eq_map]

theorem passedMembers_eq {members : List (Key × Tree)} (h : members ≠ []) :
    passedMembers members = separated (Tree.words.memberWords members.reverse) ++ [.comma] := by
  obtain ⟨⟨key, t⟩, rest, rfl⟩ := List.exists_cons_of_ne_nil h
  rw [separated_members]
  simp [passedMembers, Tree.memberWords_eq_map]

/-- A value in its place is spelled by its own words. -/
theorem spells_settle (t : Tree) (frames : List Frame) :
    (State.settle t frames).Spells (frameWords frames ++ t.words) := by
  cases frames with
  | nil =>
      intro _ _
      rfl
  | cons frame frames =>
      cases frame with
      | array items =>
          refine ⟨List.cons_ne_nil t items, ?_⟩
          rw [separated_items, frameWords]
          simp
      | object members key =>
          refine ⟨List.cons_ne_nil (key, t) members, ?_⟩
          rw [separated_members, frameWords]
          simp

/-- A list or an object that goes no further is not well-formed, and nor is what surrounds it. -/
theorem not_wellFormed_collapse {t : Tree} (h : ¬ t.WellFormed) (frames : List Frame) :
    ¬ (collapse t frames).WellFormed := by
  induction frames generalizing t with
  | nil => exact h
  | cons frame frames ih =>
      cases frame with
      | array items =>
          refine ih ?_
          rw [Tree.wellFormed_array_iff]
          rintro ⟨-, hend⟩
          cases hend
      | object members key =>
          refine ih ?_
          rw [Tree.wellFormed_object_iff]
          rintro ⟨-, hend⟩
          cases hend

theorem not_wellFormed_misplaced : ¬ Tree.misplaced.WellFormed := by
  simp [Tree.WellFormed, Tree.misplaced, Tree.passOver]

theorem not_wellFormed_missing : ¬ Tree.missing.WellFormed := by
  simp [Tree.WellFormed, Tree.passOver]

theorem not_wellFormed_array {items : List Tree} {e : Ending} (h : e ≠ .closed) :
    ¬ (Tree.array items e).WellFormed :=
  fun hwell => h ((Tree.wellFormed_array_iff items e).mp hwell).2

theorem not_wellFormed_object {members : List (Key × Tree)} {e : Ending} (h : e ≠ .closed) :
    ¬ (Tree.object members e).WellFormed :=
  fun hwell => h ((Tree.wellFormed_object_iff members e).mp hwell).2

/-- Where the tree goes no further something is wrong with it, whatever its words are. -/
theorem spells_breakOff {t : Tree} (h : ¬ t.WellFormed) (frames : List Frame)
    (ts : List Token) : (State.breakOff t frames).Spells ts :=
  fun _ hwell => absurd hwell (not_wellFormed_collapse h frames)

theorem spells_stepValue (frames : List Frame) (w : Token) :
    (State.stepValue frames w).Spells (frameWords frames ++ [w]) := by
  cases w with
  | openObject => rfl
  | openArray => rfl
  | null => exact spells_settle .null frames
  | bool b => exact spells_settle (.bool b) frames
  | number n => exact spells_settle (.number n) frames
  | string s => exact spells_settle (.string s) frames
  | brokenString read passed => exact spells_settle (.brokenString read passed) frames
  | broken read passed => exact spells_settle (.broken read passed) frames
  | closeObject => exact spells_breakOff not_wellFormed_misplaced frames _
  | closeArray => exact spells_breakOff not_wellFormed_misplaced frames _
  | colon => exact spells_breakOff not_wellFormed_misplaced frames _
  | comma => exact spells_breakOff not_wellFormed_misplaced frames _

theorem spells_stepKey (members : List (Key × Tree)) (frames : List Frame) (w : Token) :
    (State.stepKey members frames w).Spells
      (frameWords frames ++ .openObject :: (passedMembers members ++ [w])) := by
  cases w with
  | string s => rfl
  | brokenString read passed => rfl
  | _ => exact spells_breakOff (not_wellFormed_object (by simp)) frames _

/-- One word more is spelled by the words so far and this one. -/
theorem spells_step {s : State} {ts : List Token} (h : s.Spells ts) (w : Token) :
    (s.step w).Spells (ts ++ [w]) := by
  cases s with
  | value frames =>
      obtain rfl : ts = frameWords frames := h
      exact spells_stepValue frames w
  | firstItem frames =>
      obtain rfl : ts = frameWords frames ++ [Token.openArray] := h
      have hvalue := spells_stepValue (.array [] :: frames) w
      have hempty := spells_settle (.array [] .closed) frames
      cases w with
      | closeArray =>
          rw [List.append_assoc]
          exact hempty
      | _ => exact hvalue
  | firstKey frames =>
      obtain rfl : ts = frameWords frames ++ [Token.openObject] := h
      have hkey := spells_stepKey [] frames w
      have hempty := spells_settle (.object [] .closed) frames
      rw [List.append_assoc]
      cases w with
      | closeObject => exact hempty
      | _ => exact hkey
  | nextKey members frames =>
      obtain rfl : ts = frameWords frames ++ .openObject :: passedMembers members := h
      rw [List.append_assoc]
      exact spells_stepKey members frames w
  | colon members key frames =>
      obtain rfl :
        ts = frameWords frames ++ .openObject :: (passedMembers members ++ key.words) := h
      cases w with
      | colon =>
          show _ = frameWords (.object members key :: frames)
          simp [frameWords]
      | _ => exact spells_breakOff (not_wellFormed_object (by simp)) frames _
  | afterItem items frames =>
      obtain ⟨hitems, rfl⟩ := h
      have hclosed := spells_settle (.array items.reverse .closed) frames
      cases w with
      | comma =>
          show _ = frameWords (.array items :: frames)
          rw [frameWords, passedItems_eq hitems]
          simp
      | closeArray =>
          rw [List.append_assoc]
          exact hclosed
      | _ => exact spells_breakOff (not_wellFormed_array (by simp)) frames _
  | afterMember members frames =>
      obtain ⟨hmembers, rfl⟩ := h
      have hclosed := spells_settle (.object members.reverse .closed) frames
      cases w with
      | comma =>
          show _ = frameWords frames ++ .openObject :: passedMembers members
          rw [passedMembers_eq hmembers]
          simp
      | closeObject =>
          rw [List.append_assoc]
          exact hclosed
      | _ => exact spells_breakOff (not_wellFormed_object (by simp)) frames _
  | complete root more =>
      intro hmore
      cases hmore

theorem spells_foldl (ts : List Token) {s : State} {before : List Token} (h : s.Spells before) :
    (ts.foldl State.step s).Spells (before ++ ts) := by
  induction ts generalizing s before with
  | nil => simpa using h
  | cons w ts ih =>
      have hnext := ih (spells_step h w)
      rwa [List.append_assoc] at hnext

/-- A tree that the end of the text leaves without fault is complete. -/
theorem words_of_atEnd {s : State} {ts : List Token} (h : s.Spells ts) {t : Tree}
    (hend : s.atEnd = (t, false)) (hwell : t.WellFormed) : ts = t.words := by
  cases s with
  | complete root more =>
      obtain ⟨rfl, rfl⟩ := Prod.mk.inj hend
      exact h rfl hwell
  | value frames =>
      obtain ⟨rfl, -⟩ := Prod.mk.inj hend
      exact absurd hwell (not_wellFormed_collapse not_wellFormed_missing frames)
  | firstItem frames | afterItem items frames =>
      obtain ⟨rfl, -⟩ := Prod.mk.inj hend
      exact absurd hwell (not_wellFormed_collapse (not_wellFormed_array (by simp)) frames)
  | firstKey frames | nextKey members frames | colon members key frames
  | afterMember members frames =>
      obtain ⟨rfl, -⟩ := Prod.mk.inj hend
      exact absurd hwell (not_wellFormed_collapse (not_wellFormed_object (by simp)) frames)

/-- A document in which nothing is wrong has the words of its tree. -/
theorem words_of_ofTokens {ts : List Token} {t : Tree} (h : Document.ofTokens ts = ⟨t, false⟩)
    (hwell : t.WellFormed) : ts = t.words := by
  have hspells : (ts.foldl State.step (.value [])).Spells ([] ++ ts) :=
    spells_foldl ts (s := .value []) rfl
  refine words_of_atEnd hspells ?_ hwell
  unfold Document.ofTokens at h
  obtain ⟨hroot, hmore⟩ := Document.mk.inj h
  exact Prod.ext hroot hmore

/-- Words and trees in which nothing is wrong belong to each other one to one. -/
theorem ofTokens_eq_iff {ts : List Token} {t : Tree} (hwell : t.WellFormed) :
    Document.ofTokens ts = ⟨t, false⟩ ↔ ts = t.words := by
  constructor
  · intro h
    exact words_of_ofTokens h hwell
  · rintro rfl
    exact ofTokens_words hwell

/-! ## Sound words -/

/-- Nothing is wrong with the word, as far as one sees who passes it over. -/
def Token.Sound : Token → Prop
  | .brokenString _ passed => passed = none
  | .broken _ passed => passed = none
  | _ => True

theorem sound_separated {ws : List (List Token)} (h : ∀ us ∈ ws, ∀ w ∈ us, w.Sound) :
    ∀ w ∈ separated ws, w.Sound := by
  cases ws with
  | nil => simp [separated]
  | cons first rest =>
      obtain ⟨hfirst, hrest⟩ := List.forall_mem_cons.mp h
      intro w hw
      rcases List.mem_append.mp hw with hw | hw
      · exact hfirst w hw
      obtain ⟨us, hus, hw⟩ := List.mem_flatMap.mp hw
      rcases List.mem_cons.mp hw with rfl | hw
      · exact trivial
      · exact hrest us hus w hw

theorem sound_keyWords {key : Key} (h : key.passedFault? = none) : ∀ w ∈ key.words, w.Sound := by
  cases key with
  | name s => simp [Key.words, Token.Sound]
  | brokenName read passed => exact List.forall_mem_singleton.mpr h
  | other t => exact absurd h (by simp [Key.passedFault?])
  | absent => simp [Key.words]

/-- Words between brackets. -/
theorem sound_bracketed {first last : Token} {ws : List Token} (hfirst : first.Sound)
    (hws : ∀ w ∈ ws, w.Sound) (hlast : last.Sound) :
    ∀ w ∈ first :: (ws ++ [last]), w.Sound := by
  intro w hw
  rcases List.mem_cons.mp hw with rfl | hw
  · exact hfirst
  rcases List.mem_append.mp hw with hw | hw
  · exact hws w hw
  · rw [List.mem_singleton.mp hw]
    exact hlast

mutual

theorem sound_words (t : Tree) (h : t.WellFormed) : ∀ w ∈ t.words, w.Sound := by
  cases t with
  | array items e =>
      have hitems := sound_itemWords items ((Tree.wellFormed_array_iff items e).mp h).1
      exact sound_bracketed trivial (sound_separated hitems) trivial
  | object members e =>
      have hmembers := sound_memberWords members ((Tree.wellFormed_object_iff members e).mp h).1
      exact sound_bracketed trivial (sound_separated hmembers) trivial
  | brokenString read passed => exact List.forall_mem_singleton.mpr h
  | broken read passed => exact List.forall_mem_singleton.mpr h
  | missing => simp [Tree.words]
  | _ => simp [Tree.words, Token.Sound]

theorem sound_itemWords (items : List Tree) (h : ∀ t ∈ items, t.WellFormed) :
    ∀ us ∈ Tree.words.itemWords items, ∀ w ∈ us, w.Sound := by
  cases items with
  | nil => simp [Tree.words.itemWords]
  | cons t rest =>
      obtain ⟨ht, hrest⟩ := List.forall_mem_cons.mp h
      exact List.forall_mem_cons.mpr ⟨sound_words t ht, sound_itemWords rest hrest⟩

theorem sound_memberWords (members : List (Key × Tree))
    (h : ∀ m ∈ members, m.1.passedFault? = none ∧ m.2.WellFormed) :
    ∀ us ∈ Tree.words.memberWords members, ∀ w ∈ us, w.Sound := by
  cases members with
  | nil => simp [Tree.words.memberWords]
  | cons m rest =>
      obtain ⟨key, t⟩ := m
      obtain ⟨⟨hkey, ht⟩, hrest⟩ := List.forall_mem_cons.mp h
      refine List.forall_mem_cons.mpr ⟨?_, sound_memberWords rest hrest⟩
      intro w hw
      rcases List.mem_append.mp hw with hw | hw
      · exact sound_keyWords hkey w hw
      rcases List.mem_cons.mp hw with rfl | hw
      · exact trivial
      · exact sound_words t ht w hw

end

/-! ## Numerals side by side -/

/-- A number, or a word that is neither a string nor a mark and cannot be read. -/
def Token.Numeral : Token → Prop
  | .number _ => True
  | .broken _ _ => True
  | _ => False

/-- Whatever words follow, something is wrong with the document. -/
def State.Doomed (s : State) : Prop :=
  ∃ root more, s = .complete root more ∧ (more = true ∨ ¬ root.WellFormed)

theorem doomed_breakOff {t : Tree} (h : ¬ t.WellFormed) (frames : List Frame) :
    (State.breakOff t frames).Doomed :=
  ⟨_, _, rfl, Or.inr (not_wellFormed_collapse h frames)⟩

theorem doomed_step {s : State} (h : s.Doomed) (w : Token) : (s.step w).Doomed := by
  obtain ⟨root, more, rfl, -⟩ := h
  exact ⟨root, true, rfl, Or.inl rfl⟩

theorem doomed_foldl (ts : List Token) {s : State} (h : s.Doomed) :
    (ts.foldl State.step s).Doomed := by
  induction ts generalizing s with
  | nil => exact h
  | cons w ts ih => exact ih (doomed_step h w)

/-- Behind a value stands no numeral. -/
theorem doomed_step_settle (t : Tree) (frames : List Frame) {w : Token} (hw : w.Numeral) :
    ((State.settle t frames).step w).Doomed := by
  cases frames with
  | nil => exact ⟨t, true, rfl, Or.inl rfl⟩
  | cons frame frames =>
      cases frame with
      | array items =>
          cases w with
          | number n | broken read passed =>
              exact doomed_breakOff (not_wellFormed_array (by simp)) frames
          | _ => exact hw.elim
      | object members key =>
          cases w with
          | number n | broken read passed =>
              exact doomed_breakOff (not_wellFormed_object (by simp)) frames
          | _ => exact hw.elim

/-- A numeral is a value in its place, or out of place. -/
theorem step_numeral (s : State) {w : Token} (hw : w.Numeral) :
    (s.step w).Doomed ∨ ∃ t frames, s.step w = State.settle t frames := by
  cases w with
  | number n | broken read passed =>
      cases s with
      | value frames => exact Or.inr ⟨_, frames, rfl⟩
      | firstItem frames => exact Or.inr ⟨_, .array [] :: frames, rfl⟩
      | firstKey frames | nextKey members frames | colon members key frames
      | afterMember members frames =>
          exact Or.inl (doomed_breakOff (not_wellFormed_object (by simp)) frames)
      | afterItem items frames =>
          exact Or.inl (doomed_breakOff (not_wellFormed_array (by simp)) frames)
      | complete root more => exact Or.inl ⟨root, true, rfl, Or.inl rfl⟩
  | _ => exact hw.elim

/-- In a document in which nothing is wrong no numeral follows another. -/
theorem not_adjacent_numerals {us vs : List Token} {v w : Token} (hv : v.Numeral)
    (hw : w.Numeral) {t : Tree} (hdoc : Document.ofTokens (us ++ v :: w :: vs) = ⟨t, false⟩) :
    ¬ t.WellFormed := by
  have hdoomed : ((us ++ v :: w :: vs).foldl State.step (.value [])).Doomed := by
    rw [List.foldl_append]
    refine doomed_foldl vs ?_
    rcases step_numeral (us.foldl State.step (.value [])) hv with hfirst | ⟨t, frames, hfirst⟩
    · exact doomed_step hfirst w
    · show (State.step (State.step _ v) w).Doomed
      rw [hfirst]
      exact doomed_step_settle t frames hw
  obtain ⟨root, more, hstate, hwrong⟩ := hdoomed
  unfold Document.ofTokens at hdoc
  rw [hstate] at hdoc
  obtain ⟨rfl, rfl⟩ := Document.mk.inj hdoc
  exact hwrong.resolve_left (by simp)

end Json
end PacketPolicy
