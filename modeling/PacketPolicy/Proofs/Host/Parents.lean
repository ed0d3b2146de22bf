import PacketPolicy.Proofs.Host.Files
import PacketPolicy.Text.Clip

/-!
# Directories that are created on the way to a file

Before a file is opened, the directory in which it is to stand is created, and those in which that
directory stands, as far as they are missing.

* `Rooted` -- whatever stands in a tree stands in a directory;
* `Made` -- what is missing on a way has been created, and nothing else has changed;
* `walk_concat`, `makeDirectory_eq` -- one more name, followed and created;
* `Ends`, `ends_makeDirectories` -- what can come of creating the directories on a way;
* `ensureParent_again` -- the same comes of it when it is tried again;
* `parents_made_or_left` -- so either the whole way is there afterwards, or nothing was created but
  what stands in front of a name that is too long;
* `long_names_leave_directories` -- which happens.
-/

namespace PacketPolicy
namespace Host

/-! ## Names in paths -/

theorem not_back_of_concat {outer : List String} {name : String} (h : back ∉ outer ++ [name]) :
    back ∉ outer :=
  fun hback => h (List.mem_append_left _ hback)

theorem last_ne_back {outer : List String} {name : String} (h : back ∉ outer ++ [name]) :
    name ≠ back := by
  rintro rfl
  exact h (List.mem_append_right _ List.mem_cons_self)

theorem intercalate_ne_empty {pieces : List String} {piece : String} (hmem : piece ∈ pieces)
    (hpiece : piece ≠ "") : "/".intercalate pieces ≠ "" := by
  cases pieces with
  | nil => cases hmem
  | cons first rest =>
      cases rest with
      | nil =>
          rw [String.intercalate_singleton]
          rwa [← List.mem_singleton.mp hmem]
      | cons other rest =>
          rw [String.intercalate_cons_cons]
          intro hempty
          simp at hempty

theorem exists_mem_piecesUpTo {pieces : List String} {piece : String} (hmem : piece ∈ pieces)
    (hpiece : piece ≠ "") (hdot : piece ≠ ".") (n : Nat) :
    ∃ part ∈ Path.piecesUpTo (n + 1) pieces, part ≠ "" := by
  induction pieces with
  | nil => cases hmem
  | cons first rest ih =>
      unfold Path.piecesUpTo
      split
      · -- the first piece names nothing, so the other one stands behind it
        rename_i hfirst
        have hrest : piece ∈ rest := by
          rcases List.mem_cons.mp hmem with rfl | hrest
          · exact absurd hfirst (by simp [hpiece, hdot])
          · exact hrest
        obtain ⟨part, hpart, hne⟩ := ih hrest
        exact ⟨part, List.mem_cons_of_mem _ hpart, hne⟩
      · rename_i hfirst
        exact ⟨first, List.mem_cons_self, fun hempty => hfirst (Or.inl hempty)⟩

/-- The beginnings of a path with names in it that end with a name are not empty. -/
theorem upTo_ne_empty {path : String} (h : (Path.ofString path).names ≠ []) (n : Nat) :
    Path.upTo path (n + 1) ≠ "" := by
  obtain ⟨name, rest, hnames⟩ := List.exists_cons_of_ne_nil h
  have hmem : name ∈ (Path.ofString path).names := by rw [hnames]; exact List.mem_cons_self
  obtain ⟨hpart, hdot⟩ := List.mem_filter.mp hmem
  obtain ⟨hpiece, hempty⟩ := List.mem_filter.mp hpart
  obtain ⟨part, hmem, hne⟩ := exists_mem_piecesUpTo hpiece (by simpa using hempty)
    (by simpa using hdot) n
  exact intercalate_ne_empty hmem hne

theorem fault?_ne_notFound {s : String} (h : s ≠ "") : fault? s ≠ some .notFound := by
  unfold fault?
  rw [if_neg h]
  split
  · simp
  · split <;> simp

namespace Tree

variable {β : Type} {t u : Tree β} {base q : Location} {outer inner names : List String}
  {name path : String} {fault : Fault}

/-! ## Trees and ways in them -/

/-- Whatever stands in the tree stands in a directory. -/
def Rooted (t : Tree β) : Prop :=
  ∀ p name, (t.find? (p ++ [name])).isSome → ∃ mode, t.find? p = some (.directory mode)

theorem rooted_of_nodes
    (h : ∀ n ∈ t.nodes, ∃ mode, t.find? n.1.dropLast = some (.directory mode)) : t.Rooted := by
  intro p name hthere
  rw [find?_of_ne_nil _ (by simp), Option.isSome_map] at hthere
  obtain ⟨n, hn⟩ := Option.isSome_iff_exists.mp hthere
  have hplace : n.1 = p ++ [name] := by simpa using List.find?_some hn
  have hdirectory := h n (List.mem_of_find?_eq_some hn)
  rwa [hplace, List.dropLast_concat] at hdirectory

/-- Below a place where nothing stands there is nothing. -/
theorem Rooted.find?_below (ht : t.Rooted) (h : t.find? q = none) (names : List String) :
    t.find? (q ++ names) = none := by
  induction names generalizing q with
  | nil => rwa [List.append_nil]
  | cons name rest ih =>
      rw [← List.singleton_append, ← List.append_assoc]
      refine ih ?_
      cases hfind : t.find? (q ++ [name]) with
      | none => rfl
      | some n =>
          obtain ⟨mode, hdirectory⟩ := ht q name (by rw [hfind]; rfl)
          rw [h] at hdirectory
          cases hdirectory

/-- The places to which names lead one after another, from `base` on. -/
def OnWay (base : Location) (names : List String) (q : Location) : Prop :=
  ∃ inner, inner ≠ [] ∧ inner <+: names ∧ q = base ++ inner

theorem onWay_concat :
    OnWay base (outer ++ [name]) q ↔ OnWay base outer q ∨ q = base ++ (outer ++ [name]) := by
  constructor
  · rintro ⟨inner, hne, hprefix, rfl⟩
    rcases List.prefix_concat_iff.mp hprefix with rfl | hprefix
    · exact Or.inr rfl
    · exact Or.inl ⟨inner, hne, hprefix, rfl⟩
  · rintro (⟨inner, hne, hprefix, rfl⟩ | rfl)
    · exact ⟨inner, hne, hprefix.trans (List.prefix_append _ _), rfl⟩
    · exact ⟨outer ++ [name], by simp, List.prefix_rfl, rfl⟩

theorem not_onWay_concat : ¬ OnWay base outer (base ++ (outer ++ [name])) := by
  rintro ⟨inner, -, hprefix, heq⟩
  rw [← List.append_cancel_left heq] at hprefix
  have hlength := hprefix.length_le
  rw [List.length_append, List.length_singleton] at hlength
  omega

/-- What is missing on the way has been created, as private directories, and nothing else has
changed. -/
structure Made (t u : Tree β) (base : Location) (names : List String) : Prop where
  created : ∀ q, OnWay base names q → t.find? q = none →
    u.find? q = some (.directory privateDirectory)
  kept : ∀ q, (OnWay base names q → t.find? q ≠ none) → u.find? q = t.find? q

theorem made_self (h : ∀ q, OnWay base names q → t.find? q ≠ none) : t.Made t base names :=
  ⟨fun q hq hmissing => absurd hmissing (h q hq), fun _ _ => rfl⟩

theorem made_nil : t.Made t base [] := by
  refine made_self fun q hq => ?_
  obtain ⟨inner, hne, hprefix, -⟩ := hq
  exact absurd (List.prefix_nil.mp hprefix) hne

/-- What was there before is as it was. -/
theorem Made.find?_of_some {n : Node β} (h : t.Made u base names) (hq : t.find? q = some n) :
    u.find? q = some n := by
  rw [h.kept q fun _ => by rw [hq]; exact Option.some_ne_none n, hq]

/-- One more directory, behind those that have been created. -/
theorem Made.concat (h : t.Made u base outer)
    (hmissing : t.find? (base ++ (outer ++ [name])) = none) :
    t.Made (u.add (base ++ (outer ++ [name])) (.directory privateDirectory)) base
      (outer ++ [name]) := by
  have hfree : u.find? (base ++ (outer ++ [name])) = none := by
    rw [h.kept _ fun hway => absurd hway not_onWay_concat, hmissing]
  have hplace : base ++ (outer ++ [name]) ≠ [] := by simp
  constructor
  · intro q hq hnone
    rw [find?_add _ hplace hfree]
    split
    · rfl
    · rename_i hne
      exact h.created q ((onWay_concat.mp hq).resolve_right hne) hnone
  · intro q hq
    have hne : q ≠ base ++ (outer ++ [name]) := by
      rintro rfl
      exact hq (onWay_concat.mpr (Or.inr rfl)) hmissing
    rw [find?_add _ hplace hfree, if_neg hne]
    exact h.kept q fun hway => hq (onWay_concat.mpr (Or.inl hway))

/-! ## Following names -/

theorem walk_concat (hback : name ≠ back) :
    t.walk base (outer ++ [name]) =
      t.walk base outer >>= fun q => t.needDirectory q >>= fun _ =>
        if isTooLong name then .error .nameTooLong else .ok (q ++ [name]) := by
  rw [walk_append]
  congr 1
  funext q
  simp only [walk, if_neg hback]

/-- Names that only lead on lead to the place that they name. -/
theorem eq_of_walk (hback : back ∉ names) (h : t.walk base names = .ok q) : q = base ++ names := by
  induction names generalizing base with
  | nil => simpa [walk] using h.symm
  | cons name rest ih =>
      obtain ⟨hname, hrest⟩ := List.ne_and_not_mem_of_not_mem_cons hback
      simp only [walk] at h
      obtain ⟨_, -, h⟩ := bind_eq_ok_iff.mp h
      rw [if_neg (Ne.symm hname)] at h
      split at h
      · cases h
      · rw [ih hrest h, List.append_assoc, List.singleton_append]

/-- Where names can be followed, directories stand all the way up to the last place. -/
theorem there_of_walk (hback : back ∉ outer ++ [name]) (h : t.walk base (outer ++ [name]) = .ok q)
    {p : Location} (hp : OnWay base outer p) : t.find? p ≠ none := by
  obtain ⟨inner, -, ⟨others, rfl⟩, rfl⟩ := hp
  rw [List.append_assoc, walk_append] at h
  obtain ⟨r, hinner, hothers⟩ := bind_eq_ok_iff.mp h
  have hr : r = base ++ inner := eq_of_walk (fun hmem => hback (by simp [hmem])) hinner
  -- the names behind the place start with one that is looked for in a directory
  obtain ⟨next, more, hnext⟩ := List.exists_cons_of_ne_nil (by simp : others ++ [name] ≠ [])
  rw [hnext] at hothers
  simp only [walk] at hothers
  obtain ⟨_, hneed, -⟩ := bind_eq_ok_iff.mp hothers
  obtain ⟨mode, hdirectory⟩ := needDirectory_eq_ok_iff.mp hneed
  rw [← hr, hdirectory]
  simp

theorem made_of_walk (hback : back ∉ (outer ++ [name]))
    (h : t.walk base (outer ++ [name]) = .ok q) : t.Made t base outer :=
  made_self fun _ hp => there_of_walk hback h hp

/-- The way to the last place leads through the directory in front of it. -/
theorem front_of_walk (hback : back ∉ (outer ++ [name]))
    (h : t.walk base (outer ++ [name]) = .ok q) :
    t.walk base outer = .ok (base ++ outer) ∧ t.needDirectory (base ++ outer) = .ok () := by
  rw [walk_concat (last_ne_back hback)] at h
  obtain ⟨r, hfront, h⟩ := bind_eq_ok_iff.mp h
  obtain ⟨_, hneed, -⟩ := bind_eq_ok_iff.mp h
  obtain rfl := eq_of_walk (not_back_of_concat hback) hfront
  exact ⟨hfront, hneed⟩

/-- Names that cannot be followed because something is missing name a place below it. -/
theorem missing_of_walk (ht : t.Rooted) (hback : back ∉ names)
    (h : t.walk base names = .error .notFound) : t.find? (base ++ names) = none := by
  induction names generalizing base with
  | nil => cases h
  | cons name rest ih =>
      obtain ⟨hname, hrest⟩ := List.ne_and_not_mem_of_not_mem_cons hback
      simp only [walk] at h
      rcases bind_eq_error_iff.mp h with hneed | ⟨_, -, h⟩
      · unfold needDirectory at hneed
        split at hneed <;> cases hneed
        rename_i hmissing
        exact ht.find?_below hmissing _
      · rw [if_neg (Ne.symm hname)] at h
        split at h
        · cases h
        · have hbelow := ih hrest h
          rwa [List.append_assoc, List.singleton_append] at hbelow

theorem standing?_eq_some_iff {n : Node β} :
    t.standing? base path names = some n ↔
      fault? path = none ∧ ∃ q, t.walk base names = .ok q ∧ t.find? q = some n := by
  unfold standing?
  cases fault? path <;> cases t.walk base names <;> simp

theorem standing?_of_walk_error (h : t.walk base names = .error fault) :
    t.standing? base path names = none := by
  unfold standing?
  rw [h]
  split
  · rename_i heq
    cases heq
  · rfl

theorem standing?_of_fault (h : fault? path = some fault) :
    t.standing? base path names = none := by
  unfold standing?
  rw [h]

/-- Where something stands in the place that names lead to, nothing is missing on the way. -/
theorem made_of_standing {n : Node β} (hback : back ∉ names)
    (h : t.standing? base path names = some n) : t.Made t base names := by
  obtain ⟨-, q, hwalk, hfind⟩ := standing?_eq_some_iff.mp h
  obtain rfl := eq_of_walk hback hwalk
  rcases List.eq_nil_or_concat' names with rfl | ⟨outer, name, rfl⟩
  · exact made_nil
  refine made_self fun p hp => ?_
  rcases onWay_concat.mp hp with hfront | rfl
  · exact there_of_walk hback hwalk hfront
  · rw [hfind]
    exact Option.some_ne_none _

/-- What is put where nothing stands takes the place of no directory. -/
theorem keepsDirectories_add (n : Node β) (hq : q ≠ []) (hfree : t.find? q = none) :
    KeepsDirectories t (t.add q n) := by
  intro r hr
  obtain ⟨mode, hdirectory⟩ := needDirectory_eq_ok_iff.mp hr
  refine needDirectory_eq_ok_iff.mpr ⟨mode, ?_⟩
  rw [find?_add _ hq hfree, if_neg, hdirectory]
  rintro rfl
  rw [hfree] at hdirectory
  cases hdirectory

/-! ## Creating directories -/

/-- A directory is created where its name leads, unless something stands there. -/
theorem makeDirectory_eq (t : Tree β) (base : Location) (hfault : fault? path = none)
    (hback : name ≠ back) :
    t.makeDirectory base path outer name = t.walk base (outer ++ [name]) >>= fun q =>
      if (t.find? q).isSome then .error .alreadyThere
      else .ok (t.add q (.directory privateDirectory)) := by
  rw [walk_concat hback]
  unfold makeDirectory walkInto
  rw [hfault]
  cases t.walk base outer with
  | error fault => rfl
  | ok q =>
      simp only [bind, Except.bind, pure, Except.pure]
      cases t.needDirectory q with
      | error fault => rfl
      | ok _ =>
          show (if name = back then _ else _) = _
          rw [if_neg hback]
          cases isTooLong name <;> rfl

theorem makeDirectory_of_fault (h : fault? path = some fault) :
    t.makeDirectory base path outer name = .error fault := by
  unfold makeDirectory
  rw [h]
  rfl

/-- Where the directory in front is missing, that one is created before. -/
theorem makeDirectories_of_notFound {text : String}
    (htext : Path.upTo path (outer.length + 1) = text)
    (h : t.makeDirectory base text outer.reverse name = .error .notFound) :
    t.makeDirectories base path (name :: outer) =
      match t.makeDirectories base path outer with
      | (.ok (), u) =>
          u.settled base text (outer.reverse ++ [name])
            (u.makeDirectory base text outer.reverse name)
      | (.error fault, u) => (.error fault, u) := by
  cases hfront : t.makeDirectories base path outer with
  | mk result u =>
      cases result <;> simp only [makeDirectories, htext, h, hfront, List.reverse_cons]

/-- Otherwise the first attempt decides. -/
theorem makeDirectories_of_attempt {text : String} {attempt : Except Fault (Tree β)}
    (htext : Path.upTo path (outer.length + 1) = text)
    (h : t.makeDirectory base text outer.reverse name = attempt)
    (hne : attempt ≠ .error .notFound) :
    t.makeDirectories base path (name :: outer) =
      t.settled base text (outer.reverse ++ [name]) attempt := by
  rw [makeDirectories, htext, h, List.reverse_cons]
  split
  · exact absurd rfl hne
  · rfl

theorem makeDirectories_of_error {text : String}
    (htext : Path.upTo path (outer.length + 1) = text)
    (h : t.makeDirectory base text outer.reverse name = .error fault) (hne : fault ≠ .notFound)
    (hstanding : t.standing? base text (outer.reverse ++ [name]) = none) :
    t.makeDirectories base path (name :: outer) = (.error fault, t) := by
  rw [makeDirectories_of_attempt htext h fun heq => hne (Except.error.inj heq)]
  unfold settled
  rw [hstanding]

/-- Names that cannot be followed for another reason than that something is missing cannot be
created either. -/
theorem makeDirectories_of_walk_error {text : String}
    (htext : Path.upTo path (outer.length + 1) = text)
    (hback : back ∉ (outer.reverse ++ [name])) (hfault : fault? text = none)
    (hne : fault ≠ .notFound) (h : t.walk base (outer.reverse ++ [name]) = .error fault) :
    t.makeDirectories base path (name :: outer) = (.error fault, t) := by
  refine makeDirectories_of_error htext ?_ hne (standing?_of_walk_error h)
  rw [makeDirectory_eq t base hfault (last_ne_back hback), h]
  rfl

/-- What can come of creating the directories on a way, the path of which is `text`: they are
there, or nothing has changed, or those in front of a name that is too long are there. -/
inductive Ends (t : Tree β) (base : Location) (text : String) (names : List String) :
    Except Fault Unit × Tree β → Prop where
  | made {u : Tree β} (h : t.Made u base names)
      (hthere : names ≠ [] → ∃ mode, u.standing? base text names = some (.directory mode)) :
      Ends t base text names (.ok (), u)
  | left (fault : Fault) : Ends t base text names (.error fault, t)
  | stopped {u : Tree β} (before : List String) (long : String) (after : List String)
      (hnames : names = before ++ long :: after) (hlong : isTooLong long = true)
      (h : t.Made u base before) (hfault : fault? text = none)
      (hwalk : u.walk base names = .error .nameTooLong) :
      Ends t base text names (.error .nameTooLong, u)

variable {text : String}

/-- The last directory, once those in front of it are there. -/
theorem ends_last (hback : back ∉ (outer ++ [name])) (hfault : fault? text = none)
    (h : t.Made u base outer) (hwalk : u.walk base outer = .ok (base ++ outer))
    (hneed : u.needDirectory (base ++ outer) = .ok ())
    (hmissing : t.find? (base ++ (outer ++ [name])) = none) :
    t.Ends base text (outer ++ [name])
      (u.settled base text (outer ++ [name]) (u.makeDirectory base text outer name)) := by
  have hway : u.walk base (outer ++ [name]) =
      if isTooLong name then .error .nameTooLong else .ok (base ++ (outer ++ [name])) := by
    rw [walk_concat (last_ne_back hback), hwalk, ← List.append_assoc]
    simp only [bind, Except.bind, hneed]
  rw [makeDirectory_eq u base hfault (last_ne_back hback)]
  cases hlong : isTooLong name with
  | true =>
      rw [hlong, if_pos rfl] at hway
      rw [hway]
      show t.Ends base text _ (u.settled base text _ (.error .nameTooLong))
      unfold settled
      rw [standing?_of_walk_error hway]
      exact .stopped outer name [] rfl hlong h hfault hway
  | false =>
      rw [hlong, if_neg Bool.false_ne_true] at hway
      have hfree : u.find? (base ++ (outer ++ [name])) = none := by
        rw [h.kept _ fun hmem => absurd hmem not_onWay_concat, hmissing]
      have hplace : base ++ (outer ++ [name]) ≠ [] := by simp
      have hlater := (keepsDirectories_add (.directory privateDirectory) hplace hfree).walk hway
      rw [hway]
      simp only [bind, Except.bind, hfree]
      refine .made (h.concat hmissing) fun _ => ⟨privateDirectory, ?_⟩
      refine standing?_eq_some_iff.mpr ⟨hfault, _, hlater, ?_⟩
      rw [find?_add _ hplace hfree, if_pos rfl]

/-- The last directory, where something stands in its place. -/
theorem ends_there {n : Node β} (hback : back ∉ (outer ++ [name]))
    (hstanding : t.standing? base text (outer ++ [name]) = some n) :
    t.Ends base text (outer ++ [name])
      (t.settled base text (outer ++ [name]) (.error .alreadyThere)) := by
  unfold settled
  rw [hstanding]
  cases n with
  | directory mode => exact .made (made_of_standing hback hstanding) fun _ => ⟨mode, hstanding⟩
  | file mode content => exact .left _

/-- The last directory, after those in front of it have been created as far as possible. -/
theorem ends_deeper {front : String} {r : Except Fault Unit × Tree β}
    (hback : back ∉ (outer ++ [name])) (hfault : fault? text = none) (hne : outer ≠ [])
    (hmissing : t.find? (base ++ (outer ++ [name])) = none) :
    t.Ends base front outer r → t.Ends base text (outer ++ [name])
      (match r with
      | (.ok (), u) => u.settled base text (outer ++ [name]) (u.makeDirectory base text outer name)
      | (.error fault, u) => (.error fault, u)) := by
  intro h
  cases h with
  | made h hthere =>
      obtain ⟨mode, hstanding⟩ := hthere hne
      obtain ⟨-, q, hfront, hfind⟩ := standing?_eq_some_iff.mp hstanding
      obtain rfl := eq_of_walk (not_back_of_concat hback) hfront
      exact ends_last hback hfault h hfront (needDirectory_eq_ok_iff.mpr ⟨mode, hfind⟩) hmissing
  | left fault => exact .left fault
  | @stopped u before long after heq hlong h _ hstop =>
      refine .stopped before long (after ++ [name]) ?_ hlong h hfault ?_
      · rw [heq, List.append_assoc, List.cons_append]
      · rw [walk_append, hstop]
        rfl

/-- One more name, where the system can know the path. -/
theorem ends_step {front : String} (ht : t.Rooted) (hback : back ∉ (inner.reverse ++ [name]))
    (htext : Path.upTo path (inner.length + 1) = text) (hfault : fault? text = none)
    (h : t.Ends base front inner.reverse (t.makeDirectories base path inner)) :
    t.Ends base text (inner.reverse ++ [name]) (t.makeDirectories base path (name :: inner)) := by
  have hattempt : t.makeDirectory base text inner.reverse name = _ :=
    makeDirectory_eq t base hfault (last_ne_back hback)
  cases hwalk : t.walk base (inner.reverse ++ [name]) with
  | ok q =>
      obtain rfl := eq_of_walk hback hwalk
      rw [hwalk] at hattempt
      cases hfind : t.find? (base ++ (inner.reverse ++ [name])) with
      | none =>
          obtain ⟨hfront, hneed⟩ := front_of_walk hback hwalk
          have hends := ends_last hback hfault (made_of_walk hback hwalk) hfront hneed hfind
          simp only [bind, Except.bind, hfind] at hattempt
          rw [makeDirectories_of_attempt htext hattempt (by rintro ⟨⟩), ← hattempt]
          exact hends
      | some n =>
          simp only [bind, Except.bind, hfind] at hattempt
          rw [makeDirectories_of_attempt htext hattempt (by rintro ⟨⟩)]
          exact ends_there hback (standing?_eq_some_iff.mpr ⟨hfault, _, hwalk, hfind⟩)
  | error fault =>
      by_cases hmissing : fault = .notFound
      · subst hmissing
        rw [hwalk] at hattempt
        rw [makeDirectories_of_notFound htext hattempt]
        cases inner with
        | nil =>
            -- the directory from which the names lead on is missing itself
            show t.Ends base text _ (t.settled base text _ (t.makeDirectory base text [] name))
            rw [show t.makeDirectory base text [] name = .error .notFound from hattempt]
            unfold settled
            rw [standing?_of_walk_error hwalk]
            exact .left _
        | cons next inner =>
            have hbelow := missing_of_walk ht hback hwalk
            exact ends_deeper hback hfault (by simp) hbelow h
      · rw [makeDirectories_of_walk_error htext hback hfault hmissing hwalk]
        exact .left fault

/-- Nothing else can come of creating the directories on a way, innermost first. -/
theorem ends_makeDirectories (ht : t.Rooted) (base : Location)
    (hpath : (Path.ofString path).names ≠ []) (inner : List String)
    (hback : back ∉ inner.reverse) :
    t.Ends base (Path.upTo path inner.length) inner.reverse
      (t.makeDirectories base path inner) := by
  induction inner with
  | nil => exact .made made_nil fun hne => absurd rfl hne
  | cons name outer ih =>
      rw [List.reverse_cons] at hback ⊢
      rw [List.length_cons]
      cases hfault : fault? (Path.upTo path (outer.length + 1)) with
      | some fault =>
          have hne : fault ≠ .notFound := by
            rintro rfl
            exact fault?_ne_notFound (upTo_ne_empty hpath _) hfault
          rw [makeDirectories_of_error rfl (makeDirectory_of_fault hfault) hne
            (standing?_of_fault hfault)]
          exact .left fault
      | none => exact ends_step ht hback rfl hfault (ih (not_back_of_concat hback))

variable {r : Except Fault Unit × Tree β}

theorem Ends.of_ok (h : t.Ends base text names r) (hback : back ∉ names) (hok : r.1 = .ok ()) :
    t.Made r.2 base names ∧
      (names ≠ [] → ∃ mode, r.2.find? (base ++ names) = some (.directory mode)) := by
  cases h with
  | made h hthere =>
      refine ⟨h, fun hne => ?_⟩
      obtain ⟨mode, hstanding⟩ := hthere hne
      obtain ⟨-, q, hwalk, hfind⟩ := standing?_eq_some_iff.mp hstanding
      obtain rfl := eq_of_walk hback hwalk
      exact ⟨mode, hfind⟩
  | left fault => cases hok
  | stopped => cases hok

theorem Ends.of_error (h : t.Ends base text names r) (hfault : r.1 = .error fault) :
    r.2 = t ∨ ∃ before long after, names = before ++ long :: after ∧ isTooLong long = true ∧
      t.Made r.2 base before := by
  cases h with
  | made => cases hfault
  | left fault => exact Or.inl rfl
  | stopped before long after hnames hlong h =>
      exact Or.inr ⟨before, long, after, hnames, hlong, h⟩

theorem Ends.find?_of_some {n : Node β} (h : t.Ends base text names r) (hq : t.find? q = some n) :
    r.2.find? q = some n := by
  cases h with
  | made h => exact h.find?_of_some hq
  | left fault => exact hq
  | stopped _ _ _ _ _ h => exact h.find?_of_some hq

/-! ## The directory of a file -/

variable {directory : Location}

theorem parentOf?_eq (t : Tree β) (directory : Location) (path : String) :
    t.parentOf? directory path = t.standing? ((Path.ofString path).origin directory)
      (Path.upTo path (Path.ofString path).outer.length) (Path.ofString path).outer := rfl

theorem ensureParent_of_standing {n : Node β} (h : t.parentOf? directory path = some n) :
    t.ensureParent directory path = (.ok (), t) := by
  unfold ensureParent
  simp only [h, Option.isSome_some, if_true]

theorem ensureParent_of_missing (h : t.parentOf? directory path = none) :
    t.ensureParent directory path =
      t.makeDirectories ((Path.ofString path).origin directory) path
        (Path.ofString path).outer.reverse := by
  unfold ensureParent
  simp only [h, Option.isSome_none, Bool.false_eq_true, if_false]

/-- A file that is to stand where the names start from needs no directory. -/
theorem ensureParent_of_bare (h : (Path.ofString path).outer = []) :
    t.ensureParent directory path = (.ok (), t) := by
  unfold ensureParent
  dsimp only
  rw [h]
  split <;> rfl

theorem names_ne_nil (h : (Path.ofString path).outer ≠ []) : (Path.ofString path).names ≠ [] := by
  intro hnames
  exact h (by rw [Path.outer, hnames, List.dropLast_nil])

/-- What can come of creating the directory of a file: something stands in its place already, or
all that is missing on the way is created. -/
theorem ensureParent_cases (ht : t.Rooted) (directory : Location)
    (hback : back ∉ (Path.ofString path).outer) :
    (∃ n, t.parentOf? directory path = some n ∧ t.ensureParent directory path = (.ok (), t)) ∨
      t.Ends ((Path.ofString path).origin directory)
        (Path.upTo path (Path.ofString path).outer.length) (Path.ofString path).outer
        (t.ensureParent directory path) := by
  by_cases hbare : (Path.ofString path).outer = []
  · rw [ensureParent_of_bare hbare, hbare]
    exact Or.inr (.made made_nil fun hne => absurd rfl hne)
  cases hparent : t.parentOf? directory path with
  | some n => exact Or.inl ⟨n, rfl, ensureParent_of_standing hparent⟩
  | none =>
      right
      rw [← List.reverse_reverse (Path.ofString path).outer] at hback
      have hends := ends_makeDirectories ht ((Path.ofString path).origin directory)
        (names_ne_nil hbare) _ hback
      rwa [List.reverse_reverse, List.length_reverse, ← ensureParent_of_missing hparent] at hends

/-- Where a name is too long, trying again does not help. -/
theorem ensureParent_of_stop (hback : back ∉ (Path.ofString path).outer)
    (hne : (Path.ofString path).outer ≠ [])
    (hfault : fault? (Path.upTo path (Path.ofString path).outer.length) = none)
    (hwalk : t.walk ((Path.ofString path).origin directory) (Path.ofString path).outer =
      .error .nameTooLong) : t.ensureParent directory path = (.error .nameTooLong, t) := by
  have hmissing : t.parentOf? directory path = none := by
    rw [parentOf?_eq]
    exact standing?_of_walk_error hwalk
  rw [ensureParent_of_missing hmissing]
  cases hinner : (Path.ofString path).outer.reverse with
  | nil => exact absurd (List.reverse_eq_nil_iff.mp hinner) hne
  | cons name inner =>
      rw [List.reverse_eq_cons_iff.mp hinner] at hback hfault hwalk
      rw [List.length_append, List.length_reverse, List.length_singleton] at hfault
      exact makeDirectories_of_walk_error rfl hback hfault (by rintro ⟨⟩) hwalk

/-- Trying it again ends as the first time, and nothing changes any more. -/
theorem ensureParent_again (ht : t.Rooted) (directory : Location)
    (hback : back ∉ (Path.ofString path).outer) :
    (t.ensureParent directory path).2.ensureParent directory path =
      t.ensureParent directory path := by
  rcases ensureParent_cases ht directory hback with ⟨n, -, hdone⟩ | hends
  · rw [hdone, hdone]
  generalize hr : t.ensureParent directory path = r at hends
  cases hends with
  | made h hthere =>
      by_cases hbare : (Path.ofString path).outer = []
      · exact ensureParent_of_bare hbare
      · obtain ⟨mode, hstanding⟩ := hthere hbare
        rw [← parentOf?_eq] at hstanding
        exact ensureParent_of_standing hstanding
  | left fault => exact hr
  | stopped before long after heq hlong h hfault hwalk =>
      refine ensureParent_of_stop hback ?_ hfault hwalk
      rw [heq]
      simp

/-- When the directory of a file has been created, it is there, unless a file stood in its place
before, and so are the directories on the way to it, the new ones being private.  When it could not
be created, nothing has been, except where a name on the way is too long: then the directories in
front of that name are there.  Whatever was there before is as it was, and trying it again ends as
the first time and changes nothing. -/
theorem parents_made_or_left (ht : t.Rooted) (directory : Location)
    (hback : back ∉ (Path.ofString path).outer) :
    let p := Path.ofString path
    let base := p.origin directory
    let r := t.ensureParent directory path
    (r.1 = .ok () → t.Made r.2 base p.outer ∧
      ((∀ mode content, t.find? (base ++ p.outer) ≠ some (.file mode content)) →
        (p.outer = [] ∧ p.absolute = false) ∨
          ∃ mode, r.2.find? (base ++ p.outer) = some (.directory mode))) ∧
      (∀ fault, r.1 = .error fault → r.2 = t ∨
        ∃ before long after, p.outer = before ++ long :: after ∧ isTooLong long = true ∧
          t.Made r.2 base before) ∧
      (∀ q n, t.find? q = some n → r.2.find? q = some n) ∧
      r.2.ensureParent directory path = r := by
  intro p base r
  have hagain := ensureParent_again ht directory hback
  rcases ensureParent_cases ht directory hback with ⟨n, hstanding, hdone⟩ | hends
  · -- something stands in the place of the directory, so nothing is done
    have hr : r = (.ok (), t) := hdone
    rw [parentOf?_eq] at hstanding
    refine ⟨fun _ => ⟨?_, fun hnofile => Or.inr ?_⟩, fun fault hfault => ?_, fun q n hq => ?_,
      hagain⟩
    · rw [hr]
      exact made_of_standing hback hstanding
    · obtain ⟨-, q, hwalk, hfind⟩ := standing?_eq_some_iff.mp hstanding
      obtain rfl := eq_of_walk hback hwalk
      rw [hr]
      cases n with
      | directory mode => exact ⟨mode, hfind⟩
      | file mode content => exact absurd hfind (hnofile mode content)
    · rw [hr] at hfault
      cases hfault
    · rwa [hr]
  · refine ⟨fun hok => ?_, fun fault => hends.of_error, fun q n => hends.find?_of_some, hagain⟩
    obtain ⟨hmade, hthere⟩ := hends.of_ok hback hok
    refine ⟨hmade, fun _ => ?_⟩
    by_cases hbare : p.outer = []
    · cases habsolute : p.absolute with
      | false => exact Or.inl ⟨hbare, rfl⟩
      | true =>
          -- an absolute path starts from the outermost directory, which is always there
          have hbase : base ++ p.outer = [] := by
            rw [hbare, List.append_nil]
            exact if_pos habsolute
          rw [hbase]
          exact Or.inr ⟨_, rfl⟩
    · exact Or.inr (hthere hbare)

/-- Two directories, one in the other, and a file beside the inner one. -/
def smallTree : Tree Unit :=
  ⟨[(["etc"], .directory 0o755), (["etc", "net"], .directory 0o755),
    (["etc", "hosts"], .file 0o644 ())]⟩

theorem smallTree_rooted : smallTree.Rooted := by
  refine rooted_of_nodes fun n hn => ?_
  simp only [smallTree, List.mem_cons, List.not_mem_nil, or_false] at hn
  rcases hn with rfl | rfl | rfl <;> exact ⟨_, rfl⟩

theorem outer_smallPath : (Path.ofString "/etc/net/fw/rules").outer = ["etc", "net", "fw"] := by
  decide

/-- Another directory is created in the inner one, once. -/
theorem smallTree_made :
    smallTree.Rooted ∧ back ∉ (Path.ofString "/etc/net/fw/rules").outer ∧
      let r := smallTree.ensureParent ["home"] "/etc/net/fw/rules"
      r.1 = .ok () ∧ r.2.find? ["etc", "net", "fw"] = some (.directory 0o700) ∧
        r.2.find? ["etc", "hosts"] = some (.file 0o644 ()) ∧
        r.2.ensureParent ["home"] "/etc/net/fw/rules" = r := by
  have hback : back ∉ (Path.ofString "/etc/net/fw/rules").outer := by
    rw [outer_smallPath]
    decide
  have hok : (smallTree.ensureParent ["home"] "/etc/net/fw/rules").1 = .ok () := by
    decide
  have hmissing : smallTree.find? ["etc", "net", "fw"] = none := by decide
  have hhosts : smallTree.find? ["etc", "hosts"] = some (.file 0o644 ()) := by decide
  have hstart : (Path.ofString "/etc/net/fw/rules").origin ["home"] = [] := by decide
  have hends := parents_made_or_left smallTree_rooted ["home"] hback
  refine ⟨smallTree_rooted, hback, hok, ?_, hends.2.2.1 _ _ hhosts, hends.2.2.2⟩
  refine (hends.1 hok).1.created _ ⟨["etc", "net", "fw"], List.cons_ne_nil _ _, ?_, ?_⟩ hmissing
  · exact outer_smallPath ▸ List.prefix_rfl
  · rw [hstart, List.nil_append]

/-! ### A name that is too long -/

section

/-- The path of a file in a directory of some name, which stands in another directory. -/
def pathThrough (name : String) : String :=
  "a/" ++ (name ++ "/f")

variable {long : String}

theorem ne_of_isTooLong {s : String} (hlong : isTooLong long = true) (hs : isTooLong s = false) :
    long ≠ s := by
  rintro rfl
  rw [hlong] at hs
  cases hs

theorem pieces_pathThrough (hmark : '/' ∉ long.toList) :
    Path.pieces (pathThrough long) = ["a", long, "f"] := by
  have hchars : (pathThrough long).toList = ['a'] ++ '/' :: (long.toList ++ ['/', 'f']) := by
    rw [pathThrough, String.toList_append, String.toList_append]
    rfl
  rw [Path.pieces, hchars, Text.pieces_append_mark, Text.pieces_append hmark,
    List.map_append, List.map_cons, String.ofList_toList]
  rfl

theorem outer_pathThrough (hmark : '/' ∉ long.toList) (hlong : isTooLong long = true) :
    (Path.ofString (pathThrough long)).outer = ["a", long] := by
  have hempty : long ≠ "" := ne_of_isTooLong hlong (by decide)
  have hdot : long ≠ "." := ne_of_isTooLong hlong (by decide)
  unfold Path.outer Path.ofString
  simp [pieces_pathThrough hmark, hempty, hdot]

/-- The system can know the path of the directory, and that of the one in front. -/
theorem fault?_upTo_pathThrough (hmark : '/' ∉ long.toList) (hbroken : isBroken long = false)
    (hlong : isTooLong long = true) (hlimit : long.utf8ByteSize + 2 ≤ pathLimit) :
    fault? (Path.upTo (pathThrough long) 1) = none ∧
      fault? (Path.upTo (pathThrough long) 2) = none := by
  have hempty : long ≠ "" := ne_of_isTooLong hlong (by decide)
  have hdot : long ≠ "." := ne_of_isTooLong hlong (by decide)
  have hfirst : Path.piecesUpTo 1 ["a", long, "f"] = ["a"] := by
    simp [Path.piecesUpTo]
  have hsecond : Path.piecesUpTo 2 ["a", long, "f"] = ["a", long] := by
    simp [Path.piecesUpTo, hempty, hdot]
  unfold Path.upTo
  rw [pieces_pathThrough hmark, hfirst, hsecond, String.intercalate_singleton,
    String.intercalate_cons_cons, String.intercalate_singleton]
  refine ⟨by decide, fault?_eq_none_iff.mpr ⟨?_, ?_, ?_⟩⟩
  · have hplain : isBroken ("a" ++ "/") = false := by simp [isBroken]
    unfold isBroken at hbroken hplain ⊢
    rw [String.toList_append, List.contains_append, hplain, hbroken]
    rfl
  · intro h
    simp at h
  · rw [String.utf8ByteSize_append, show ("a" ++ "/").utf8ByteSize = 2 from by decide]
    omega

/-- Where nothing stands, the directory in front of the name is created in vain. -/
theorem ensureParent_pathThrough (hmark : '/' ∉ long.toList) (hbroken : isBroken long = false)
    (hback : long ≠ back) (hlong : isTooLong long = true)
    (hlimit : long.utf8ByteSize + 2 ≤ pathLimit) :
    (⟨[]⟩ : Tree Unit).ensureParent [] (pathThrough long) =
      (.error .nameTooLong, ⟨[(["a"], .directory privateDirectory)]⟩) := by
  have houter := outer_pathThrough hmark hlong
  obtain ⟨hfirst, hsecond⟩ := fault?_upTo_pathThrough hmark hbroken hlong hlimit
  generalize pathThrough long = path at houter hfirst hsecond
  have horigin : (Path.ofString path).origin [] = [] := ite_self _
  have ha : "a" ≠ back := by decide
  have hshort : isTooLong "a" = false := by decide
  simp [ensureParent, parentOf?, standing?, makeDirectories, makeDirectory, settled, walkInto, walk,
    needDirectory, find?, add, houter, horigin, hfirst, hsecond, ha, hshort, hback, hlong, bind,
    Except.bind, pure, Except.pure, throw, throwThe, MonadExceptOf.throw]

end

/-- A name of any length. -/
theorem exists_name (n : Nat) :
    ∃ name : String, name.toList = List.replicate n 'y' ∧ name.utf8ByteSize = n := by
  have hsize : Text.byteLength (List.replicate n 'y') = n := by
    induction n with
    | zero => rfl
    | succ n ih =>
        rw [List.replicate_succ, Text.byteLength_cons, ih, show 'y'.utf8Size = 1 from rfl]
        omega
  refine ⟨String.ofList (List.replicate n 'y'), String.toList_ofList, ?_⟩
  rw [Text.utf8ByteSize_ofList, hsize]

/-- Where a name is too long, those in front of it have been created in vain. -/
theorem long_names_leave_directories :
    ¬ ∀ (t : Tree Unit) (directory : Location) (path : String) (fault : Fault), t.Rooted →
      back ∉ (Path.ofString path).outer → (t.ensureParent directory path).1 = .error fault →
      (t.ensureParent directory path).2 = t := by
  intro hleft
  obtain ⟨long, hchars, hsize⟩ := exists_name (nameLimit + 1)
  have hmem : ∀ c, c ≠ 'y' → c ∉ long.toList := by
    intro c hc hmem
    rw [hchars] at hmem
    exact hc (List.eq_of_mem_replicate hmem)
  have hlong : isTooLong long = true := by
    rw [isTooLong, hsize]
    decide
  have hback : long ≠ back := ne_of_isTooLong hlong (by decide)
  have hbroken : isBroken long = false := by
    unfold isBroken
    simpa using hmem '\x00' (by decide)
  have hlimit : long.utf8ByteSize + 2 ≤ pathLimit := by
    rw [hsize]
    decide
  have hdone := ensureParent_pathThrough (hmem '/' (by decide)) hbroken hback hlong hlimit
  have hafter := hleft ⟨[]⟩ [] _ .nameTooLong ?_ ?_ (congrArg Prod.fst hdone)
  · rw [hdone] at hafter
    cases hafter
  · intro p name hthere
    simp [find?] at hthere
  · rw [outer_pathThrough (hmem '/' (by decide)) hlong]
    have ha : back ≠ "a" := by decide
    simp [ha, Ne.symm hback]

end Tree
end Host
end PacketPolicy
