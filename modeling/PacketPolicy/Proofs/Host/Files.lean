import Mathlib.Data.List.Basic
import PacketPolicy.Host.Tree
import PacketPolicy.Proofs.Results
import PacketPolicy.Proofs.Text.Numerals

/-!
# Files that stand where paths lead

What a path leads to once a file has been put in the place that it names, and what a file that has
been written holds.

* `find?_add`, `find?_put` -- what stands in a place after something has been put into a place;
* `KeepsDirectories` -- no directory goes; `KeepsDirectories.walk` -- so paths lead where they led;
* `FilePlace` -- the place where a path names a file, whether there is one or not;
* `openable_eq_ok_iff`, `write_eq_ok_iff`, `exists_write_iff` -- files are opened and written in
  such places, and nowhere else;
* `FilePlace.openable`, `isSome_openable` -- after a file has been opened, paths lead to files where
  they did;
* `read_of_filePlace`, `read_write` -- what has been written is read.
-/

namespace PacketPolicy
namespace Host
namespace Tree

variable {β : Type} {t u : Tree β} {p q : Location} {directory : Location} {path : String}

/-! ## What stands in a place -/

theorem find?_of_ne_nil (t : Tree β) (hp : p ≠ []) :
    t.find? p = (t.nodes.find? fun n => n.1 == p).map Prod.snd :=
  if_neg hp

/-- Something that is put where nothing stands. -/
theorem find?_add (n : Node β) (hp : p ≠ []) (hfree : t.find? p = none) (q : Location) :
    (t.add p n).find? q = if q = p then some n else t.find? q := by
  by_cases hq : q = []
  · subst hq
    rw [if_neg (Ne.symm hp)]
    rfl
  rw [find?_of_ne_nil _ hq, find?_of_ne_nil _ hq]
  unfold add
  rw [List.find?_append]
  by_cases hqp : q = p
  · subst hqp
    rw [find?_of_ne_nil _ hp, Option.map_eq_none_iff] at hfree
    simp [hfree]
  · rw [if_neg hqp, List.find?_singleton, if_neg (by simpa using Ne.symm hqp), Option.or_none]

/-- Something that is put into a place takes the place of what stands there, and of nothing else. -/
theorem find?_put (n : Node β) (hp : p ≠ []) (q : Location) :
    (t.put p n).find? q = if q = p then some n else t.find? q := by
  unfold put
  split
  · rename_i hthere
    by_cases hq : q = []
    · subst hq
      rw [if_neg (Ne.symm hp)]
      rfl
    have hsame : ((fun n => n.1 == q) ∘ fun old => if old.1 = p then (p, n) else old) =
        fun old : Location × Node β => old.1 == q := by
      funext old
      simp only [Function.comp_apply]
      split
      · rename_i hold
        rw [hold]
      · rfl
    rw [find?_of_ne_nil _ hq, List.find?_map, hsame]
    by_cases hqp : q = p
    · subst hqp
      rw [find?_of_ne_nil _ hp] at hthere
      cases hfind : t.nodes.find? fun n => n.1 == q with
      | none => simp [hfind] at hthere
      | some old =>
          have hold : old.1 = q := by simpa using List.find?_some hfind
          simp [hold]
    · rw [if_neg hqp, find?_of_ne_nil _ hq]
      cases hfind : t.nodes.find? fun n => n.1 == q with
      | none => rfl
      | some old =>
          have hold : old.1 = q := by simpa using List.find?_some hfind
          simp [hold, hqp]
  · rename_i hfree
    exact find?_add n hp (by simpa using hfree) q

/-! ## Following paths -/

theorem needDirectory_eq_ok_iff :
    t.needDirectory p = .ok () ↔ ∃ mode, t.find? p = some (.directory mode) := by
  unfold needDirectory
  cases t.find? p with
  | none => simp
  | some n => cases n <;> simp

theorem walk_append (p : Location) (outer names : List String) :
    t.walk p (outer ++ names) = t.walk p outer >>= fun q => t.walk q names := by
  induction outer generalizing p with
  | nil => rfl
  | cons name rest ih =>
      simp only [List.cons_append, walk]
      cases t.needDirectory p with
      | error fault => rfl
      | ok _ =>
          simp only [bind, Except.bind]
          split
          · exact ih _
          split
          · rfl
          · exact ih _

/-- Every directory of the one tree is a directory of the other. -/
def KeepsDirectories (t u : Tree β) : Prop :=
  ∀ p, t.needDirectory p = .ok () → u.needDirectory p = .ok ()

/-- Paths lead where they led before, as long as no directory goes. -/
theorem KeepsDirectories.walk (h : KeepsDirectories t u) {names : List String}
    (hwalk : t.walk p names = .ok q) : u.walk p names = .ok q := by
  induction names generalizing p with
  | nil => exact hwalk
  | cons name rest ih =>
      simp only [Tree.walk] at hwalk ⊢
      obtain ⟨_, hneed, hrest⟩ := bind_eq_ok_iff.mp hwalk
      rw [h p hneed]
      show (if name = back then _ else _) = _
      split at hrest
      · rename_i hback
        rw [if_pos hback]
        exact ih hrest
      split at hrest
      · cases hrest
      · rename_i hback hlong
        rw [if_neg hback, if_neg hlong]
        exact ih hrest

/-- A file that is put where no directory stands takes the place of none. -/
theorem keepsDirectories_put {mode : Nat} {content : β} (hp : p ≠ [])
    (hfree : ∀ mode, t.find? p ≠ some (.directory mode)) :
    KeepsDirectories t (t.put p (.file mode content)) := by
  intro r hr
  obtain ⟨rmode, hdirectory⟩ := needDirectory_eq_ok_iff.mp hr
  refine needDirectory_eq_ok_iff.mpr ⟨rmode, ?_⟩
  rw [find?_put _ hp, if_neg, hdirectory]
  rintro rfl
  exact hfree rmode hdirectory

/-! ## The places of files -/

/-- The place where a path names a file: its names lead there, and no directory stands there.
Whether there is a file, and what it holds, is not asked. -/
structure FilePlace (t : Tree β) (directory : Location) (path : String) (p : Location) : Prop where
  allowed : fault? path = none
  ending : (Path.ofString path).ending = .name
  leads : t.walk ((Path.ofString path).origin directory) (Path.ofString path).names = .ok p
  free : ∀ mode, t.find? p ≠ some (.directory mode)

theorem FilePlace.ne_nil (h : t.FilePlace directory path p) : p ≠ [] := by
  rintro rfl
  exact h.free 0o755 rfl

theorem FilePlace.of_keepsDirectories (h : t.FilePlace directory path p)
    (hkeeps : KeepsDirectories t u) (hfree : ∀ mode, u.find? p ≠ some (.directory mode)) :
    u.FilePlace directory path p :=
  ⟨h.allowed, h.ending, hkeeps.walk h.leads, hfree⟩

/-- A path that is looked up leads to the file in its place. -/
theorem lookUp_of_filePlace (h : t.FilePlace directory path p) {n : Node β}
    (hthere : t.find? p = some n) : t.lookUp directory path = .ok (p, n) := by
  unfold lookUp
  simp only [h.allowed, h.ending, h.leads, bind, Except.bind, hthere]
  rfl

theorem read_of_filePlace (h : t.FilePlace directory path p) {mode : Nat} {content : β}
    (hthere : t.find? p = some (.file mode content)) :
    t.read directory path = .ok content := by
  unfold read
  rw [lookUp_of_filePlace h hthere]
  rfl

/-! ## Opening and writing -/

theorem fault?_eq_none_iff :
    fault? path = none ↔
      isBroken path = false ∧ path ≠ "" ∧ path.utf8ByteSize ≤ pathLimit := by
  unfold fault?
  cases isBroken path with
  | true => simp
  | false =>
      by_cases hempty : path = ""
      · simp [hempty]
      · by_cases hlong : pathLimit < path.utf8ByteSize
        · simp [hempty, hlong]
        · simp [hempty, hlong, Nat.le_of_not_lt hlong]

/-- What is wrong with a name of a path is wrong with the path. -/
theorem isBroken_of_mem_names {name : String} (hname : name ∈ (Path.ofString path).names)
    (h : isBroken name = true) : isBroken path = true := by
  have hparts := (List.mem_filter.mp (List.mem_filter.mp hname).1).1
  obtain ⟨piece, hpiece, rfl⟩ := List.mem_map.mp hparts
  unfold isBroken at h ⊢
  rw [List.contains_iff_mem, String.toList_ofList] at h
  exact List.contains_iff_mem.mpr (Text.mem_of_mem_pieces hpiece h)

/-- A file can be opened for writing in its place only; where it is missing, it is created. -/
theorem openable_eq_ok_iff {mode : Nat} {content : β} :
    t.openable directory path mode content = .ok (p, u) ↔
      t.FilePlace directory path p ∧
        u = if (t.find? p).isSome then t else t.add p (.file mode content) := by
  constructor
  · intro h
    unfold openable at h
    dsimp only at h
    split at h
    · cases h
    rename_i hallowed
    split at h
    · obtain ⟨_, -, h⟩ := bind_eq_ok_iff.mp h
      cases h
    · obtain ⟨_, -, h⟩ := bind_eq_ok_iff.mp h
      cases h
    · rename_i hending
      obtain ⟨q, hleads, h⟩ := bind_eq_ok_iff.mp h
      have hfault : fault? path = none := by
        cases hfault : fault? path with
        | none => rfl
        | some fault => exact absurd hfault (hallowed fault)
      split at h
      · cases h
      · rename_i hthere
        cases h
        exact ⟨⟨hfault, hending, hleads, by simp [hthere]⟩, by simp [hthere]⟩
      · rename_i hthere
        cases h
        exact ⟨⟨hfault, hending, hleads, by simp [hthere]⟩, by simp [hthere]⟩
  · rintro ⟨h, rfl⟩
    unfold openable
    simp only [h.allowed, h.ending, h.leads, bind, Except.bind]
    cases hthere : t.find? p with
    | none => rfl
    | some n =>
        cases n with
        | directory mode => exact absurd hthere (h.free mode)
        | file mode content => rfl

/-- After a file has been opened, everything stands where it stood, and a file where it was
opened. -/
theorem find?_openable {mode : Nat} {content : β}
    (h : t.openable directory path mode content = .ok (p, u)) (q : Location) :
    u.find? q = (t.find? q).or (if q = p then some (.file mode content) else none) := by
  obtain ⟨hplace, rfl⟩ := openable_eq_ok_iff.mp h
  split
  · rename_i hthere
    split
    · rename_i hqp
      subst hqp
      obtain ⟨n, hn⟩ := Option.isSome_iff_exists.mp hthere
      rw [hn]
      rfl
    · rw [Option.or_none]
  · rename_i hmissing
    have hfree : t.find? p = none := by simpa using hmissing
    rw [find?_add _ hplace.ne_nil hfree]
    split
    · rename_i hqp
      rw [hqp, hfree]
      rfl
    · rw [Option.or_none]

theorem isSome_openable {mode : Nat} {content : β}
    (h : t.openable directory path mode content = .ok (p, u)) :
    (u.find? p).isSome ∧ ∀ q, (t.find? q).isSome → (u.find? q).isSome := by
  constructor
  · rw [find?_openable h, if_pos rfl]
    cases t.find? p <;> rfl
  · intro q hq
    rw [find?_openable h]
    obtain ⟨n, hn⟩ := Option.isSome_iff_exists.mp hq
    rw [hn]
    rfl

/-- Opening one file leaves the places of all others. -/
theorem FilePlace.openable {other : String} (h : t.FilePlace directory other q) {mode : Nat}
    {content : β} (hopen : t.openable directory path mode content = .ok (p, u)) :
    u.FilePlace directory other q := by
  refine h.of_keepsDirectories (fun r hr => ?_) fun mode hdirectory => ?_
  · obtain ⟨mode, hdirectory⟩ := needDirectory_eq_ok_iff.mp hr
    refine needDirectory_eq_ok_iff.mpr ⟨mode, ?_⟩
    rw [find?_openable hopen, hdirectory]
    rfl
  · rw [find?_openable hopen] at hdirectory
    rcases Option.or_eq_some_iff.mp hdirectory with hold | ⟨-, hnew⟩
    · exact h.free mode hold
    · split at hnew <;> cases hnew

/-- The names of a path that has a last one. -/
theorem names_eq_append {name : String} (h : (Path.ofString path).names.getLast? = some name) :
    (Path.ofString path).names = (Path.ofString path).outer ++ [name] :=
  (List.dropLast_append_getLast? name h).symm

/-- A name that is followed from a directory. -/
theorem walk_name {name : String} (hq : t.needDirectory q = .ok ()) (hback : name ≠ back)
    (hlong : isTooLong name = false) : t.walk q [name] = .ok (q ++ [name]) := by
  simp only [walk, hq, bind, Except.bind]
  rw [if_neg hback, if_neg (by simp [hlong])]

/-- A file is written in its place only, and takes the place of whatever file stands there. -/
theorem write_eq_ok_iff {mode : Nat} {content : β} :
    t.write directory path mode content = .ok (p, u) ↔
      t.FilePlace directory path p ∧
        (∃ name, (Path.ofString path).names.getLast? = some name ∧ name ≠ back) ∧
        u = t.put p (.file mode content) := by
  constructor
  · intro h
    unfold write at h
    dsimp only at h
    split at h
    · cases h
    obtain ⟨q, hinto, h⟩ := bind_eq_ok_iff.mp h
    split at h
    · cases h
    rename_i hbroken
    split at h
    · cases h
    rename_i hshort
    split at h
    · cases h
    rename_i name hlast
    split at h
    · obtain ⟨_, -, h⟩ := bind_eq_ok_iff.mp h
      cases h
    rename_i hdot
    split at h
    · cases h
    rename_i hback
    split at h
    · cases h
    rename_i hlong
    split at h
    · cases h
    rename_i hslash
    split at h
    · cases h
    rename_i hfree
    cases h
    obtain ⟨q', hwalk, hinto⟩ := bind_eq_ok_iff.mp hinto
    obtain ⟨_, hneed, hinto⟩ := bind_eq_ok_iff.mp hinto
    cases hinto
    refine ⟨⟨fault?_eq_none_iff.mpr ⟨by simpa using hbroken, ?_, Nat.le_of_not_lt hshort⟩, ?_, ?_,
      hfree⟩, ⟨name, hlast, hback⟩, rfl⟩
    · rintro rfl
      cases hlast
    · cases hending : (Path.ofString path).ending with
      | name => rfl
      | slash => exact absurd hending hslash
      | dot => exact absurd hending hdot
    · rw [names_eq_append hlast, walk_append, hwalk]
      exact walk_name hneed hback (by simpa using hlong)
  · rintro ⟨h, ⟨name, hlast, hback⟩, rfl⟩
    obtain ⟨hbroken, -, hshort⟩ := fault?_eq_none_iff.mp h.allowed
    have houter : (Path.ofString path).outer.any isBroken = false := by
      refine List.any_eq_false.mpr fun outer houter hbad => ?_
      have hmem : outer ∈ (Path.ofString path).names := List.dropLast_subset _ houter
      rw [isBroken_of_mem_names hmem hbad] at hbroken
      cases hbroken
    -- the way to the file is the way to its directory and one name more
    have hleads := h.leads
    rw [names_eq_append hlast, walk_append] at hleads
    obtain ⟨q, hwalk, hleads⟩ := bind_eq_ok_iff.mp hleads
    simp only [walk] at hleads
    obtain ⟨_, hneed, hleads⟩ := bind_eq_ok_iff.mp hleads
    rw [if_neg hback] at hleads
    split at hleads
    · cases hleads
    rename_i hlong
    cases hleads
    unfold write walkInto
    simp only [houter, hwalk, hneed, hbroken, hlast, h.ending, bind, Except.bind, pure,
      Except.pure, Bool.false_eq_true, if_false, if_neg (Nat.not_lt.mpr hshort), if_neg hback,
      if_neg hlong, reduceCtorEq]
    split
    · rename_i mode hthere
      exact absurd hthere (h.free mode)
    · rfl

/-- A file can be written under a path: the path has a place for one, and a name for it.  What the
file holds that stands there, and whether there is one, is not asked. -/
def Writable (t : Tree β) (directory : Location) (path : String) : Prop :=
  (∃ p, t.FilePlace directory path p) ∧
    ∃ name, (Path.ofString path).names.getLast? = some name ∧ name ≠ back

theorem exists_write_iff {mode : Nat} {content : β} :
    (∃ p u, t.write directory path mode content = .ok (p, u)) ↔ t.Writable directory path := by
  constructor
  · rintro ⟨p, u, h⟩
    obtain ⟨hplace, hname, -⟩ := write_eq_ok_iff.mp h
    exact ⟨⟨p, hplace⟩, hname⟩
  · rintro ⟨⟨p, hplace⟩, hname⟩
    exact ⟨p, _, write_eq_ok_iff.mpr ⟨hplace, hname, rfl⟩⟩

/-- What has been written is read. -/
theorem read_write {mode : Nat} {content : β}
    (h : t.write directory path mode content = .ok (p, u)) :
    u.read directory path = .ok content := by
  obtain ⟨hplace, -, rfl⟩ := write_eq_ok_iff.mp h
  have hthere : (t.put p (.file mode content)).find? p = some (.file mode content) := by
    rw [find?_put _ hplace.ne_nil, if_pos rfl]
  refine read_of_filePlace (hplace.of_keepsDirectories
    (keepsDirectories_put hplace.ne_nil hplace.free) ?_) hthere
  rw [hthere]
  rintro mode ⟨⟩

end Tree
end Host
end PacketPolicy
