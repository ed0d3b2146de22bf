import PacketPolicy.Proofs.Ledger.Refinement
import PacketPolicy.Proofs.Ledger.Soundness

/-!
# The numbers that have been given

Every rule that is stored gets a number, and no number is ever given twice, even if its rule has
been deleted or replaced long ago.  The rows that are left say nothing about that; what carries the
history is the count of the table of rules, which a transaction that fails takes back.

* `Answered.given`, `givenBy` -- the numbers that answers give, in the order in which they are
  returned;
* `Follow` -- numbers that follow a count one by one;
* `Issued`, `issued_run`, `issued_runAll` -- the count of a ledger is the number of numbers given so
  far, and these follow zero;
* `Issued.fails_create_iff`, `Issued.fails_replaceAll_iff` -- what keeps rules from being stored;
* `numbers_given_once` -- all of this for any calls on a new ledger.
-/

namespace PacketPolicy
namespace Ledger

/-- The numbers that an answer gives. -/
def Answered.given : Answered → List Int64
  | ⟨.create _, .ok (id : Int64)⟩ => [id]
  | ⟨.replaceAll _ _, .ok (ids : List Int64)⟩ => ids
  | _ => []

/-- The numbers that answers give, in the order in which they are returned. -/
def givenBy (answers : List Answered) : List Int64 :=
  answers.flatMap Answered.given

/-- The greatest of some numbers; zero, if there is none. -/
def greatestOf (ids : List Int64) : Int :=
  ids.foldl (fun n id => max n id.toInt) 0

/-! ## Numbers in a row -/

/-- The numbers follow a count one by one. -/
def Follow (count : Int) : List Int64 → Prop
  | [] => True
  | id :: rest => id.toInt = count + 1 ∧ Follow (count + 1) rest

theorem follow_append {count : Int} {ids more : List Int64} (h : Follow count ids)
    (hmore : Follow (count + ids.length) more) : Follow count (ids ++ more) := by
  induction ids generalizing count with
  | nil => simpa using hmore
  | cons id rest ih =>
      refine ⟨h.1, ih h.2 ?_⟩
      rw [List.length_cons] at hmore
      rwa [show count + 1 + (rest.length : Int) = count + ((rest.length + 1 : Nat) : Int) by omega]

theorem Follow.lt {count : Int} {ids : List Int64} (h : Follow count ids) :
    ∀ id ∈ ids, count < id.toInt := by
  induction ids generalizing count with
  | nil => simp
  | cons id rest ih =>
      intro other hother
      rcases List.mem_cons.mp hother with rfl | hrest
      · have hfirst := h.1
        omega
      · have hlt := ih h.2 other hrest
        omega

theorem Follow.ascending {count : Int} {ids : List Int64} (h : Follow count ids) :
    ids.Pairwise fun a b => a < b := by
  induction ids generalizing count with
  | nil => exact List.Pairwise.nil
  | cons id rest ih =>
      refine List.pairwise_cons.mpr ⟨fun other hother => ?_, ih h.2⟩
      rw [Int64.lt_iff_toInt_lt, h.1]
      exact h.2.lt other hother

/-- The last of the numbers is the count that they lead to. -/
theorem Follow.foldl_max {count : Int} {ids : List Int64} (h : Follow count ids) :
    ids.foldl (fun n id => max n id.toInt) count = count + ids.length := by
  induction ids generalizing count with
  | nil => simp
  | cons id rest ih =>
      rw [List.foldl_cons, h.1, Int.max_eq_right (by omega), ih h.2, List.length_cons]
      omega

/-- As every number can be told apart, the count stays within bounds. -/
theorem Follow.count_le {count : Int} {ids : List Int64} (h : Follow count ids)
    (hcount : count ≤ greatestId) : count + ids.length ≤ greatestId := by
  induction ids generalizing count with
  | nil => simpa using hcount
  | cons id rest ih =>
      have hid := id.toInt_lt
      have hfirst := h.1
      have hrest := ih h.2 (by unfold greatestId; omega)
      rw [List.length_cons]
      omega

/-! ## What storing does to the count -/

namespace PolicyTables

variable {t : PolicyTables}

/-- In sound tables no row is above the count. -/
theorem Sound.greatest_eq (h : t.Sound) : t.rules.greatest = t.rules.highest :=
  RuleTable.greatest_eq_highest fun _ hrow => h.counted _ (List.mem_map_of_mem hrow)

theorem follow_nextId (h : t.Sound) (hcount : 0 ≤ t.rules.highest)
    (hroom : t.rules.greatest < greatestId) : Follow t.rules.highest [t.nextId] := by
  refine ⟨?_, trivial⟩
  rw [toInt_nextId hcount hroom, h.greatest_eq]

theorem highest_store (h : t.Sound) (hcount : 0 ≤ t.rules.highest)
    (hroom : t.rules.greatest < greatestId) (r : Rule) :
    (t.store r).rules.highest = t.rules.highest + 1 := by
  show max t.rules.highest t.nextId.toInt = _
  rw [(follow_nextId h hcount hroom).1]
  omega

/-- Rules that are stored one after another get the numbers that follow the count, which goes up
with them. -/
theorem follow_storeAll {rules : List Rule} (h : t.Sound) (hcount : 0 ≤ t.rules.highest)
    (hroom : t.Storable rules) :
    Follow t.rules.highest (t.storeAll rules).1 ∧
      (t.storeAll rules).2.rules.highest = t.rules.highest + (t.storeAll rules).1.length := by
  induction rules generalizing t with
  | nil => exact ⟨trivial, by simp [storeAll]⟩
  | cons r rest ih =>
      obtain ⟨⟨hnumber, -⟩, hothers⟩ := hroom
      have hhighest := highest_store h hcount hnumber r
      obtain ⟨hfollow, hend⟩ := ih (sound_store h r hnumber) (by omega) hothers
      rw [hhighest] at hfollow hend
      refine ⟨⟨(follow_nextId h hcount hnumber).1, hfollow⟩, ?_⟩
      show ((t.store r).storeAll rest).2.rules.highest =
        t.rules.highest + ((((t.store r).storeAll rest).1.length + 1 : Nat) : Int)
      rw [hend]
      omega

/-- In sound tables it depends on the count alone whether enough numbers are left. -/
theorem storable_iff_of_sound {rules : List Rule} (h : t.Sound) (hcount : 0 ≤ t.rules.highest)
    (hbound : t.rules.highest ≤ greatestId) :
    t.Storable rules ↔
      t.rules.highest + rules.length ≤ greatestId ∧ ∀ r ∈ rules, 0 ∉ r.ports := by
  rw [storable_iff_room hcount (by rwa [h.greatest_eq])]
  constructor
  · rintro ⟨hnumbers, hports⟩
    exact ⟨by rwa [h.greatest_eq] at hnumbers, hports⟩
  · rintro ⟨hnumbers, hports⟩
    exact ⟨by rwa [h.greatest_eq], hports⟩

end PolicyTables

/-! ## Ledgers with a history -/

/-- The greatest number that a rule of the ledger has ever had. -/
def count (l : Ledger) : Int :=
  (l.rules.map RuleTable.highest).getD 0

/-- Since it was new, the ledger has given just these numbers. -/
structure Issued (l : Ledger) (ids : List Int64) : Prop where
  wellKept : l.WellKept
  count : l.count = ids.length
  follow : Follow 0 ids

theorem issued_openBlank : openBlank.Issued [] :=
  ⟨wellKept_openBlank, rfl, trivial⟩

variable {l : Ledger} {ids : List Int64}

theorem Issued.greatestOf_eq (h : l.Issued ids) : greatestOf ids = l.count := by
  rw [h.count]
  exact h.follow.foldl_max.trans (Int.zero_add _)

/-- The tables of the ledger, and the bounds of their count. -/
theorem Issued.tables (h : l.Issued ids) :
    ∃ t, l = l.withTables t ∧ t.Sound ∧ t.rules.highest = l.count ∧ 0 ≤ t.rules.highest ∧
      t.rules.highest ≤ greatestId := by
  obtain ⟨-, t, htables, hsound⟩ := h.wellKept
  have heq := eq_withTables_of_tables? htables
  have hcount : t.rules.highest = l.count := by
    rw [heq]
    rfl
  have hbound := h.follow.count_le (by decide)
  have hlength := h.count
  exact ⟨t, heq, hsound, hcount, by omega, by omega⟩

/-- Whatever comes of a call, the count goes up by the numbers that it gives, and these follow the
count; in particular a call that fails gives none. -/
theorem follow_run (h : l.Issued ids) (c : Call) (first second : Deadline) :
    Follow l.count (Answered.given ⟨c, (c.run first second l).1⟩) ∧
      (c.run first second l).2.count =
        l.count + (Answered.given ⟨c, (c.run first second l).1⟩).length := by
  obtain ⟨t, heq, hsound, hcount, hnonneg, -⟩ := h.tables
  have hversion := h.wellKept.1
  rw [← hcount, heq]
  -- what gives no numbers leaves the count as it is
  have hnone : Follow t.rules.highest [] ∧
      t.rules.highest = t.rules.highest + (([] : List Int64).length : Int) :=
    ⟨trivial, (Int.add_zero _).symm⟩
  cases c with
  | create r =>
      rcases run_create (l := l) (t := t) first second r with ⟨e, hfail⟩ | ⟨hroom, hdone⟩
      · rw [hfail]
        exact hnone
      · rw [hdone]
        exact ⟨PolicyTables.follow_nextId hsound hnonneg hroom.1.1,
          PolicyTables.highest_store hsound hnonneg hroom.1.1 r⟩
  | replaceAll d rules =>
      rcases run_replaceAll (l := l) (t := t) first second d rules with ⟨e, hfail⟩ | ⟨hroom, hdone⟩
      · rw [hfail]
        exact hnone
      · rw [hdone]
        have hcleared := PolicyTables.sound_clear (PolicyTables.sound_overwrite hsound d)
        exact PolicyTables.follow_storeAll hcleared hnonneg hroom
  | delete id =>
      rcases run_delete (l := l) (t := t) first second id with ⟨e, hfail⟩ | hdone
      · rw [hfail]
        exact hnone
      · rw [hdone]
        exact hnone
  | setDefaults d =>
      rcases run_setDefaults (l := l) (t := t) first second d with ⟨e, hfail⟩ | hdone
      · rw [hfail]
        exact hnone
      · rw [hdone]
        exact hnone
  | readDefaults =>
      rw [run_readDefaults_snd first second (PolicyTables.loaded_ne_none hsound)]
      exact hnone
  | list onlyEnabled =>
      rcases run_list (l := l) (t := t) first second onlyEnabled with hlate | hdone
      · rw [hlate]
        exact hnone
      · rw [hdone]
        exact hnone
  | lookUpRole name =>
      rw [run_lookUpRole_snd]
      exact hnone
  | append e =>
      obtain ⟨journal, hdone⟩ := run_append_snd first second e (l.withTables t)
      rw [hdone]
      exact hnone
  | recent limit =>
      rw [run_recent_snd]
      exact hnone
  | reopen =>
      rw [heq] at hversion
      rw [run_reopen first second hversion]
      exact hnone

/-- A call adds the numbers that it gives to the history of the ledger. -/
theorem issued_run (h : l.Issued ids) (c : Call) (first second : Deadline) :
    (c.run first second l).2.Issued
      (ids ++ Answered.given ⟨c, (c.run first second l).1⟩) := by
  obtain ⟨hfollow, hcount⟩ := follow_run h c first second
  refine ⟨wellKept_run h.wellKept c first second, ?_, follow_append h.follow ?_⟩
  · rw [hcount, h.count, List.length_append]
    omega
  · rwa [Int.zero_add, ← h.count]

theorem issued_runAll (h : l.Issued ids) (calls : List Call.Timed) :
    (runAll l calls).2.Issued (ids ++ givenBy (runAll l calls).1) := by
  induction calls generalizing l ids with
  | nil => simpa [runAll, givenBy] using h
  | cons c rest ih =>
      have hrest := ih (issued_run h c.call c.first c.second)
      rw [List.append_assoc] at hrest
      exact hrest

/-! ## What keeps rules from being stored -/

/-- The call was late. -/
def Deadline.Missed {α : Type} (d : Deadline) (answer : Except Failure α) : Prop :=
  ¬ d.Untimed ∧ answer = .error (.overdue d.budget)

/-- A transaction that ends with a fault exactly if `P` fails exactly if `P`, unless it is late. -/
theorem commit_fails_iff {α : Type} {t : Transaction α} {P : Prop}
    (hfault : P → ∃ fault, Transaction.Yields t l (.error fault))
    (hdone : ¬ P → ∃ a l', Transaction.Yields t l (.ok (a, l'))) (d : Deadline) :
    d.Missed (t.commit d l).1 ∨ ((∃ e, (t.commit d l).1 = .error e) ↔ P) := by
  have hsettled {o : Transaction.Outcome α} (ho : Transaction.Yields t l o) :
      d.Missed (t.commit d l).1 ∨ t.commit d l = o.settled l := by
    by_cases hd : d.Untimed
    · exact Or.inr (Transaction.commit_eq_of_untimed ho hd)
    · refine (Transaction.commit_of_yields ho d).imp_left fun hlate => ⟨hd, ?_⟩
      rw [hlate]
  by_cases hP : P
  · obtain ⟨fault, hyields⟩ := hfault hP
    refine (hsettled hyields).imp_right fun hrun => ?_
    rw [hrun]
    exact ⟨fun _ => hP, fun _ => ⟨_, rfl⟩⟩
  · obtain ⟨a, l', hyields⟩ := hdone hP
    refine (hsettled hyields).imp_right fun hrun => ?_
    rw [hrun]
    refine ⟨?_, fun h => absurd h hP⟩
    rintro ⟨e, hfail⟩
    cases hfail

/-- A rule cannot be created if it has a port zero or if no number is left, and otherwise it
can. -/
theorem Issued.fails_create_iff (h : l.Issued ids) (r : Rule) (first second : Deadline) :
    let answer := ((Call.create r).run first second l).1
    first.Missed answer ∨
      ((∃ e, answer = .error e) ↔ 0 ∈ r.ports ∨ greatestOf ids = greatestId) := by
  obtain ⟨t, heq, hsound, hcount, -, hbound⟩ := h.tables
  rw [h.greatestOf_eq, ← hcount, heq]
  have hroom : ¬ (0 ∈ r.ports ∨ t.rules.highest = greatestId) ↔
      t.rules.greatest < greatestId ∧ 0 ∉ r.ports := by
    rw [hsound.greatest_eq, not_or, and_comm]
    exact and_congr_left fun _ => by omega
  refine commit_fails_iff (fun hP => ?_) (fun hP => ?_) first
  · exact yields_storeRule_fault r fun hstorable => hroom.mpr hstorable hP
  · obtain ⟨hnumber, hports⟩ := hroom.mp hP
    exact ⟨_, _, yields_storeRule r hnumber hports⟩

/-- A policy cannot be replaced if one of the new rules has a port zero or if fewer numbers are left
than there are rules, and otherwise it can. -/
theorem Issued.fails_replaceAll_iff (h : l.Issued ids) (d : Defaults) (rules : List Rule)
    (first second : Deadline) :
    let answer := ((Call.replaceAll d rules).run first second l).1
    first.Missed answer ∨
      ((∃ e, answer = .error e) ↔
        (∃ r ∈ rules, 0 ∈ r.ports) ∨ greatestId - greatestOf ids < rules.length) := by
  obtain ⟨t, heq, hsound, hcount, hnonneg, hbound⟩ := h.tables
  rw [h.greatestOf_eq, ← hcount, heq]
  have hcleared := PolicyTables.sound_clear (PolicyTables.sound_overwrite hsound d)
  have hroom : ¬ ((∃ r ∈ rules, 0 ∈ r.ports) ∨ greatestId - t.rules.highest < rules.length) ↔
      (t.overwrite d).clear.Storable rules := by
    rw [PolicyTables.storable_iff_of_sound hcleared hnonneg hbound, not_or, and_comm]
    refine and_congr ?_ (by simp)
    show ¬ greatestId - t.rules.highest < rules.length ↔ t.rules.highest + rules.length ≤ greatestId
    omega
  refine commit_fails_iff (fun hP => ?_) (fun hP => ?_) first
  · exact yields_replaceAll_fault d fun hstorable => hroom.mpr hstorable hP
  · exact ⟨_, _, yields_replaceAll d (hroom.mp hP)⟩

/-- In any sequence of calls on a new ledger, answered or failed, the numbers that are given go up
strictly from above zero, so that none is ever given twice.  A rule that comes next can be created
unless it has a port zero or the greatest number has been given, and a policy can be replaced unless
a rule has a port zero or fewer numbers are left than there are rules; only lateness can keep them
from it otherwise. -/
theorem numbers_given_once (calls : List Call.Timed) (first second : Deadline) :
    let given := givenBy (runAll openBlank calls).1
    let l := (runAll openBlank calls).2
    (given.Pairwise fun a b => a < b) ∧ (∀ id ∈ given, 0 < id.toInt) ∧
      (∀ r : Rule,
        let answer := ((Call.create r).run first second l).1
        first.Missed answer ∨
          ((∃ e, answer = .error e) ↔ 0 ∈ r.ports ∨ greatestOf given = greatestId)) ∧
      ∀ (d : Defaults) (rules : List Rule),
        let answer := ((Call.replaceAll d rules).run first second l).1
        first.Missed answer ∨
          ((∃ e, answer = .error e) ↔
            (∃ r ∈ rules, 0 ∈ r.ports) ∨ greatestId - greatestOf given < rules.length) := by
  intro given l
  have hissued : l.Issued given := issued_runAll issued_openBlank calls
  exact ⟨hissued.follow.ascending, hissued.follow.lt,
    fun r => hissued.fails_create_iff r first second,
    fun d rules => hissued.fails_replaceAll_iff d rules first second⟩

/-- A number whose rule has been deleted is not given again, and a rule that is refused takes
none. -/
example :
    let create (ports : List UInt16) : Call := .create { (default : Rule) with ports }
    let calls : List Call := [create [22], .delete 1, create [443, 0], .reopen,
      .replaceAll .initial [default, default]]
    givenBy (runAll openBlank (calls.map fun c => ⟨c, .distant .zero, .distant .zero⟩)).1 =
      [1, 2, 3] := by
  decide +kernel

end Ledger
end PacketPolicy
