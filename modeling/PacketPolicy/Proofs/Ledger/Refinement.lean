import PacketPolicy.Proofs.Ledger.Calls
import PacketPolicy.Proofs.Ledger.Layout

/-!
# The ledger as a list of rules

Seen from outside, a ledger is a policy: defaults and a list of rules with numbers.  Calls that
succeed change this policy as their names say, calls that fail do not change it, and whatever is
read from the ledger is read from the policy.

* `Answered`, `runAll` -- what was called and what was answered, one call after another;
* `Policy.after` -- what an answered call makes of a policy;
* `Answered.Fits` -- an answer is the one that the policy gives;
* `Holds` -- a ledger holds a policy, in the layout of `PolicyTables.ofPolicy`;
* `holds_run` -- one call; `holds_runAll` -- any number of them;
* `calls_refine_policy` -- a new ledger behaves like the policy that the answers so far add up to.
-/

namespace PacketPolicy
namespace Ledger

/-- A call and its answer. -/
structure Answered where
  call : Call
  answer : Except Failure call.Result

/-- Calls one after another: what was answered, and the ledger afterwards. -/
def runAll (l : Ledger) : List Call.Timed → List Answered × Ledger
  | [] => ([], l)
  | c :: rest =>
      let (answer, l) := c.call.run c.first c.second l
      let (answers, l) := runAll l rest
      (⟨c.call, answer⟩ :: answers, l)

/-- What an answered call makes of a policy.  A rule that was created comes last, under the number
that was returned for it; a rule that was deleted goes; a replacement leaves nothing of what was
there before; and what failed changes nothing. -/
def policyAfter (p : Policy) : Answered → Policy
  | ⟨.create r, .ok id⟩ => { p with rules := p.rules ++ [r.withId id] }
  | ⟨.delete id, .ok _⟩ => { p with rules := p.rules.filter fun r => r.id != id }
  | ⟨.setDefaults d, .ok _⟩ => { p with defaults := d }
  | ⟨.replaceAll d rules, .ok ids⟩ => { defaults := d, rules := List.zipWith Rule.withId rules ids }
  | _ => p

/-- Whether an answer is one that a policy can give.  New numbers are above all others, there is
one for each new rule, and what is read is what the policy has; a failure is always possible. -/
def Answered.Fits (p : Policy) : Answered → Prop
  | ⟨.create _, .ok id⟩ => ∀ r ∈ p.rules, r.id < id
  | ⟨.delete id, .ok found⟩ => found = p.rules.any fun r => r.id == id
  | ⟨.replaceAll _ rules, .ok ids⟩ => ids.length = rules.length
  | ⟨.readDefaults, .ok d⟩ => d = p.defaults
  | ⟨.list onlyEnabled, .ok rules⟩ => rules = p.selected onlyEnabled
  | _ => True

/-- Whether each of some answers fits the policy that the ones before it have made. -/
def AllFit (p : Policy) : List Answered → Prop
  | [] => True
  | a :: rest => a.Fits p ∧ AllFit (policyAfter p a) rest

/-- The ledger holds a policy. -/
def Holds (l : Ledger) (p : Policy) : Prop :=
  l.UpToDate ∧ ∃ highest, l.tables? = some (.ofPolicy p highest) ∧ p.Numbered highest

theorem holds_withTables {l : Ledger} {p : Policy} {highest : Int} (hversion : l.UpToDate)
    (h : p.Numbered highest) : (l.withTables (.ofPolicy p highest)).Holds p :=
  ⟨hversion, highest, rfl, h⟩

theorem Holds.eq_withTables {l : Ledger} {p : Policy} (h : l.Holds p) :
    ∃ highest, l = l.withTables (.ofPolicy p highest) ∧ p.Numbered highest := by
  obtain ⟨-, highest, htables, hnumbered⟩ := h
  exact ⟨highest, eq_withTables_of_tables? htables, hnumbered⟩

theorem Holds.ascending {l : Ledger} {p : Policy} (h : l.Holds p) :
    p.rules.Pairwise fun a b => a.id < b.id := by
  obtain ⟨-, highest, -, hnumbered⟩ := h
  exact hnumbered.ascending

theorem initial_numbered : Policy.initial.Numbered 0 := by
  constructor
  · exact List.Pairwise.nil
  · simp [Policy.initial]
  · simp [Policy.initial]
  · decide
  · decide

theorem openBlank_holds : openBlank.Holds .initial :=
  ⟨openBlank_upToDate, 0, rfl, initial_numbered⟩

/-! ## Single calls -/

/-- Whether a row was removed is whether a rule had the number. -/
theorem removed_ofPolicy (p : Policy) (highest : Int) (id : Int64) :
    (((PolicyTables.ofPolicy p highest).remove id).rules.rows.length !=
      (PolicyTables.ofPolicy p highest).rules.rows.length) = p.rules.any fun r => r.id == id := by
  rw [PolicyTables.remove_ofPolicy]
  simp only [PolicyTables.ofPolicy, List.length_map]
  induction p.rules with
  | nil => rfl
  | cons r rest ih =>
      have hle := List.length_filter_le (fun r => r.id != id) rest
      by_cases hr : r.id = id
      · simp [hr]
        omega
      · have hne : (r.id == id) = false := by simpa using hr
        simpa [hr, hne] using ih

/-- A call on a ledger that holds a policy is answered from the policy, and leaves a ledger that
holds what the answer makes of it. -/
theorem holds_run {l : Ledger} {p : Policy} (h : l.Holds p) (c : Call)
    (first second : Deadline) :
    (Answered.mk c (c.run first second l).1).Fits p ∧
      (c.run first second l).2.Holds (policyAfter p ⟨c, (c.run first second l).1⟩) := by
  obtain ⟨highest, hl, hnumbered⟩ := h.eq_withTables
  obtain ⟨hversion, -⟩ := id h
  -- every call is reduced to its end on the tables of the policy
  rw [hl] at h ⊢
  have hcount := PolicyTables.greatest_ofPolicy hnumbered
  cases c with
  | create r =>
      rcases run_create (l := l) (t := .ofPolicy p highest) first second r with
        ⟨e, hfail⟩ | ⟨hroom, hdone⟩
      · rw [hfail]
        exact ⟨trivial, h⟩
      · rw [hdone]
        have hnumber := hroom.1.1
        rw [hcount] at hnumber
        have hid := PolicyTables.toInt_nextId_ofPolicy hnumbered hnumber
        constructor
        · intro q hq
          have hle := hnumbered.counted q hq
          rw [Int64.lt_iff_toInt_lt, hid]
          omega
        · rw [PolicyTables.store_ofPolicy hnumbered hnumber]
          exact holds_withTables hversion (PolicyTables.numbered_store hnumbered hnumber r)
  | delete id =>
      rcases run_delete (l := l) (t := .ofPolicy p highest) first second id with
        ⟨e, hfail⟩ | hdone
      · rw [hfail]
        exact ⟨trivial, h⟩
      · rw [hdone, removed_ofPolicy, PolicyTables.remove_ofPolicy]
        exact ⟨rfl, holds_withTables hversion (PolicyTables.numbered_remove hnumbered id)⟩
  | setDefaults d =>
      rcases run_setDefaults (l := l) (t := .ofPolicy p highest) first second d with
        ⟨e, hfail⟩ | hdone
      · rw [hfail]
        exact ⟨trivial, h⟩
      · rw [hdone, PolicyTables.overwrite_ofPolicy]
        exact ⟨trivial, holds_withTables hversion (PolicyTables.numbered_overwrite hnumbered d)⟩
  | replaceAll d rules =>
      rcases run_replaceAll (l := l) (t := .ofPolicy p highest) first second d rules with
        ⟨e, hfail⟩ | ⟨hroom, hdone⟩
      · rw [hfail]
        exact ⟨trivial, h⟩
      · rw [hdone]
        rw [PolicyTables.overwrite_ofPolicy, PolicyTables.clear_ofPolicy] at hroom ⊢
        obtain ⟨ids, hlength, hstored, hafter, -⟩ :=
          PolicyTables.storeAll_ofPolicy (PolicyTables.numbered_clear hnumbered d) hroom
        rw [hstored]
        exact ⟨hlength, holds_withTables hversion hafter⟩
  | readDefaults =>
      rcases run_readDefaults (l := l) first second
          (PolicyTables.loaded_ofPolicy p highest) with hlate | hdone
      · rw [hlate]
        exact ⟨trivial, h⟩
      · rw [hdone]
        exact ⟨rfl, h⟩
  | list onlyEnabled =>
      have hread := run_list (l := l) (t := .ofPolicy p highest) first second onlyEnabled
      rw [PolicyTables.listed_ofPolicy onlyEnabled hnumbered] at hread
      rcases hread with hlate | hdone
      · rw [hlate]
        exact ⟨trivial, h⟩
      · rw [hdone]
        exact ⟨rfl, h⟩
  | lookUpRole name =>
      rw [run_lookUpRole_snd]
      exact ⟨trivial, h⟩
  | append e =>
      obtain ⟨journal, hdone⟩ := run_append_snd first second e (l.withTables (.ofPolicy p highest))
      rw [hdone]
      exact ⟨trivial, hversion, highest, rfl, hnumbered⟩
  | recent limit =>
      rw [run_recent_snd]
      exact ⟨trivial, h⟩
  | reopen =>
      rw [run_reopen first second h.1]
      exact ⟨trivial, h⟩

/-! ## Any number of calls -/

theorem holds_runAll {l : Ledger} {p : Policy} (h : l.Holds p) (calls : List Call.Timed) :
    AllFit p (runAll l calls).1 ∧
      (runAll l calls).2.Holds ((runAll l calls).1.foldl policyAfter p) := by
  induction calls generalizing l p with
  | nil => exact ⟨trivial, h⟩
  | cons c rest ih =>
      obtain ⟨hfits, hafter⟩ := holds_run h c.call c.first c.second
      obtain ⟨hrest, hend⟩ := ih hafter
      exact ⟨⟨hfits, hrest⟩, hend⟩

/-- What a ledger that holds a policy lets one read is the policy, unless the reader is late. -/
theorem Holds.reads {l : Ledger} {p : Policy} (h : l.Holds p) (onlyEnabled : Bool)
    (first second : Deadline) :
    ((Call.list onlyEnabled).run first second l = (.ok (p.selected onlyEnabled), l) ∨
      ¬ first.Untimed ∧
        (Call.list onlyEnabled).run first second l = (.error (.overdue first.budget), l)) ∧
    (Call.readDefaults.run first second l = (.ok p.defaults, l) ∨
      ¬ first.Untimed ∧
        Call.readDefaults.run first second l = (.error (.overdue first.budget), l)) := by
  obtain ⟨highest, hl, hnumbered⟩ := h.eq_withTables
  rw [hl]
  have hlisted := PolicyTables.listed_ofPolicy onlyEnabled hnumbered
  have hloaded := PolicyTables.loaded_ofPolicy p highest
  -- lateness is left as an end only where there is a clock
  by_cases hfirst : first.Untimed
  · constructor
    · left
      rw [run_list_untimed onlyEnabled hfirst, hlisted]
      rfl
    · left
      exact run_readDefaults_untimed hloaded hfirst second
  · constructor
    · have hread := run_list (l := l) (t := .ofPolicy p highest) first second onlyEnabled
      rw [hlisted] at hread
      exact hread.symm.imp_right fun hlate => ⟨hfirst, hlate⟩
    · have hread := run_readDefaults (l := l) first second hloaded
      exact hread.symm.imp_right fun hlate => ⟨hfirst, hlate⟩

/-- After any calls on a new ledger, answered or failed, the answers fit the policy that they add
up to: its rules are those of the last replacement and those created since, without those deleted
since, each as it was given and under the number that was returned for it, in ascending order of
the numbers; its defaults are the last ones set.  Reading finds this policy, or fails because it
is late; with time enough it does not fail. -/
theorem calls_refine_policy (calls : List Call.Timed) (onlyEnabled : Bool)
    (first second : Deadline) :
    let answers := (runAll openBlank calls).1
    let l := (runAll openBlank calls).2
    let p := answers.foldl policyAfter .initial
    AllFit .initial answers ∧
      (p.rules.Pairwise fun a b => a.id < b.id) ∧
      ((Call.list onlyEnabled).run first second l = (.ok (p.selected onlyEnabled), l) ∨
        ¬ first.Untimed ∧
          (Call.list onlyEnabled).run first second l = (.error (.overdue first.budget), l)) ∧
      (Call.readDefaults.run first second l = (.ok p.defaults, l) ∨
        ¬ first.Untimed ∧
          Call.readDefaults.run first second l = (.error (.overdue first.budget), l)) := by
  intro answers l p
  obtain ⟨hfits, hholds⟩ := holds_runAll openBlank_holds calls
  exact ⟨hfits, hholds.ascending, hholds.reads onlyEnabled first second⟩

end Ledger
end PacketPolicy
