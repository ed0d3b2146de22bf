import PacketPolicy.Ledger.Schema
import PacketPolicy.Proofs.Ledger.Reads

/-!
# Calls on the ledger

Everything that can be asked of an open ledger, as data, so that statements can be made about
all sequences of such calls, successful or not.

* `Call`, `Call.run` -- a call, its answer and the ledger afterwards, under any deadlines;
* `Call.Timed`, `runAll` -- a sequence of calls, each with its deadlines, and what came of them;
* `Reachable` -- the ledgers that calls lead to;
* `run_create`, `run_delete`, ... -- the ends that a call can have when no table of a policy is
  missing.

A ledger that is closed and opened again goes through its migrations once more; `UpToDate` says
that there are none left for it.
-/

namespace PacketPolicy
namespace Ledger

open Transaction

/-- What can be asked of an open ledger. -/
inductive Call where
  | create (r : Rule)
  | delete (id : Int64)
  | setDefaults (d : Defaults)
  | replaceAll (d : Defaults) (rules : List Rule)
  | readDefaults
  | list (onlyEnabled : Bool)
  | lookUpRole (name : String)
  | append (e : Event)
  | recent (limit : Nat)
  /-- The ledger is closed and opened again. -/
  | reopen
deriving Inhabited

namespace Call

/-- The results of a call. -/
def Result : Call → Type
  | create _ => Int64
  | delete _ => Bool
  | setDefaults _ => Unit
  | replaceAll _ _ => List Int64
  | readDefaults => Defaults
  | list _ => List Rule
  | lookUpRole _ => Option String
  | append _ => Unit
  | recent _ => List Event
  | reopen => Nat

/-- The answer to a call and the ledger afterwards.  Only the defaults may take a second
transaction; `second` is its deadline. -/
def run (first second : Deadline) (l : Ledger) : (c : Call) → Except Failure c.Result × Ledger
  | create r => (Ledger.create r).commit first l
  | delete id => (Ledger.delete id).commit first l
  | setDefaults d => (Ledger.setDefaults d).commit first l
  | replaceAll d rules => (Ledger.replaceAll d rules).commit first l
  | readDefaults => readDefaultsWithin first second l
  | list onlyEnabled => (Ledger.list onlyEnabled).commit first l
  | lookUpRole name => (Ledger.lookUpRole name).commit first l
  | append e => (Ledger.append e).commit first l
  | recent limit => (Ledger.recent limit).commit first l
  | reopen => l.bringUpToDate

/-- A call with the deadlines of its transactions. -/
structure Timed where
  call : Call
  first : Deadline
  second : Deadline
deriving Inhabited

end Call

/-- The ledgers that sequences of calls lead to. -/
inductive Reachable (start : Ledger) : Ledger → Prop where
  | start : Reachable start start
  | call {l : Ledger} (c : Call) (first second : Deadline) :
      Reachable start l → Reachable start (c.run first second l).2

/-! ## Ends of transactions -/

/-- A transaction fails and leaves the ledger as it was, or it has its effect. -/
theorem commit_cases {α : Type} {t : Transaction α} {l : Ledger} {o : Outcome α} (h : Yields t l o)
    (d : Deadline) :
    (∃ e, t.commit d l = (.error e, l)) ∨
      ∃ a l', o = .ok (a, l') ∧ t.commit d l = (.ok a, l') := by
  rcases commit_of_yields h d with hlate | hdone
  · exact Or.inl ⟨_, hlate⟩
  · cases o with
    | error fault => exact Or.inl ⟨_, hdone⟩
    | ok p => exact Or.inr ⟨p.1, p.2, rfl, hdone⟩

/-- A transaction that has an effect when it is in time fails or has this effect. -/
theorem commit_ok_cases {α : Type} {t : Transaction α} {l l' : Ledger} {a : α}
    (h : Yields t l (.ok (a, l'))) (d : Deadline) :
    (∃ e, t.commit d l = (.error e, l)) ∨ t.commit d l = (.ok a, l') := by
  rcases commit_cases h d with hfail | ⟨b, m, hends, hdone⟩
  · exact Or.inl hfail
  · right
    cases hends
    exact hdone

/-- A transaction that has no effect fails. -/
theorem commit_fault {α : Type} {t : Transaction α} {l : Ledger} {fault : Fault}
    (h : Yields t l (.error fault)) (d : Deadline) : ∃ e, t.commit d l = (.error e, l) := by
  rcases commit_cases h d with hfail | ⟨a, l', hends, _⟩
  · exact hfail
  · cases hends

/-- A transaction that reads leaves the ledger as it is. -/
theorem commit_reads_snd {α : Type} {t : Transaction α} {l : Ledger} {x : Except Fault α}
    (h : Reads t l x) (d : Deadline) : (t.commit d l).2 = l := by
  rcases commit_of_reads h d with hlate | hdone
  · rw [hlate]
  · rw [hdone]

/-! ## Ends of calls -/

variable {l : Ledger} {t : PolicyTables} (first second : Deadline)

/-- A rule is created under the next number, if there is room for it, or nothing is. -/
theorem run_create (r : Rule) :
    (∃ e, (Call.create r).run first second (l.withTables t) = (.error e, l.withTables t)) ∨
      t.Storable [r] ∧
        (Call.create r).run first second (l.withTables t) =
          (.ok t.nextId, l.withTables (t.store r)) := by
  by_cases hroom : t.rules.greatest < greatestId ∧ 0 ∉ r.ports
  · rcases commit_ok_cases (yields_storeRule (l := l) r hroom.1 hroom.2) first with hfail | hdone
    · exact Or.inl hfail
    · exact Or.inr ⟨⟨hroom, trivial⟩, hdone⟩
  · obtain ⟨fault, hyields⟩ := yields_storeRule_fault (l := l) r hroom
    exact Or.inl (commit_fault hyields first)

theorem run_delete (id : Int64) :
    (∃ e, (Call.delete id).run first second (l.withTables t) = (.error e, l.withTables t)) ∨
      (Call.delete id).run first second (l.withTables t) =
        (.ok ((t.remove id).rules.rows.length != t.rules.rows.length),
          l.withTables (t.remove id)) :=
  commit_ok_cases (yields_delete id) first

theorem run_setDefaults (d : Defaults) :
    (∃ e, (Call.setDefaults d).run first second (l.withTables t) = (.error e, l.withTables t)) ∨
      (Call.setDefaults d).run first second (l.withTables t) =
        (.ok (), l.withTables (t.overwrite d)) :=
  commit_ok_cases (yields_setDefaults d) first

/-- A policy is replaced by a whole other one, if there is room for that, or not at all. -/
theorem run_replaceAll (d : Defaults) (rules : List Rule) :
    (∃ e, (Call.replaceAll d rules).run first second (l.withTables t) =
        (.error e, l.withTables t)) ∨
      (t.overwrite d).clear.Storable rules ∧
        (Call.replaceAll d rules).run first second (l.withTables t) =
          (.ok ((t.overwrite d).clear.storeAll rules).1,
            l.withTables ((t.overwrite d).clear.storeAll rules).2) := by
  by_cases hroom : (t.overwrite d).clear.Storable rules
  · rcases commit_ok_cases (yields_replaceAll (l := l) d hroom) first with hfail | hdone
    · exact Or.inl hfail
    · exact Or.inr ⟨hroom, hdone⟩
  · obtain ⟨fault, hyields⟩ := yields_replaceAll_fault (l := l) d hroom
    exact Or.inl (commit_fault hyields first)

/-- Defaults whose row is there are read, or the call is late. -/
theorem run_readDefaults {d : Defaults} (h : t.loaded = .ok (some d)) :
    Call.readDefaults.run first second (l.withTables t) =
        (.error (.overdue first.budget), l.withTables t) ∨
      Call.readDefaults.run first second (l.withTables t) = (.ok d, l.withTables t) := by
  show readDefaultsWithin first second (l.withTables t) = _ ∨
    readDefaultsWithin first second (l.withTables t) = _
  unfold readDefaultsWithin
  rcases commit_of_reads (reads_loadDefaults (l := l) h) first with hlate | hdone
  · left
    rw [hlate]
    rfl
  · right
    rw [hdone]
    rfl

/-- A row that is there but is no defaults is a fault, and stays. -/
theorem run_readDefaults_snd (h : t.loaded ≠ .ok none) :
    (Call.readDefaults.run first second (l.withTables t)).2 = l.withTables t := by
  cases hloaded : t.loaded with
  | ok found =>
      cases found with
      | none => exact absurd hloaded h
      | some d =>
          rcases run_readDefaults (l := l) first second hloaded with hlate | hdone
          · rw [hlate]
          · rw [hdone]
  | error fault =>
      show (readDefaultsWithin first second (l.withTables t)).2 = _
      unfold readDefaultsWithin
      obtain ⟨e, hfail⟩ := commit_fault (reads_loadDefaults (l := l) hloaded) first
      rw [hfail]

/-- A list of rules is what its rows stand for, or the call is late. -/
theorem run_list (onlyEnabled : Bool) :
    (Call.list onlyEnabled).run first second (l.withTables t) =
        (.error (.overdue first.budget), l.withTables t) ∨
      (Call.list onlyEnabled).run first second (l.withTables t) =
        ((t.listed onlyEnabled).mapError .ledger, l.withTables t) :=
  commit_of_reads (reads_list onlyEnabled) first

theorem run_readDefaults_untimed {d : Defaults} (h : t.loaded = .ok (some d)) {first : Deadline}
    (hfirst : first.Untimed) (second : Deadline) :
    Call.readDefaults.run first second (l.withTables t) = (.ok d, l.withTables t) := by
  show readDefaultsWithin first second (l.withTables t) = _
  unfold readDefaultsWithin
  rw [commit_of_reads_untimed (reads_loadDefaults h) hfirst]
  rfl

theorem run_list_untimed (onlyEnabled : Bool) {first : Deadline} (hfirst : first.Untimed)
    (second : Deadline) :
    (Call.list onlyEnabled).run first second (l.withTables t) =
      ((t.listed onlyEnabled).mapError .ledger, l.withTables t) :=
  commit_of_reads_untimed (reads_list onlyEnabled) hfirst

theorem run_lookUpRole_snd (name : String) (l : Ledger) :
    ((Call.lookUpRole name).run first second l).2 = l :=
  commit_reads_snd (reads_query _ _) first

theorem run_recent_snd (limit : Nat) (l : Ledger) :
    ((Call.recent limit).run first second l).2 = l :=
  commit_reads_snd (reads_query _ _) first

/-- An entry of the journal leaves everything but the journal as it is. -/
theorem run_append_snd (e : Event) (l : Ledger) :
    ∃ journal, ((Call.append e).run first second l).2 = { l with journal } := by
  rcases commit_cases (yields_statement (appendRow (.ofEvent e)) l) first with hfail | hdone
  · obtain ⟨failure, hfail⟩ := hfail
    refine ⟨l.journal, ?_⟩
    show (Transaction.commit _ first l).2 = _
    rw [append, hfail]
  · obtain ⟨a, l', happend, hdone⟩ := hdone
    show ∃ journal, (Transaction.commit _ first l).2 = _
    rw [append, hdone]
    cases hjournal : l.journal with
    | none => simp [appendRow, need, hjournal, bind, Except.bind] at happend
    | some j =>
        simp only [appendRow, need, hjournal, bind, Except.bind] at happend
        split at happend
        · cases happend
          exact ⟨_, rfl⟩
        · cases happend

/-! ## Opening a ledger again -/

/-- All migrations are behind the ledger. -/
def UpToDate (l : Ledger) : Prop :=
  l.version = .ok 2

theorem bringUpToDate_of_upToDate (h : l.UpToDate) : l.bringUpToDate = (.ok 0, l) := by
  unfold UpToDate at h
  simp [bringUpToDate, migrations, takeSteps, Migration.step, h]

theorem run_reopen (h : l.UpToDate) : Call.reopen.run first second l = (.ok (0 : Nat), l) :=
  bringUpToDate_of_upToDate h

theorem openBlank_upToDate : openBlank.UpToDate := by
  rfl

end Ledger
end PacketPolicy
