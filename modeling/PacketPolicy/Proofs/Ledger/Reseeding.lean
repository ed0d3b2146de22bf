import Mathlib.Logic.Function.Basic
import PacketPolicy.Proofs.Ledger.Refinement
import PacketPolicy.Proofs.Ledger.Soundness

/-!
# Supplying missing defaults beside other handles

Several handles are open on one ledger, and each goes through calls of its own.  Their transactions
come in any order.  The row of the defaults may be missing; whoever reads the defaults then supplies
it in a second transaction, and others may have set the defaults in the meantime.

* `Turn`, `Handles`, `Handles.advance` -- what a handle does next, and one transaction of it;
* `advance_begin_of_alone` -- the transactions of a call, one after another, are the call;
* `lastSet` -- the defaults that were last set, by the calls that have ended so far;
* `Keeps` -- the table holds these defaults, or nothing where none were set;
* `Keeps.run`, `Keeps.load`, `Keeps.supply` -- each transaction keeps this, and reads it;
* `Consistent`, `consistent_advance`, `consistent_play` -- so does every order of transactions;
* `defaults_are_last_set` -- what is read is what was last set, and supplying a row sets nothing.
-/

namespace PacketPolicy
namespace Ledger

open Transaction

/-! ## Handles -/

/-- What a handle does next: it begins a call, or it supplies the defaults that it has not found. -/
inductive Turn where
  | begin (c : Call.Timed)
  | supply (second : Deadline)

/-- Handles on one ledger. -/
structure Handles (ι : Type) where
  ledger : Ledger
  /-- What is left to do for each handle. -/
  left : ι → List Turn
  /-- The calls that have ended, in the order of their last transactions. -/
  past : List Answered

namespace Handles

variable {ι : Type}

/-- Handles that have done nothing yet. -/
def start (l : Ledger) (calls : ι → List Call.Timed) : Handles ι where
  ledger := l
  left i := (calls i).map .begin
  past := []

variable [DecidableEq ι]

/-- A call of a handle has ended. -/
def ended (h : Handles ι) (i : ι) (rest : List Turn) (a : Answered) (l : Ledger) : Handles ι where
  ledger := l
  left := Function.update h.left i rest
  past := h.past ++ [a]

/-- The next transaction of a handle. -/
def advance (h : Handles ι) (i : ι) : Handles ι :=
  match h.left i with
  | [] => h
  | .supply second :: rest =>
      let (result, l) := seedDefaults.commit second h.ledger
      h.ended i rest ⟨.readDefaults, result⟩ l
  | .begin ⟨.readDefaults, first, second⟩ :: rest =>
      match loadDefaults.commit first h.ledger with
      | (.ok (some d), l) => h.ended i rest ⟨.readDefaults, .ok d⟩ l
      | (.ok none, l) =>
          { h with ledger := l, left := Function.update h.left i (.supply second :: rest) }
      | (.error e, l) => h.ended i rest ⟨.readDefaults, .error e⟩ l
  | .begin ⟨call, first, second⟩ :: rest =>
      let (result, l) := call.run first second h.ledger
      h.ended i rest ⟨call, result⟩ l

/-- Transactions one after another, each by the next handle of a schedule. -/
def play (h : Handles ι) (schedule : List ι) : Handles ι :=
  schedule.foldl advance h

/-- Where no other handle comes in between, the transactions of a call are the call. -/
theorem advance_begin_of_alone {h : Handles ι} {i : ι} {c : Call.Timed} {rest : List Turn}
    (hleft : h.left i = .begin c :: rest) :
    ∃ transactions, h.play (List.replicate transactions i) =
      h.ended i rest ⟨c.call, (c.call.run c.first c.second h.ledger).1⟩
        (c.call.run c.first c.second h.ledger).2 := by
  obtain ⟨call, first, second⟩ := c
  by_cases hread : call = .readDefaults
  · subst hread
    show ∃ transactions, _ = h.ended i rest ⟨.readDefaults, (readDefaultsWithin first second _).1⟩
      (readDefaultsWithin first second _).2
    unfold readDefaultsWithin
    rcases hload : loadDefaults.commit first h.ledger with ⟨e | d | d, l⟩
    · refine ⟨1, ?_⟩
      show h.advance i = _
      simp only [advance, hleft, hload]
      rfl
    · -- the row is missing, and the next transaction supplies it
      refine ⟨2, ?_⟩
      show (h.advance i).advance i = _
      simp [advance, hleft, hload, ended]
    · refine ⟨1, ?_⟩
      show h.advance i = _
      simp only [advance, hleft, hload]
      rfl
  · refine ⟨1, ?_⟩
    show h.advance i = _
    unfold advance
    rw [hleft]
    cases call <;> first | rfl | exact absurd rfl hread

end Handles

/-! ## What has been set -/

/-- What a call that has gone well has set the defaults to. -/
def Answered.sets? : Answered → Option Defaults
  | ⟨.setDefaults d, .ok _⟩ => some d
  | ⟨.replaceAll d _, .ok _⟩ => some d
  | _ => none

/-- The defaults that were last set, if any were. -/
def lastSet (first : Option Defaults) (past : List Answered) : Option Defaults :=
  (past.filterMap Answered.sets?).getLast?.or first

/-- The table holds the defaults that were last set.  Where none were set, it holds the initial
ones or nothing. -/
def Keeps (last : Option Defaults) (l : Ledger) : Prop :=
  l.UpToDate ∧ ∃ t, l.tables? = some t ∧
    (t.defaults = [.ofDefaults (last.getD .initial)] ∨ t.defaults = [] ∧ last = none)

theorem lastSet_append (first : Option Defaults) (past : List Answered) (a : Answered) :
    lastSet first (past ++ [a]) = a.sets?.or (lastSet first past) := by
  unfold lastSet
  rw [List.filterMap_append]
  cases h : a.sets? with
  | none => simp [h]
  | some d => simp [h]

/-! ## Single transactions -/

/-- A transaction is late, which takes a deadline that can be reached, or it is settled. -/
theorem commit_late_or {α : Type} {t : Transaction α} {l : Ledger} {o : Outcome α}
    (h : Yields t l o) (d : Deadline) :
    (t.commit d l = (.error (.overdue d.budget), l) ∧ ¬ d.Untimed) ∨
      t.commit d l = o.settled l := by
  by_cases hd : d.Untimed
  · exact Or.inr (commit_eq_of_untimed h hd)
  · rcases commit_of_yields h d with hlate | hdone
    · exact Or.inl ⟨hlate, hd⟩
    · exact Or.inr hdone

variable {l : Ledger} {t : PolicyTables} {last : Option Defaults}

theorem loaded_of_row {d : Defaults} (h : t.defaults = [.ofDefaults d]) :
    t.loaded = .ok (some d) := by
  have hrow : t.defaultsRow? = some (.ofDefaults d) := by
    rw [PolicyTables.defaultsRow?, h]
    rfl
  rw [PolicyTables.loaded, hrow]
  show (DefaultsRow.ofDefaults d).defaults?.map some = _
  rw [defaults?_ofDefaults]
  rfl

theorem loaded_of_nil (h : t.defaults = []) : t.loaded = .ok none := by
  simp [PolicyTables.loaded, PolicyTables.defaultsRow?, h]

/-- Defaults that are set take the place of the row, or are the first row. -/
theorem defaults_overwrite (h : (∃ old, t.defaults = [.ofDefaults old]) ∨ t.defaults = [])
    (d : Defaults) : (t.overwrite d).defaults = [.ofDefaults d] := by
  rcases h with ⟨old, hrow⟩ | hnil
  · exact PolicyTables.overwrite_defaults hrow rfl d
  · simp [PolicyTables.overwrite, hnil]

theorem keeps_withTables (hversion : l.UpToDate)
    (hrow : t.defaults = [.ofDefaults (last.getD .initial)] ∨ t.defaults = [] ∧ last = none) :
    (l.withTables t).Keeps last :=
  ⟨hversion, t, rfl, hrow⟩

/-- What is found is what was last set, and nothing is found only where nothing was. -/
theorem Keeps.load (h : l.Keeps last) (d : Deadline) :
    (loadDefaults.commit d l = (.error (.overdue d.budget), l) ∧ ¬ d.Untimed) ∨
      loadDefaults.commit d l = (.ok (some (last.getD .initial)), l) ∨
      loadDefaults.commit d l = (.ok none, l) := by
  obtain ⟨-, t, htables, hrow | ⟨hnil, -⟩⟩ := h
  · have hreads := reads_loadDefaults (l := l) (loaded_of_row hrow)
    rw [← eq_withTables_of_tables? htables] at hreads
    exact (commit_late_or hreads d).imp_right Or.inl
  · have hreads := reads_loadDefaults (l := l) (loaded_of_nil hnil)
    rw [← eq_withTables_of_tables? htables] at hreads
    exact (commit_late_or hreads d).imp_right Or.inr

/-- The second look finds what others have set in the meantime.  Only where it finds nothing are
the initial defaults stored, and then nobody has set any. -/
theorem Keeps.supply (h : l.Keeps last) (d : Deadline) :
    (seedDefaults.commit d l = (.error (.overdue d.budget), l) ∧ ¬ d.Untimed) ∨
      ∃ m, seedDefaults.commit d l = (.ok (last.getD .initial), m) ∧ m.Keeps last := by
  have hl := h
  obtain ⟨hversion, t, htables, hrow | ⟨hnil, rfl⟩⟩ := h
  · have hyields := yields_seedDefaults_some (l := l) (loaded_of_row hrow)
    rw [← eq_withTables_of_tables? htables] at hyields
    exact (commit_late_or hyields d).imp_right fun hdone => ⟨l, hdone, hl⟩
  · have hyields := yields_seedDefaults_none (l := l) (loaded_of_nil hnil)
    rw [← eq_withTables_of_tables? htables] at hyields
    exact (commit_late_or hyields d).imp_right fun hdone => ⟨_, hdone,
      keeps_withTables hversion (Or.inl (defaults_overwrite (Or.inr hnil) .initial))⟩

/-- Storing rules leaves the defaults as they are. -/
theorem defaults_storeAll (rules : List Rule) (t : PolicyTables) :
    (t.storeAll rules).2.defaults = t.defaults := by
  induction rules generalizing t with
  | nil => rfl
  | cons r rest ih => exact ih (t.store r)

/-- Calls other than those for the defaults change the table only by what they set. -/
theorem Keeps.run (h : l.Keeps last) {c : Call} (hc : c ≠ .readDefaults) (first second : Deadline) :
    (c.run first second l).2.Keeps
      ((Answered.mk c (c.run first second l).1).sets?.or last) := by
  obtain ⟨hversion, t, htables, hrow⟩ := h
  have hset (d : Defaults) : (t.overwrite d).defaults = [.ofDefaults d] :=
    defaults_overwrite (hrow.imp (fun h => ⟨_, h⟩) And.left) d
  rw [eq_withTables_of_tables? htables]
  have hbefore : (l.withTables t).Keeps last := keeps_withTables hversion hrow
  cases c with
  | readDefaults => exact absurd rfl hc
  | create r =>
      rcases run_create (l := l) (t := t) first second r with ⟨e, hfail⟩ | ⟨-, hdone⟩
      · rw [hfail]
        exact hbefore
      · rw [hdone]
        exact keeps_withTables hversion hrow
  | delete id =>
      rcases run_delete (l := l) (t := t) first second id with ⟨e, hfail⟩ | hdone
      · rw [hfail]
        exact hbefore
      · rw [hdone]
        exact keeps_withTables hversion hrow
  | setDefaults d =>
      rcases run_setDefaults (l := l) (t := t) first second d with ⟨e, hfail⟩ | hdone
      · rw [hfail]
        exact hbefore
      · rw [hdone]
        exact keeps_withTables hversion (Or.inl (hset d))
  | replaceAll d rules =>
      rcases run_replaceAll (l := l) (t := t) first second d rules with ⟨e, hfail⟩ | ⟨-, hdone⟩
      · rw [hfail]
        exact hbefore
      · rw [hdone]
        refine keeps_withTables hversion (Or.inl ?_)
        rw [defaults_storeAll]
        exact hset d
  | list onlyEnabled =>
      have hread : ((Call.list onlyEnabled).run first second (l.withTables t)).2 = l.withTables t :=
        commit_reads_snd (reads_list onlyEnabled) first
      rw [hread]
      exact hbefore
  | lookUpRole name =>
      rw [run_lookUpRole_snd]
      exact hbefore
  | append e =>
      obtain ⟨journal, hdone⟩ := run_append_snd first second e (l.withTables t)
      rw [hdone]
      exact ⟨hversion, t, rfl, hrow⟩
  | recent limit =>
      rw [run_recent_snd]
      exact hbefore
  | reopen =>
      rw [run_reopen first second hbefore.1]
      exact hbefore

/-! ## Transactions in any order -/

/-- The deadlines of some calls. -/
def Uses {ι : Type} (calls : ι → List Call.Timed) (d : Deadline) : Prop :=
  ∃ i, ∃ c ∈ calls i, d = c.first ∨ d = c.second

/-- The answer to a call for the defaults is `d`, unless the call was late for a deadline that can
be reached. -/
def ToldUnlessLate {ι : Type} (calls : ι → List Call.Timed) (answer : Except Failure Defaults)
    (d : Defaults) : Prop :=
  answer = .ok d ∨
    ∃ deadline, Uses calls deadline ∧ ¬ deadline.Untimed ∧
      answer = .error (.overdue deadline.budget)

/-- The deadlines of what is next are among those of the calls. -/
def Turn.Allowed {ι : Type} (calls : ι → List Call.Timed) : Turn → Prop
  | .begin c => Uses calls c.first ∧ Uses calls c.second
  | .supply second => Uses calls second

namespace Handles

variable {ι : Type} {calls : ι → List Call.Timed} {first : Option Defaults} {h : Handles ι}

/-- The table holds what was last set, and every call for the defaults has told what was last set
when it ended. -/
structure Consistent (calls : ι → List Call.Timed) (first : Option Defaults) (h : Handles ι) :
    Prop where
  allowed : ∀ i, ∀ turn ∈ h.left i, turn.Allowed calls
  keeps : h.ledger.Keeps (lastSet first h.past)
  told : ∀ before answer after, h.past = before ++ ⟨.readDefaults, answer⟩ :: after →
    ToldUnlessLate calls answer ((lastSet first before).getD .initial)

theorem consistent_start {l : Ledger} (hl : l.Keeps first) (calls : ι → List Call.Timed) :
    (start l calls).Consistent calls first where
  allowed := by
    intro i turn hturn
    obtain ⟨c, hc, rfl⟩ := List.mem_map.mp hturn
    exact ⟨⟨i, c, hc, Or.inl rfl⟩, ⟨i, c, hc, Or.inr rfl⟩⟩
  keeps := hl
  told before answer after hpast := by simp [start] at hpast

variable [DecidableEq ι]

/-- Only the handle at work has other things left to do. -/
theorem allowed_update (hallowed : ∀ i, ∀ turn ∈ h.left i, turn.Allowed calls) {i : ι}
    {turns : List Turn} (hturns : ∀ turn ∈ turns, turn.Allowed calls) :
    ∀ j, ∀ turn ∈ Function.update h.left i turns j, turn.Allowed calls := by
  intro j
  by_cases hj : j = i
  · subst hj
    rwa [Function.update_self]
  · rw [Function.update_of_ne hj]
    exact hallowed j

/-- The end of a call keeps everything consistent when the table holds what was last set then, and
the call has told the truth. -/
theorem consistent_ended (hh : h.Consistent calls first) {i : ι} {turn : Turn} {rest : List Turn}
    (hleft : h.left i = turn :: rest) {a : Answered} {l : Ledger}
    (hkeeps : l.Keeps (a.sets?.or (lastSet first h.past)))
    (htells : ∀ answer, a = ⟨.readDefaults, answer⟩ →
      ToldUnlessLate calls answer ((lastSet first h.past).getD .initial)) :
    (h.ended i rest a l).Consistent calls first where
  allowed := by
    refine allowed_update hh.allowed fun other hother => hh.allowed i other ?_
    rw [hleft]
    exact List.mem_cons_of_mem _ hother
  keeps := by
    show l.Keeps (lastSet first (h.past ++ [a]))
    rwa [lastSet_append]
  told := by
    intro before answer after hpast
    change h.past ++ [a] = before ++ ⟨.readDefaults, answer⟩ :: after at hpast
    rcases List.eq_nil_or_concat after with rfl | ⟨others, b, rfl⟩
    · -- the call that has just ended
      obtain ⟨hbefore, ha⟩ := List.append_inj' hpast rfl
      obtain rfl := List.cons.inj ha |>.1
      exact hbefore ▸ htells answer rfl
    · rw [List.concat_eq_append, ← List.cons_append, ← List.append_assoc] at hpast
      exact hh.told before answer others (List.append_inj' hpast rfl).1

theorem consistent_told (hh : h.Consistent calls first) {i : ι} {turn : Turn} {rest : List Turn}
    (hleft : h.left i = turn :: rest) {answer : Except Failure Defaults} {l : Ledger}
    (hkeeps : l.Keeps (lastSet first h.past))
    (htells : ToldUnlessLate calls answer ((lastSet first h.past).getD .initial)) :
    (h.ended i rest ⟨.readDefaults, answer⟩ l).Consistent calls first := by
  refine consistent_ended hh hleft hkeeps fun other hother => ?_
  cases hother
  exact htells

/-- Every transaction of every handle keeps everything consistent. -/
theorem consistent_advance (hh : h.Consistent calls first) (i : ι) :
    (h.advance i).Consistent calls first := by
  unfold advance
  rcases hleft : h.left i with _ | ⟨turn, rest⟩
  · exact hh
  · have hturn : turn.Allowed calls := hh.allowed i turn (hleft ▸ List.mem_cons_self)
    cases turn with
    | supply second =>
        rcases hh.keeps.supply second with ⟨hlate, hreached⟩ | ⟨m, hdone, hkeeps⟩
        · simp only [hlate]
          exact consistent_told hh hleft hh.keeps (Or.inr ⟨second, hturn, hreached, rfl⟩)
        · simp only [hdone]
          exact consistent_told hh hleft hkeeps (Or.inl rfl)
    | begin c =>
        obtain ⟨call, early, second⟩ := c
        by_cases hcall : call = .readDefaults
        · subst hcall
          rcases hh.keeps.load early with ⟨hlate, hreached⟩ | hfound | hmissing
          · simp only [hlate]
            exact consistent_told hh hleft hh.keeps (Or.inr ⟨early, hturn.1, hreached, rfl⟩)
          · simp only [hfound]
            exact consistent_told hh hleft hh.keeps (Or.inl rfl)
          · -- nothing is told yet, and the next look may find something else
            simp only [hmissing]
            refine ⟨allowed_update hh.allowed ?_, hh.keeps, hh.told⟩
            refine List.forall_mem_cons.mpr ⟨hturn.2, fun other hother => hh.allowed i other ?_⟩
            rw [hleft]
            exact List.mem_cons_of_mem _ hother
        · have hkeeps := hh.keeps.run hcall early second
          have hended := consistent_ended hh hleft hkeeps fun answer ha =>
            absurd (congrArg Answered.call ha) hcall
          cases call <;> first | exact hended | exact absurd rfl hcall

theorem consistent_play (hh : h.Consistent calls first) (schedule : List ι) :
    (h.play schedule).Consistent calls first := by
  induction schedule generalizing h with
  | nil => exact hh
  | cons i rest ih => exact ih (consistent_advance hh i)

end Handles

/-- What is told is the initial defaults, or the ones that were there at first, or some that were
set. -/
theorem lastSet_cases (first : Option Defaults) (past : List Answered) :
    (lastSet first past).getD .initial = .initial ∨
      first = some ((lastSet first past).getD .initial) ∨
      ∃ a ∈ past, a.sets? = some ((lastSet first past).getD .initial) := by
  unfold lastSet
  cases hlast : (past.filterMap Answered.sets?).getLast? with
  | none => cases first <;> simp
  | some d =>
      obtain ⟨a, ha, hset⟩ := List.mem_filterMap.mp (List.mem_of_getLast? hlast)
      exact Or.inr (Or.inr ⟨a, ha, hset⟩)

/-- Any number of handles on a ledger whose row of defaults may be missing, with any calls, in any
order of their transactions: a call for the defaults tells what was last set when its last
transaction came, and the initial defaults where nothing was set, so supplying the row sets
nothing.  It fails only if it is late.  The table never has more than one row. -/
theorem defaults_are_last_set {ι : Type} [DecidableEq ι] {l : Ledger} {t : PolicyTables}
    (hversion : l.UpToDate) (htables : l.tables? = some t) {first : Option Defaults}
    (hrow : t.defaults = (first.map .ofDefaults).toList) (calls : ι → List Call.Timed)
    (schedule : List ι) :
    (∀ before answer after,
      ((Handles.start l calls).play schedule).past = before ++ ⟨.readDefaults, answer⟩ :: after →
      ∃ d, d = (lastSet first before).getD .initial ∧ ToldUnlessLate calls answer d ∧
        (d = .initial ∨ first = some d ∨ ∃ a ∈ before, a.sets? = some d)) ∧
    ∃ u, ((Handles.start l calls).play schedule).ledger.tables? = some u ∧
      u.defaults.length ≤ 1 := by
  have hstart : l.Keeps first := by
    refine ⟨hversion, t, htables, ?_⟩
    cases first with
    | none => exact Or.inr ⟨hrow, rfl⟩
    | some d => exact Or.inl hrow
  have hend := Handles.consistent_play (Handles.consistent_start hstart calls) schedule
  refine ⟨fun before answer after hpast => ?_, ?_⟩
  · exact ⟨_, rfl, hend.told before answer after hpast, lastSet_cases first before⟩
  · obtain ⟨-, u, hu, hone | ⟨hnone, -⟩⟩ := hend.keeps
    · exact ⟨u, hu, by simp [hone]⟩
    · exact ⟨u, hu, by simp [hnone]⟩

/-- A ledger without the row of the defaults. -/
def rowless : Ledger :=
  { openBlank with defaults := some [] }

/-- Nobody lets anything through. -/
def closedDefaults : Defaults :=
  { Defaults.initial with output := .drop }

/-- One handle reads the defaults, the other one sets them. -/
def readerAndSetter : Bool → List Call.Timed
  | false => [⟨.readDefaults, .distant .zero, .distant .zero⟩]
  | true => [⟨.setDefaults closedDefaults, .distant .zero, .distant .zero⟩]

/-- The reader finds no row, and the other handle sets the defaults before the reader looks
again. -/
theorem rowless_tells_set :
    rowless.UpToDate ∧
      ((Handles.start rowless readerAndSetter).play [false, true, false]).past =
        [⟨.setDefaults closedDefaults, .ok ()⟩, ⟨.readDefaults, .ok closedDefaults⟩] ∧
      ToldUnlessLate readerAndSetter (.ok closedDefaults) closedDefaults ∧
      ∃ u, ((Handles.start rowless readerAndSetter).play [false, true, false]).ledger.tables? =
        some u ∧ u.defaults.length ≤ 1 := by
  have hpast : ((Handles.start rowless readerAndSetter).play [false, true, false]).past =
      [⟨.setDefaults closedDefaults, .ok ()⟩] ++ ⟨.readDefaults, .ok closedDefaults⟩ :: [] := rfl
  have hrow : [] = ((none : Option Defaults).map DefaultsRow.ofDefaults).toList := rfl
  obtain ⟨htold, hrows⟩ :=
    defaults_are_last_set (l := rowless) rfl rfl hrow readerAndSetter [false, true, false]
  obtain ⟨d, rfl, htells, -⟩ := htold _ _ _ hpast
  exact ⟨rfl, hpast, htells, hrows⟩

end Ledger
end PacketPolicy
