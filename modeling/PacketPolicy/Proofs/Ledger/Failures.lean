import PacketPolicy.Proofs.Ledger.Calls
import PacketPolicy.Proofs.Ledger.Causes
import PacketPolicy.Proofs.Ledger.Looks

/-!
# Calls that fail

A call can fail at any of its statements, after others have already changed tables, and at any of
its looks at the clock.  Whatever stops it, and whatever the ledger was like before, nothing of it
is left.

* `Call.tables`, `Call.checks` -- the tables that a call cannot do without, and how often it has to
  find time left;
* `Call.Struck` -- the causes for which a call fails, wherever they strike;
* `readDefaults_ends` -- the one call that takes two transactions, the first of which only reads;
* `failed_calls_change_nothing` -- all causes make the call fail, and no failure leaves a trace.
-/

namespace PacketPolicy
namespace Ledger

open Transaction

namespace Call

/-- The tables that a call cannot do without.  If it lists a rule, it needs those of its parts
too. -/
def tables : Call → List Table
  | create r => tablesFor r
  | delete _ => .rules :: Table.ofParts
  | setDefaults _ => [.defaults]
  | replaceAll _ _ => Table.ofPolicy
  | readDefaults => [.defaults]
  | list _ => [.rules]
  | lookUpRole _ => [.users]
  | append _ => [.journal]
  | recent _ => [.journal]
  | reopen => []

/-- How often a call has to find time left in order to succeed: before it begins, before each of
its statements, and at its end. -/
def checks (l : Ledger) : Call → Nat
  | create r => statementsFor r + 2
  | delete _ => 7
  | replaceAll _ rules => 6 + (rules.map statementsFor).sum + 2
  | list onlyEnabled =>
      match ruleRows onlyEnabled l with
      | .ok rules => 1 + 4 * rules.length + 2
      | .error _ => 3
  | setDefaults _ | readDefaults | lookUpRole _ | append _ | recent _ => 3
  | reopen => 0

/-- The causes for which a call fails on a ledger, wherever they strike. -/
inductive Struck (first second : Deadline) (l : Ledger) : Call → Prop where
  /-- A port zero, at any place of the rule. -/
  | zeroPort {r : Rule} (h : 0 ∈ r.ports) : Struck first second l (.create r)
  /-- A port zero, at any place of any of the rules. -/
  | zeroPortAmong {d : Defaults} {rules : List Rule} {r : Rule} (hr : r ∈ rules)
      (h : 0 ∈ r.ports) : Struck first second l (.replaceAll d rules)
  /-- No number is left. -/
  | noNumber {r : Rule} {t : RuleTable} (ht : l.rules = some t) (h : greatestId ≤ t.greatest) :
      Struck first second l (.create r)
  /-- Too few numbers are left. -/
  | tooFewNumbers {d : Defaults} {rules : List Rule} {t : RuleTable} (ht : l.rules = some t)
      (hcount : 0 ≤ t.highest) (hbound : t.highest ≤ greatestId)
      (h : greatestId < t.highest + rules.length) : Struck first second l (.replaceAll d rules)
  /-- A table is missing. -/
  | missing {c : Call} {table : Table} (ht : table ∈ c.tables) (h : l.size? table = none) :
      Struck first second l c
  /-- A table of what belongs to a listed rule is missing. -/
  | missingParts {onlyEnabled : Bool} {row : RuleRow} {table : Table}
      (hrow : l.Lists onlyEnabled row) (ht : table ∈ Table.ofParts) (h : l.size? table = none) :
      Struck first second l (.list onlyEnabled)
  /-- A listed row is no rule. -/
  | unreadableRule {onlyEnabled : Bool} {row : RuleRow} {fault : Fault}
      (hrow : l.Lists onlyEnabled row) (h : row.rule? = .error fault) :
      Struck first second l (.list onlyEnabled)
  /-- A port of a listed rule is none. -/
  | unreadablePort {onlyEnabled : Bool} {row : RuleRow} {ports : List (ChildRow Cell)}
      {port : ChildRow Cell} {fault : Fault} (hrow : l.Lists onlyEnabled row)
      (hports : l.ports = some ports) (hport : port ∈ ports) (howner : port.owner = row.id)
      (h : portOfCell port.value = .error fault) : Struck first second l (.list onlyEnabled)
  /-- A source of a listed rule is no text. -/
  | unreadableSource {onlyEnabled : Bool} {row : RuleRow} {sources : List (ChildRow Cell)}
      {source : ChildRow Cell} {fault : Fault} (hrow : l.Lists onlyEnabled row)
      (hsources : l.sources = some sources) (hsource : source ∈ sources)
      (howner : source.owner = row.id) (h : prefixOfCell source.value = .error fault) :
      Struck first second l (.list onlyEnabled)
  /-- A destination of a listed rule is no text. -/
  | unreadableDestination {onlyEnabled : Bool} {row : RuleRow}
      {destinations : List (ChildRow Cell)} {destination : ChildRow Cell} {fault : Fault}
      (hrow : l.Lists onlyEnabled row) (hdestinations : l.destinations = some destinations)
      (hdestination : destination ∈ destinations) (howner : destination.owner = row.id)
      (h : prefixOfCell destination.value = .error fault) :
      Struck first second l (.list onlyEnabled)
  /-- A message type of a listed rule is none. -/
  | unreadableIcmpType {onlyEnabled : Bool} {row : RuleRow} {types : List (ChildRow Cell)}
      {type : ChildRow Cell} {fault : Fault} (hrow : l.Lists onlyEnabled row)
      (htypes : l.icmpTypes = some types) (htype : type ∈ types) (howner : type.owner = row.id)
      (h : icmpTypeOfCell type.value = .error fault) : Struck first second l (.list onlyEnabled)
  /-- The row of the defaults is no defaults. -/
  | unreadableDefaults {rows : List DefaultsRow} {row : DefaultsRow} {fault : Fault}
      (hrows : l.defaults = some rows)
      (hrow : rows.find? (fun row => row.id == defaultsId) = some row)
      (h : row.defaults? = .error fault) : Struck first second l .readDefaults
  /-- The role of a user is no text. -/
  | unreadableRole {rows : List UserRow} {row : UserRow} {name : String} {fault : Fault}
      (hrows : l.users = some rows)
      (hrow : rows.find? (fun row => row.name == some (.text name)) = some row)
      (h : textOfCell 0 "role" row.role = .error fault) : Struck first second l (.lookUpRole name)
  /-- One of the last rows of the journal is no event. -/
  | unreadableEvent {t : JournalTable} {limit : Nat} {row : JournalRow} {fault : Fault}
      (ht : l.journal = some t) (hrow : row ∈ t.rows.reverse.take limit)
      (h : row.event? = .error fault) : Struck first second l (.recent limit)
  /-- The time is over before the call has looked at the clock for the last time. -/
  | late {c : Call} {left : Nat} (hleft : first.looks = some left) (h : left < c.checks l) :
      Struck first second l c
  /-- The time is over while missing defaults are supplied. -/
  | lateAgain {left : Nat} (hmissing : defaultsRow l = .ok none)
      (hleft : second.looks = some left) (h : left < 4) : Struck first second l .readDefaults

end Call

/-- Defaults that cannot be read are not supplied either. -/
theorem readDefaults_of_error {l : Ledger} {first : Deadline}
    (h : ∃ e, loadDefaults.commit first l = (.error e, l)) (second : Deadline) :
    ∃ e, readDefaultsWithin first second l = (.error e, l) := by
  obtain ⟨e, hfail⟩ := h
  exact ⟨e, by unfold readDefaultsWithin; rw [hfail]⟩

/-- The transaction that looks for the defaults changes nothing, so if they have to be supplied,
the other one begins with the same ledger. -/
theorem readDefaults_ends (first second : Deadline) (l : Ledger) :
    (∃ e, readDefaultsWithin first second l = (.error e, l)) ∨
      (∃ d, defaultsRow l = .ok (some d) ∧ readDefaultsWithin first second l = (.ok d, l)) ∨
      defaultsRow l = .ok none ∧
        readDefaultsWithin first second l = seedDefaults.commit second l := by
  unfold readDefaultsWithin
  rcases commit_ends loadDefaults first l with ⟨e, hfail⟩ | ⟨found, w, -, hrun, -, hdone⟩
  · exact Or.inl ⟨e, by rw [hfail]⟩
  · obtain ⟨hrow, hledger⟩ := query_eq_ok hrun
    rw [hledger] at hdone
    right
    cases found with
    | some d => exact Or.inl ⟨d, hrow, by rw [hdone]⟩
    | none => exact Or.inr ⟨hrow, by rw [hdone]⟩

theorem commit_error_snd {α : Type} (t : Transaction α) (d : Deadline) {l : Ledger} {e : Failure}
    (h : (t.commit d l).1 = .error e) : (t.commit d l).2 = l := by
  rcases commit_ends t d l with ⟨_, hfail⟩ | ⟨a, w, -, -, -, hdone⟩
  · rw [hfail]
  · rw [hdone] at h
    cases h

/-- A call that fails leaves the ledger as it was. -/
theorem run_error_snd {c : Call} (hc : c ≠ .reopen) {first second : Deadline} {l : Ledger}
    {e : Failure} (h : (c.run first second l).1 = .error e) : (c.run first second l).2 = l := by
  cases c with
  | readDefaults =>
      change (readDefaultsWithin first second l).1 = _ at h
      show (readDefaultsWithin first second l).2 = _
      rcases readDefaults_ends first second l with ⟨_, hfail⟩ | ⟨d, -, hdone⟩ | ⟨-, hseed⟩
      · rw [hfail]
      · rw [hdone]
      · rw [hseed] at h ⊢
        exact commit_error_snd _ _ h
  | reopen => exact absurd rfl hc
  | _ => exact commit_error_snd _ _ h

/-- A call that cannot do without a table fails where it is missing. -/
theorem run_missing {c : Call} {table : Table} {l : Ledger} (ht : table ∈ c.tables)
    (h : l.size? table = none) (first second : Deadline) :
    ∃ e, c.run first second l = (.error e, l) := by
  cases c with
  | create r => exact (demands_storeRule ht l h).commit first
  | delete id => exact (demands_delete id ht l h).commit first
  | setDefaults d =>
      obtain rfl := List.mem_singleton.mp ht
      exact (demands_statement changes_writeDefaults l h).commit first
  | replaceAll d rules => exact (demands_replaceAll d rules ht l h).commit first
  | readDefaults =>
      obtain rfl := List.mem_singleton.mp ht
      exact readDefaults_of_error ((fails_query (bind_need_missing h)).commit first) second
  | list onlyEnabled =>
      obtain rfl := List.mem_singleton.mp ht
      exact (fails_query (bind_need_missing h)).bind.commit first
  | lookUpRole name =>
      obtain rfl := List.mem_singleton.mp ht
      exact (fails_query (bind_need_missing h)).commit first
  | append e =>
      obtain rfl := List.mem_singleton.mp ht
      exact (demands_statement changes_appendRow l h).commit first
  | recent limit =>
      obtain rfl := List.mem_singleton.mp ht
      exact (fails_query (bind_need_missing h)).commit first
  | reopen => cases ht

/-- A call that would have to look at the clock once more than there is time fails. -/
theorem run_late {c : Call} {first : Deadline} {left : Nat} {l : Ledger}
    (hleft : first.looks = some left) (h : left < c.checks l) (second : Deadline) :
    ∃ e, c.run first second l = (.error e, l) := by
  cases c with
  | create r => exact (takes_storeRule r l).commit hleft h
  | delete id =>
      have htakes : Takes 5 (delete id) l :=
        takes_bind (takes_keepOnly _ _) fun _ _ _ _ => takes_statement _ _
      exact htakes.commit hleft h
  | setDefaults d => exact (takes_statement _ l).commit hleft h
  | replaceAll d rules => exact (takes_replaceAll d rules l).commit hleft h
  | readDefaults =>
      exact readDefaults_of_error ((takes_query defaultsRow l).commit hleft h) second
  | list onlyEnabled =>
      cases hrules : ruleRows onlyEnabled l with
      | error fault =>
          have hfails : Fails (list onlyEnabled) l :=
            fails_bind_query fun rules hread => by
              rw [hrules] at hread
              cases hread
          exact hfails.commit first
      | ok rules =>
          simp only [Call.checks, hrules] at h
          exact (takes_list onlyEnabled hrules).commit hleft h
  | lookUpRole name => exact (takes_query _ l).commit hleft h
  | append e => exact (takes_statement _ l).commit hleft h
  | recent limit => exact (takes_query _ l).commit hleft h
  | reopen => exact absurd h (Nat.not_lt_zero _)

theorem run_late_again {second : Deadline} {left : Nat} {l : Ledger}
    (hmissing : defaultsRow l = .ok none) (hleft : second.looks = some left) (h : left < 4)
    (first : Deadline) : ∃ e, Call.readDefaults.run first second l = (.error e, l) := by
  show ∃ e, readDefaultsWithin first second l = (.error e, l)
  rcases readDefaults_ends first second l with hfail | ⟨d, hrow, -⟩ | ⟨-, hseed⟩
  · exact hfail
  · rw [hmissing] at hrow
    cases hrow
  · rw [hseed]
    exact (takes_seedDefaults hmissing).commit hleft h

/-- The call is struck, so it fails. -/
theorem Call.Struck.run {c : Call} {first second : Deadline} {l : Ledger}
    (h : c.Struck first second l) : ∃ e, c.run first second l = (.error e, l) := by
  cases h with
  | zeroPort h => exact (fails_storeRule_zero h l).commit first
  | zeroPortAmong hr h => exact (fails_replaceAll_zero _ hr h l).commit first
  | noNumber ht h => exact (fails_storeRule_full ht h _).commit first
  | tooFewNumbers ht hcount hbound h =>
      exact (fails_replaceAll_full _ ht hcount hbound h).commit first
  | missing ht h => exact run_missing ht h first second
  | missingParts hrow ht h =>
      exact (fails_list hrow fun r _ => fails_complete (parts_missing ht h r.id)).commit first
  | unreadableRule hrow h =>
      refine (fails_list hrow fun r hr => ?_).commit first
      rw [h] at hr
      cases hr
  | unreadablePort hrow hports hport howner h =>
      refine (fails_list hrow fun r hr => fails_complete (Or.inl ?_)).commit first
      rw [id_of_rule? hr]
      exact partOf_unreadable hports hport howner h
  | unreadableSource hrow hsources hsource howner h =>
      refine (fails_list hrow fun r hr => fails_complete (Or.inr (Or.inl ?_))).commit first
      rw [id_of_rule? hr]
      exact partOf_unreadable hsources hsource howner h
  | unreadableDestination hrow hdestinations hdestination howner h =>
      refine (fails_list hrow fun r hr =>
        fails_complete (Or.inr (Or.inr (Or.inl ?_)))).commit first
      rw [id_of_rule? hr]
      exact partOf_unreadable hdestinations hdestination howner h
  | unreadableIcmpType hrow htypes htype howner h =>
      refine (fails_list hrow fun r hr =>
        fails_complete (Or.inr (Or.inr (Or.inr ?_)))).commit first
      rw [id_of_rule? hr]
      exact partOf_unreadable htypes htype howner h
  | unreadableDefaults hrows hrow h =>
      have hfails := fails_query (defaultsRow_unreadable hrows hrow h)
      exact readDefaults_of_error (hfails.commit first) second
  | unreadableRole hrows hrow h =>
      exact (fails_query (roleOf_unreadable hrows hrow h)).commit first
  | unreadableEvent ht hrow h =>
      exact (fails_query (lastEvents_unreadable ht hrow h)).commit first
  | late hleft h => exact run_late hleft h second
  | lateAgain hmissing hleft h => exact run_late_again hmissing hleft h first

/-- Whatever the ledger is like, a call that fails leaves every table and every count as it was;
and it does fail, whichever of its statements or of its looks at the clock the cause strikes: a
port zero, too few numbers, a table that is missing, a row that cannot be read, or too little
time. -/
theorem failed_calls_change_nothing (c : Call) (hc : c ≠ .reopen) (first second : Deadline)
    (l : Ledger) :
    (∀ e, (c.run first second l).1 = .error e → (c.run first second l).2 = l) ∧
      (c.Struck first second l → ∃ e, c.run first second l = (.error e, l)) :=
  ⟨fun _ h => run_error_snd hc h, Call.Struck.run⟩

/-- A ledger with one rule. -/
def oneRuleLedger : Ledger :=
  ((Call.create { (default : Rule) with ports := [22] }).run (.distant .zero) (.distant .zero)
    openBlank).2

/-- Two rules, of which the second has a port zero. -/
def spoiledRules : List Rule :=
  [{ (default : Rule) with ports := [22, 80] }, { (default : Rule) with ports := [443, 0] }]

/-- A replacement that has removed a rule and stored another one before it comes upon a port
zero. -/
theorem spoiledRules_change_nothing :
    Call.replaceAll .initial spoiledRules ≠ .reopen ∧
      (Call.replaceAll .initial spoiledRules).Struck (.distant .zero) (.distant .zero)
        oneRuleLedger ∧
      ∃ e, (Call.replaceAll .initial spoiledRules).run (.distant .zero) (.distant .zero)
        oneRuleLedger = (.error e, oneRuleLedger) := by
  have hc : Call.replaceAll .initial spoiledRules ≠ .reopen := nofun
  have hstruck : (Call.replaceAll .initial spoiledRules).Struck (.distant .zero) (.distant .zero)
      oneRuleLedger :=
    .zeroPortAmong (List.mem_cons_of_mem _ List.mem_cons_self) (by decide)
  exact ⟨hc, hstruck, (failed_calls_change_nothing _ hc _ _ oneRuleLedger).2 hstruck⟩

/-- The checks are counted as they are made: these rules can take the place of all others with as
many looks at the clock as that, and not with one less. -/
example :
    let rules := [{ (default : Rule) with ports := [22, 80] }, default]
    let checks := (Call.replaceAll .initial rules).checks oneRuleLedger
    ((replaceAll .initial rules).commit ⟨.zero, some checks⟩ oneRuleLedger).1.toOption =
        some [2, 3] ∧
      ((replaceAll .initial rules).commit ⟨.zero, some (checks - 1)⟩ oneRuleLedger).1.toOption =
        none := by
  decide +kernel

end Ledger
end PacketPolicy
