import PacketPolicy.Proofs.Ledger.Effects

/-!
# What transactions read from the tables

The transactions that read a policy, as functions of its tables.

* `Reads` -- a transaction that leaves the ledger as it is, and what it reads;
* `PolicyTables.listed` -- the rules that `list` finds; `reads_list`;
* `PolicyTables.loaded` -- the defaults that `loadDefaults` finds; `yields_seedDefaults_none` says
  when the initial ones take their place.
-/

namespace PacketPolicy
namespace Ledger

open Transaction

namespace Transaction

variable {α β : Type} {l : Ledger}

/-- Begun with the ledger `l`, the transaction leaves it as it is and ends with `x`. -/
def Reads (t : Transaction α) (l : Ledger) (x : Except Fault α) : Prop :=
  Yields t l (x.map fun a => (a, l))

theorem reads_pure (a : α) (l : Ledger) : Reads (pure a) l (.ok a) :=
  yields_pure a l

theorem reads_query (f : Ledger → Except Fault α) (l : Ledger) : Reads (query f) l (f l) :=
  yields_query f l

theorem reads_bind {t : Transaction α} {k : α → Transaction β} {x : Except Fault α}
    {y : α → Except Fault β} (ht : Reads t l x) (hk : ∀ a, Reads (k a) l (y a)) :
    Reads (t >>= k) l (x >>= y) := by
  cases x with
  | ok a => exact yields_bind_ok ht (hk a)
  | error fault => exact yields_bind_error ht

/-- A transaction that reads is late or ends with what it reads; the ledger stays as it is. -/
theorem commit_of_reads {t : Transaction α} {x : Except Fault α} (h : Reads t l x) (d : Deadline) :
    t.commit d l = (.error (.overdue d.budget), l) ∨ t.commit d l = (x.mapError .ledger, l) := by
  rcases commit_of_yields h d with hlate | hdone
  · exact Or.inl hlate
  · right
    rw [hdone]
    cases x <;> rfl

theorem commit_of_reads_untimed {t : Transaction α} {x : Except Fault α} (h : Reads t l x)
    {d : Deadline} (hd : d.Untimed) : t.commit d l = (x.mapError .ledger, l) := by
  rw [commit_eq_of_untimed h hd]
  cases x <;> rfl

end Transaction

variable {l : Ledger} {t : PolicyTables}

namespace PolicyTables

/-- A rule with what belongs to it. -/
def completed (t : PolicyTables) (r : Rule) : Except Fault Rule := do
  let ports ← (valuesOf r.id t.ports).mapM portOfCell
  let sources ← (valuesOf r.id t.sources).mapM prefixOfCell
  let destinations ← (valuesOf r.id t.destinations).mapM prefixOfCell
  let icmpTypes ← (valuesOf r.id t.icmpTypes).mapM icmpTypeOfCell
  return { r with ports, sources, destinations, icmpTypes }

/-- Rules with what belongs to them. -/
def completedAll (t : PolicyTables) : List Rule → Except Fault (List Rule)
  | [] => return []
  | r :: rest => do
      let r ← t.completed r
      let rules ← t.completedAll rest
      return r :: rules

/-- The rows of the rules that are asked for, in ascending order of their numbers. -/
def selectedRows (onlyEnabled : Bool) (t : PolicyTables) : List RuleRow :=
  (if onlyEnabled then t.rules.rows.filter fun row => row.enabled == truthCell true
    else t.rules.rows).mergeSort fun a b => a.id ≤ b.id

/-- The rules that are asked for. -/
def listed (onlyEnabled : Bool) (t : PolicyTables) : Except Fault (List Rule) := do
  let rules ← (t.selectedRows onlyEnabled).mapM RuleRow.rule?
  t.completedAll rules

/-- The row of the defaults. -/
def defaultsRow? (t : PolicyTables) : Option DefaultsRow :=
  t.defaults.find? fun row => row.id == defaultsId

/-- The defaults, if their row is there. -/
def loaded (t : PolicyTables) : Except Fault (Option Defaults) :=
  match t.defaultsRow? with
  | some row => row.defaults?.map some
  | none => .ok none

end PolicyTables

/-! ## Rules -/

theorem reads_complete (r : Rule) : Reads (complete r) (l.withTables t) (t.completed r) := by
  refine reads_bind (reads_query _ _) fun ports => ?_
  refine reads_bind (reads_query _ _) fun sources => ?_
  refine reads_bind (reads_query _ _) fun destinations => ?_
  refine reads_bind (reads_query _ _) fun icmpTypes => ?_
  exact reads_pure _ _

theorem reads_completeAll (rules : List Rule) :
    Reads (completeAll rules) (l.withTables t) (t.completedAll rules) := by
  induction rules with
  | nil => exact reads_pure _ _
  | cons r rest ih =>
      refine reads_bind (reads_complete r) fun r => ?_
      exact reads_bind ih fun rules => reads_pure _ _

/-- `list` finds the rules that its rows stand for. -/
theorem reads_list (onlyEnabled : Bool) :
    Reads (list onlyEnabled) (l.withTables t) (t.listed onlyEnabled) :=
  reads_bind (reads_query _ _) fun rules => reads_completeAll rules

/-! ## Defaults -/

@[simp]
theorem nameOfColumn_name {α : Type} [Named α] (column : Nat) (a : α) :
    nameOfColumn column (Named.name a) = .ok a := by
  simp [nameOfColumn]

@[simp]
theorem nameOfCell_name {α : Type} [Named α] (column : Nat) (name : String) (a : α) :
    nameOfCell column name (.text (Named.name a)) = .ok a :=
  nameOfColumn_name column a

/-- Defaults are read back from their row. -/
theorem defaults?_ofDefaults (d : Defaults) : (DefaultsRow.ofDefaults d).defaults? = .ok d := by
  simp only [DefaultsRow.defaults?, DefaultsRow.ofDefaults, nameOfCell_name]
  rfl

theorem defaultsRow_withTables : defaultsRow (l.withTables t) = t.loaded := by
  show (match t.defaultsRow? with
    | some row => (row.defaults? >>= fun d => .ok (some d))
    | none => .ok none) = _
  unfold PolicyTables.loaded
  cases t.defaultsRow? with
  | none => rfl
  | some row => cases row.defaults? <;> rfl

theorem reads_loadDefaults {x : Except Fault (Option Defaults)} (h : t.loaded = x) :
    Reads loadDefaults (l.withTables t) x := by
  rw [← h, ← defaultsRow_withTables (l := l)]
  exact reads_query _ _

/-- Where the row of the defaults is there, it decides. -/
theorem yields_seedDefaults_some {d : Defaults} (h : t.loaded = .ok (some d)) :
    Yields seedDefaults (l.withTables t) (.ok (d, l.withTables t)) :=
  yields_bind_ok (reads_loadDefaults h) (yields_pure _ _)

/-- Where it is missing, the initial defaults are stored in its place. -/
theorem yields_seedDefaults_none (h : t.loaded = .ok none) :
    Yields seedDefaults (l.withTables t) (.ok (.initial, l.withTables (t.overwrite .initial))) := by
  refine yields_bind_ok (reads_loadDefaults h) ?_
  exact yields_bind_ok (yields_setDefaults .initial) (yields_pure _ _)

end Ledger
end PacketPolicy
