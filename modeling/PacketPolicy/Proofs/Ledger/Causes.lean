import PacketPolicy.Proofs.Ledger.Effects
import PacketPolicy.Proofs.Ledger.Footprints
import PacketPolicy.Proofs.Ledger.Numbers

/-!
# Why transactions fail

A transaction fails on a ledger if one of its statements does, wherever this stands and whatever
the ones before it have made of the ledger.  What can be wrong is a matter of a ledger, not of a
deadline.

* `Transaction.Fails` -- a transaction that fails on a ledger under every deadline;
* `fails_bind`, `fails_statement`, `fails_query`, `fails_each` -- how a failure of a part becomes
  one of the whole;
* `Transaction.Demands` -- a transaction that fails wherever a table is missing: no statement in
  front of the one that needs the table can supply it, as `Footprint` says;
* `fails_storeRules_zero`, `fails_storeRules_full` -- ports zero, and numbers that run out;
* `fails_list`, `defaultsRow_unreadable`, `roleOf_unreadable`, `lastEvents_unreadable` -- rows that
  stand for nothing.
-/

namespace PacketPolicy
namespace Ledger

open Transaction

/-! ## Transactions that fail -/

namespace Transaction

variable {α β : Type} {l : Ledger}

/-- Begun with the ledger `l`, the transaction fails under every deadline. -/
def Fails (t : Transaction α) (l : Ledger) : Prop :=
  ∀ d, ∃ e, t ⟨l, d⟩ = .error e

theorem Fails.of_not_ok {t : Transaction α} (h : ∀ d a w, t ⟨l, d⟩ ≠ .ok (a, w)) : Fails t l := by
  intro d
  cases hrun : t ⟨l, d⟩ with
  | error e => exact ⟨e, rfl⟩
  | ok p => exact absurd hrun (h d p.1 p.2)

theorem Fails.not_ok {t : Transaction α} (h : Fails t l) (d : Deadline) (a : α) (w : Work) :
    t ⟨l, d⟩ ≠ .ok (a, w) := by
  obtain ⟨e, hfail⟩ := h d
  rw [hfail]
  exact nofun

theorem Fails.bind {t : Transaction α} {k : α → Transaction β} (h : Fails t l) :
    Fails (t >>= k) l := by
  refine .of_not_ok fun d b w hrun => ?_
  obtain ⟨a, w', hfirst, -⟩ := bind_eq_ok hrun
  exact h.not_ok d a w' hfirst

/-- It is enough that what follows fails wherever the first part may lead to. -/
theorem fails_bind {t : Transaction α} {k : α → Transaction β}
    (h : ∀ d a w, t ⟨l, d⟩ = .ok (a, w) → Fails (k a) w.ledger) : Fails (t >>= k) l := by
  refine .of_not_ok fun d b w hrun => ?_
  obtain ⟨a, w', hfirst, hrest⟩ := bind_eq_ok hrun
  exact (h d a w' hfirst).not_ok w'.deadline b w hrest

theorem fails_statement {f : Ledger → Except Fault (α × Ledger)} (h : ∀ p, f l ≠ .ok p) :
    Fails (statement f) l :=
  .of_not_ok fun _ _ _ hrun => h _ (statement_eq_ok hrun).1

theorem fails_bind_statement {f : Ledger → Except Fault (α × Ledger)} {k : α → Transaction β}
    (h : ∀ a m, f l = .ok (a, m) → Fails (k a) m) : Fails (statement f >>= k) l :=
  fails_bind fun _ _ _ hrun => h _ _ (statement_eq_ok hrun).1

theorem fails_query {f : Ledger → Except Fault α} (h : ∀ a, f l ≠ .ok a) : Fails (query f) l :=
  .of_not_ok fun _ _ _ hrun => h _ (query_eq_ok hrun).1

theorem fails_bind_query {f : Ledger → Except Fault α} {k : α → Transaction β}
    (h : ∀ a, f l = .ok a → Fails (k a) l) : Fails (query f >>= k) l := by
  refine fails_bind fun d a w hrun => ?_
  obtain ⟨hread, hledger⟩ := query_eq_ok hrun
  rw [hledger]
  exact h a hread

/-- One item with which no ledger can cope ends a loop. -/
theorem fails_each {f : α → Transaction Unit} {items : List α} {a : α} (ha : a ∈ items)
    (hf : ∀ l, Fails (f a) l) (l : Ledger) : Fails (each f items) l := by
  induction items generalizing l with
  | nil => cases ha
  | cons b rest ih =>
      rcases List.mem_cons.mp ha with rfl | hrest
      · exact (hf l).bind
      · exact fails_bind fun _ _ w _ => ih hrest w.ledger

/-- What fails has no effect. -/
theorem Fails.commit {t : Transaction α} (h : Fails t l) (d : Deadline) :
    ∃ e, t.commit d l = (.error e, l) := by
  rcases commit_ends t d l with hfail | ⟨a, w, -, hrun, -⟩
  · exact hfail
  · exact absurd hrun (h.not_ok _ a w)

/-! ## Missing tables -/

/-- The transaction fails on every ledger that has no such table. -/
def Demands (table : Table) (t : Transaction α) : Prop :=
  ∀ l : Ledger, l.size? table = none → Fails t l

variable {table : Table} {tables : List Table}

theorem Demands.bind {t : Transaction α} {k : α → Transaction β} (h : Demands table t) :
    Demands table (t >>= k) :=
  fun l hl => (h l hl).bind

/-- A table that is missing is still missing for what follows. -/
theorem demands_bind {t : Transaction α} {k : α → Transaction β} (ht : Footprint tables t)
    (hk : ∀ a, Demands table (k a)) : Demands table (t >>= k) :=
  fun l hl => fails_bind fun d a w hrun =>
    hk a w.ledger ((ht ⟨l, d⟩ a w hrun).missing hl)

theorem demands_each {f : α → Transaction Unit} {items : List α} (hitems : items ≠ [])
    (hf : ∀ a, Demands table (f a)) : Demands table (each f items) := by
  cases items with
  | nil => exact absurd rfl hitems
  | cons a rest => exact (hf a).bind

/-- One item for which the table is needed is enough, as the others do not supply it. -/
theorem demands_each_of_mem {f : α → Transaction Unit} {items : List α} {a : α} (ha : a ∈ items)
    (hf : Demands table (f a)) (hothers : ∀ b, Footprint tables (f b)) :
    Demands table (each f items) := by
  induction items with
  | nil => cases ha
  | cons b rest ih =>
      rcases List.mem_cons.mp ha with rfl | hrest
      · exact hf.bind
      · exact demands_bind (hothers b) fun _ => ih hrest

theorem demands_statement {f : Ledger → Except Fault (α × Ledger)}
    (hf : ∀ {l a m}, f l = .ok (a, m) → Changes table l m) : Demands table (statement f) := by
  refine fun l hl => fails_statement fun p hp => ?_
  have hthere := (hf hp).there
  rw [hl] at hthere
  cases hthere

theorem demands_changePart (part : Part)
    (f : List (ChildRow Cell) → Except Fault (List (ChildRow Cell))) :
    Demands part.table (statement (changePart part f)) :=
  demands_statement changes_changePart

end Transaction

/-- What a rule needs tables for: its row and everything that belongs to it. -/
def tablesFor (r : Rule) : List Table :=
  .rules ::
    ((if r.ports = [] then [] else [.ports]) ++
    (if r.sources = [] then [] else [.sources]) ++
    (if r.destinations = [] then [] else [.destinations]) ++
    (if r.icmpTypes = [] then [] else [.icmpTypes]))

theorem demands_storeRule {r : Rule} {table : Table} (h : table ∈ tablesFor r) :
    Demands table (storeRule r) := by
  rcases List.mem_cons.mp h with rfl | hpart
  · exact (demands_statement changes_insertRule).bind
  refine demands_bind (footprint_statement changes_insertRule) fun id => ?_
  simp only [List.mem_append, List.mem_ite_nil_left, List.mem_singleton] at hpart
  rcases hpart with ((⟨hports, rfl⟩ | ⟨hsources, rfl⟩) | ⟨hdestinations, rfl⟩) | ⟨hicmp, rfl⟩
  · exact (demands_each hports fun _ => demands_changePart .ports _).bind
  all_goals refine demands_bind (footprint_each _ fun _ =>
    footprint_changePart .ports _) fun _ => ?_
  · exact (demands_each hsources fun _ => demands_changePart .sources _).bind
  all_goals refine demands_bind (footprint_each _ fun _ =>
    footprint_changePart .sources _) fun _ => ?_
  · exact (demands_each hdestinations fun _ => demands_changePart .destinations _).bind
  refine demands_bind (footprint_each _ fun _ => footprint_changePart .destinations _) fun _ => ?_
  exact (demands_each hicmp fun _ => demands_changePart .icmpTypes _).bind

theorem demands_keepOnly {keep : Option Int64 → Bool} {table : Table} (h : table ∈ Table.ofParts) :
    Demands table (keepOnly keep) := by
  obtain ⟨part, hpart, rfl⟩ := List.mem_map.mp h
  exact demands_each_of_mem hpart (demands_changePart part _) fun other =>
    footprint_changePart other _

theorem demands_delete (id : Int64) {table : Table} (h : table ∈ .rules :: Table.ofParts) :
    Demands table (delete id) := by
  rcases List.mem_cons.mp h with rfl | hpart
  · exact demands_bind (footprint_keepOnly _) fun _ =>
      demands_statement changes_deleteRule
  · exact (demands_keepOnly hpart).bind

theorem demands_replaceAll (d : Defaults) (rules : List Rule) {table : Table}
    (h : table ∈ Table.ofPolicy) : Demands table (replaceAll d rules) := by
  rcases List.mem_cons.mp h with rfl | h
  · exact (demands_statement changes_writeDefaults).bind
  refine demands_bind (footprint_statement changes_writeDefaults) fun _ => ?_
  rcases List.mem_cons.mp h with rfl | hpart
  · refine demands_bind (footprint_keepOnly _) fun _ => ?_
    exact (demands_statement changes_clearRules).bind
  · exact (demands_keepOnly hpart).bind

/-! ## The port zero -/

theorem fails_storeRule_zero {r : Rule} (h : 0 ∈ r.ports) (l : Ledger) : Fails (storeRule r) l := by
  refine fails_bind_statement fun id m _ => (fails_each h (fun l => ?_) m).bind
  refine fails_statement fun p hp => ?_
  obtain ⟨rows, -, hp⟩ := bind_eq_ok_iff.mp hp
  cases hp

/-- One rule with a port zero spoils them all, whatever has been stored before it. -/
theorem fails_storeRules_zero {rules : List Rule} {r : Rule} (hr : r ∈ rules) (h : 0 ∈ r.ports)
    (l : Ledger) : Fails (storeRules rules) l := by
  induction rules generalizing l with
  | nil => cases hr
  | cons q rest ih =>
      rcases List.mem_cons.mp hr with rfl | hrest
      · exact (fails_storeRule_zero h l).bind
      · exact fails_bind fun _ _ w _ => (ih hrest w.ledger).bind

theorem fails_replaceAll_zero (d : Defaults) {rules : List Rule} {r : Rule} (hr : r ∈ rules)
    (h : 0 ∈ r.ports) (l : Ledger) : Fails (replaceAll d rules) l := by
  refine fails_bind fun _ _ _ _ => fails_bind fun _ _ _ _ => fails_bind fun _ _ w _ => ?_
  exact fails_storeRules_zero hr h w.ledger

/-! ## Numbers that run out -/

theorem fails_storeRule_full {l : Ledger} {t : RuleTable} (ht : l.rules = some t)
    (h : greatestId ≤ t.greatest) (r : Rule) : Fails (storeRule r) l := by
  refine Fails.bind (fails_statement fun p hp => ?_)
  obtain ⟨found, hfound, hp⟩ := bind_eq_ok_iff.mp hp
  obtain rfl : t = found := Option.some.inj (ht.symm.trans (need_eq_ok_iff.mp hfound))
  rw [next?_eq_full (by omega)] at hp
  cases hp

/-- A rule that has been stored has taken the next number. -/
theorem greatest_of_storeRule {r : Rule} {l : Ledger} {t : RuleTable} {d : Deadline} {id : Int64}
    {w : Work} (hrun : storeRule r ⟨l, d⟩ = .ok (id, w)) (ht : l.rules = some t)
    (hcount : 0 ≤ t.greatest) :
    ∃ after, w.ledger.rules = some after ∧ after.greatest = t.greatest + 1 := by
  obtain ⟨id', w', hrow, hparts⟩ := bind_eq_ok hrun
  obtain ⟨found, hfound, hp⟩ := bind_eq_ok_iff.mp (statement_eq_ok hrow).1
  obtain rfl : t = found := Option.some.inj (ht.symm.trans (need_eq_ok_iff.mp hfound))
  obtain ⟨next, hnext, hp⟩ := bind_eq_ok_iff.mp hp
  -- what belongs to the rule is stored in other tables
  have hsame := (footprint_storeParts id' r w' id w hparts).outside .rules (by decide)
  have hledger := congrArg (fun p : Int64 × Ledger => p.2.rules) (Except.ok.inj hp)
  refine ⟨_, Eq.trans hsame hledger.symm, ?_⟩
  rw [RuleTable.greatest_push]
  by_cases hroom : t.greatest < greatestId
  · rw [next?_eq_ok hroom] at hnext
    obtain rfl := Except.ok.inj hnext
    have hvalue : (Int64.ofInt (t.greatest + 1)).toInt = t.greatest + 1 := by
      unfold greatestId at hroom
      exact Int64.toInt_ofInt_of_le (by omega) (by omega)
    show max t.greatest (Int64.ofInt (t.greatest + 1)).toInt = _
    rw [hvalue]
    omega
  · rw [next?_eq_full hroom] at hnext
    cases hnext

/-- As each rule takes a number, too many of them cannot all be stored. -/
theorem fails_storeRules_full {rules : List Rule} {l : Ledger} {t : RuleTable}
    (ht : l.rules = some t) (hcount : 0 ≤ t.greatest) (hbound : t.greatest ≤ greatestId)
    (h : greatestId < t.greatest + rules.length) : Fails (storeRules rules) l := by
  induction rules generalizing l t with
  | nil =>
      rw [List.length_nil] at h
      omega
  | cons r rest ih =>
      rw [List.length_cons] at h
      by_cases hroom : t.greatest < greatestId
      · refine fails_bind fun d id w hrun => ?_
        obtain ⟨after, hafter, hgreatest⟩ := greatest_of_storeRule hrun ht hcount
        exact (ih hafter (by omega) (by omega) (by omega)).bind
      · exact (fails_storeRule_full ht (by omega) r).bind

theorem fails_replaceAll_full {l : Ledger} {t : RuleTable} (d : Defaults) {rules : List Rule}
    (ht : l.rules = some t) (hcount : 0 ≤ t.highest) (hbound : t.highest ≤ greatestId)
    (h : greatestId < t.highest + rules.length) : Fails (replaceAll d rules) l := by
  refine fails_bind fun d₁ _ w₁ hdefaults => fails_bind fun d₂ _ w₂ hparts => ?_
  refine fails_bind_statement fun _ m hclear => ?_
  -- neither the defaults nor what belongs to rules is in the table of rules
  have hfirst : Same l w₁.ledger .rules :=
    (changes_writeDefaults (statement_eq_ok hdefaults).1).agree.outside .rules (by decide)
  have hsecond : Same w₁.ledger w₂.ledger .rules :=
    (footprint_keepOnly _ _ _ _ hparts).outside .rules (by decide)
  have hrules : w₂.ledger.rules = some t := Eq.trans hsecond (Eq.trans hfirst ht)
  obtain ⟨found, hfound, hclear⟩ := bind_eq_ok_iff.mp hclear
  obtain rfl : t = found := Option.some.inj (hrules.symm.trans (need_eq_ok_iff.mp hfound))
  cases hclear
  exact fails_storeRules_full (t := { t with rows := [] }) rfl hcount hbound h

/-! ## Rows that stand for nothing -/

/-- Among the rows that are asked for there is one, with its rule's number `id`. -/
def Lists (l : Ledger) (onlyEnabled : Bool) (row : RuleRow) : Prop :=
  ∃ t, l.rules = some t ∧ row ∈ t.rows ∧ (onlyEnabled = true → row.enabled = truthCell true)

theorem rule?_of_lists {l : Ledger} {onlyEnabled : Bool} {row : RuleRow} {rules : List Rule}
    (hrow : l.Lists onlyEnabled row) (hrules : ruleRows onlyEnabled l = .ok rules) :
    ∃ r ∈ rules, row.rule? = .ok r := by
  obtain ⟨t, ht, hmem, henabled⟩ := hrow
  obtain ⟨found, hfound, hrules⟩ := bind_eq_ok_iff.mp hrules
  obtain rfl : t = found := Option.some.inj (ht.symm.trans (need_eq_ok_iff.mp hfound))
  have hselected : row ∈ (if onlyEnabled then
      t.rows.filter fun row => row.enabled == truthCell true else t.rows).mergeSort
        fun a b => a.id ≤ b.id := by
    rw [List.mem_mergeSort]
    cases onlyEnabled with
    | false => exact hmem
    | true => exact List.mem_filter.mpr ⟨hmem, beq_iff_eq.mpr (henabled rfl)⟩
  exact exists_of_mapM_eq_ok hrules hselected

theorem id_of_rule? {row : RuleRow} {r : Rule} (h : row.rule? = .ok r) : r.id = row.id := by
  unfold RuleRow.rule? at h
  simp only [bind_eq_ok_iff] at h
  obtain ⟨chain, -, protocol, -, action, -, inInterface, -, outInterface, -, comment, -, enabled,
    -, heq⟩ := h
  cases heq
  rfl

theorem footprint_complete (r : Rule) : Footprint [] (complete r) := by
  refine footprint_bind (footprint_query _) fun ports => ?_
  refine footprint_bind (footprint_query _) fun sources => ?_
  refine footprint_bind (footprint_query _) fun destinations => ?_
  refine footprint_bind (footprint_query _) fun icmpTypes => ?_
  exact footprint_pure _

theorem fails_completeAll {l : Ledger} {rules : List Rule} {r : Rule} (hr : r ∈ rules)
    (h : Fails (complete r) l) : Fails (completeAll rules) l := by
  induction rules with
  | nil => cases hr
  | cons q rest ih =>
      rcases List.mem_cons.mp hr with rfl | hrest
      · exact h.bind
      · refine fails_bind fun d a w hrun => ?_
        rw [(footprint_complete q _ _ _ hrun).eq]
        exact (ih hrest).bind

/-- A row whose rule cannot be read, or has parts that cannot be read, ends a listing. -/
theorem fails_list {l : Ledger} {onlyEnabled : Bool} {row : RuleRow}
    (hrow : l.Lists onlyEnabled row)
    (h : ∀ r, row.rule? = .ok r → Fails (complete r) l) : Fails (list onlyEnabled) l := by
  refine fails_bind_query fun rules hrules => ?_
  obtain ⟨r, hr, hread⟩ := rule?_of_lists hrow hrules
  exact fails_completeAll hr (h r hread)

/-- The rows that belong to a row of the rules, if their table is there. -/
theorem fails_complete {l : Ledger} {r : Rule}
    (h : (∀ a, portsOf r.id l ≠ .ok a) ∨ (∀ a, sourcesOf r.id l ≠ .ok a) ∨
      (∀ a, destinationsOf r.id l ≠ .ok a) ∨ ∀ a, icmpTypesOf r.id l ≠ .ok a) :
    Fails (complete r) l := by
  refine fails_bind_query fun ports hports => fails_bind_query fun sources hsources => ?_
  refine fails_bind_query fun destinations hdestinations => fails_bind_query fun icmp hicmp => ?_
  rcases h with h | h | h | h
  · exact absurd hports (h ports)
  · exact absurd hsources (h sources)
  · exact absurd hdestinations (h destinations)
  · exact absurd hicmp (h icmp)

/-- Nothing is read from a table that is missing. -/
theorem bind_need_missing {α β γ : Type} {size : α → γ} {table : Table} {rows : Option α}
    {k : α → Except Fault β} (h : rows.map size = none) (b : β) :
    need table rows >>= k ≠ .ok b := by
  rw [Option.map_eq_none_iff.mp h]
  exact nofun

theorem partOf_missing {α : Type} {l : Ledger} {part : Part} (h : l.size? part.table = none)
    (read : Cell → Except Fault α) (id : Int64) (a : List α) : partOf part read id l ≠ .ok a := by
  rw [size?_table] at h
  exact bind_need_missing h a

theorem parts_missing {l : Ledger} {table : Table} (ht : table ∈ Table.ofParts)
    (h : l.size? table = none) (id : Int64) :
    (∀ a, portsOf id l ≠ .ok a) ∨ (∀ a, sourcesOf id l ≠ .ok a) ∨
      (∀ a, destinationsOf id l ≠ .ok a) ∨ ∀ a, icmpTypesOf id l ≠ .ok a := by
  obtain ⟨part, -, rfl⟩ := List.mem_map.mp ht
  cases part with
  | ports => exact Or.inl (partOf_missing h _ id)
  | sources => exact Or.inr (Or.inl (partOf_missing h _ id))
  | destinations => exact Or.inr (Or.inr (Or.inl (partOf_missing h _ id)))
  | icmpTypes => exact Or.inr (Or.inr (Or.inr (partOf_missing h _ id)))

theorem value_mem_valuesOf {α : Type} {rows : List (ChildRow α)} {row : ChildRow α} {id : Int64}
    (h : row ∈ rows) (howner : row.owner = id) : row.value ∈ valuesOf id rows :=
  List.mem_map_of_mem (List.mem_filter.mpr ⟨h, beq_iff_eq.mpr howner⟩)

/-- What belongs to a rule is not read where one of its values is no such value. -/
theorem partOf_unreadable {α : Type} {l : Ledger} {part : Part} {rows : List (ChildRow Cell)}
    {row : ChildRow Cell} {id : Int64} {read : Cell → Except Fault α} {fault : Fault}
    (hrows : l.rows? part = some rows) (hrow : row ∈ rows) (howner : row.owner = id)
    (h : read row.value = .error fault) (a : List α) : partOf part read id l ≠ .ok a := by
  intro ha
  obtain ⟨found, hfound, ha⟩ := bind_eq_ok_iff.mp ha
  obtain rfl : rows = found := Option.some.inj (hrows.symm.trans (need_eq_ok_iff.mp hfound))
  obtain ⟨b, -, hb⟩ := exists_of_mapM_eq_ok ha (value_mem_valuesOf hrow howner)
  rw [h] at hb
  cases hb

theorem defaultsRow_unreadable {l : Ledger} {rows : List DefaultsRow} {row : DefaultsRow}
    {fault : Fault} (hrows : l.defaults = some rows)
    (hrow : rows.find? (fun row => row.id == defaultsId) = some row)
    (h : row.defaults? = .error fault) (a : Option Defaults) : defaultsRow l ≠ .ok a := by
  intro ha
  obtain ⟨found, hfound, ha⟩ := bind_eq_ok_iff.mp ha
  obtain rfl : rows = found := Option.some.inj (hrows.symm.trans (need_eq_ok_iff.mp hfound))
  rw [hrow] at ha
  obtain ⟨d, hd, -⟩ := bind_eq_ok_iff.mp ha
  rw [h] at hd
  cases hd

theorem roleOf_unreadable {l : Ledger} {rows : List UserRow} {row : UserRow} {name : String}
    {fault : Fault} (hrows : l.users = some rows)
    (hrow : rows.find? (fun row => row.name == some (.text name)) = some row)
    (h : textOfCell 0 "role" row.role = .error fault) (a : Option String) :
    roleOf name l ≠ .ok a := by
  intro ha
  obtain ⟨found, hfound, ha⟩ := bind_eq_ok_iff.mp ha
  obtain rfl : rows = found := Option.some.inj (hrows.symm.trans (need_eq_ok_iff.mp hfound))
  rw [hrow, Option.mapM_some, h] at ha
  cases ha

theorem lastEvents_unreadable {l : Ledger} {t : JournalTable} {row : JournalRow} {limit : Nat}
    {fault : Fault} (ht : l.journal = some t) (hrow : row ∈ t.rows.reverse.take limit)
    (h : row.event? = .error fault) (a : List Event) : lastEvents limit l ≠ .ok a := by
  intro ha
  obtain ⟨found, hfound, ha⟩ := bind_eq_ok_iff.mp ha
  obtain rfl : t = found := Option.some.inj (ht.symm.trans (need_eq_ok_iff.mp hfound))
  obtain ⟨e, -, he⟩ := exists_of_mapM_eq_ok ha hrow
  rw [h] at he
  cases he

end Ledger
end PacketPolicy
