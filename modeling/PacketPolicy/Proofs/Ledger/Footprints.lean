import PacketPolicy.Proofs.Ledger.Timing
import PacketPolicy.Proofs.Results

/-!
# Which tables transactions change

A statement changes one table, and a transaction those that its statements change.  This holds of
every ledger, whatever is missing there and whatever somebody has written into its rows.

* `Agree` -- two ledgers are the same apart from some tables, and none of these has come or gone;
* `Changes` -- what a statement does: it needs a table, and changes this one only;
  `changes_changePart` -- all statements about what belongs to rules do this;
* `Transaction.Footprint` -- the tables outside of which a transaction changes nothing;
* `footprint_pure`, `footprint_bind`, `footprint_statement`, `footprint_each` -- the footprint of
  a transaction, from those of its statements;
* `Table.ofPolicy` -- the tables of a policy, to which the changes of a policy are limited;
  `Table.ofParts` -- those that hold what belongs to its rules;
* `agree_commit` -- what is true of the transaction is true of what it leaves behind.
-/

namespace PacketPolicy
namespace Ledger

/-- The two ledgers have the same in a table. -/
def Same (l m : Ledger) : Table → Prop
  | .defaults => m.defaults = l.defaults
  | .rules => m.rules = l.rules
  | .ports => m.ports = l.ports
  | .sources => m.sources = l.sources
  | .destinations => m.destinations = l.destinations
  | .icmpTypes => m.icmpTypes = l.icmpTypes
  | .users => m.users = l.users
  | .journal => m.journal = l.journal

/-- The two ledgers are the same apart from some tables, and have the same tables. -/
structure Agree (tables : List Table) (l m : Ledger) : Prop where
  versions : m.versions = l.versions
  indexes : m.indexes = l.indexes
  outside : ∀ t ∉ tables, Same l m t
  present : ∀ t, (m.size? t).isSome = (l.size? t).isSome

variable {tables more : List Table} {l m n : Ledger}

theorem Same.refl (l : Ledger) (t : Table) : Same l l t := by
  cases t <;> rfl

theorem Same.trans {t : Table} (hlm : Same l m t) (hmn : Same m n t) : Same l n t := by
  cases t <;> exact Eq.trans hmn hlm

namespace Agree

theorem refl (tables : List Table) (l : Ledger) : Agree tables l l :=
  ⟨rfl, rfl, fun t _ => Same.refl l t, fun _ => rfl⟩

theorem trans (hlm : Agree tables l m) (hmn : Agree tables m n) : Agree tables l n where
  versions := hmn.versions.trans hlm.versions
  indexes := hmn.indexes.trans hlm.indexes
  outside t ht := (hlm.outside t ht).trans (hmn.outside t ht)
  present t := (hmn.present t).trans (hlm.present t)

theorem mono (h : Agree tables l m) (hsub : tables ⊆ more) : Agree more l m where
  versions := h.versions
  indexes := h.indexes
  outside t ht := h.outside t fun hmem => ht (hsub hmem)
  present := h.present

/-- Ledgers that are the same apart from no table at all are the same. -/
theorem eq (h : Agree [] l m) : m = l := by
  obtain ⟨_, _, _, _, _, _, _, _, _, _⟩ := l
  obtain ⟨_, _, _, _, _, _, _, _, _, _⟩ := m
  have hversions := h.versions
  have hindexes := h.indexes
  have hsame := fun t => h.outside t List.not_mem_nil
  simp only [Ledger.mk.injEq]
  exact ⟨hversions, hsame .defaults, hsame .rules, hsame .ports, hsame .sources,
    hsame .destinations, hsame .icmpTypes, hsame .users, hsame .journal, hindexes⟩

/-- A table that is missing in one ledger is missing in the other. -/
theorem missing {t : Table} (h : Agree tables l m) (hl : l.size? t = none) : m.size? t = none := by
  have hpresent := h.present t
  rw [hl] at hpresent
  exact Option.isNone_iff_eq_none.mp (by simpa using hpresent)

end Agree

/-- The second ledger is the first one with other rows in a table that is there. -/
structure Changes (t : Table) (l m : Ledger) : Prop where
  there : (l.size? t).isSome
  agree : Agree [t] l m

theorem changes_of_without {t : Table} (hthere : (l.size? t).isSome) (hstill : (m.size? t).isSome)
    (hrest : m.without t = l.without t) : Changes t l m := by
  refine ⟨hthere, ?_⟩
  obtain ⟨_, _, _, _, _, _, _, _, _, _⟩ := l
  obtain ⟨_, _, _, _, _, _, _, _, _, _⟩ := m
  cases t <;>
    (simp only [without, Ledger.mk.injEq, true_and] at hrest
     obtain ⟨rfl, rfl, rfl, rfl, rfl, rfl, rfl, rfl, rfl⟩ := hrest
     refine ⟨rfl, rfl, fun u hu => ?_, fun u => ?_⟩
     · cases u <;> first | rfl | exact absurd List.mem_cons_self hu
     · cases u <;> first | rfl | exact hstill.trans hthere.symm)

theorem size?_table (l : Ledger) (part : Part) :
    l.size? part.table = (l.rows? part).map List.length := by
  cases part <;> rfl

theorem need_eq_ok_iff {α : Type} {t : Table} {rows : Option α} {a : α} :
    need t rows = .ok a ↔ rows = some a := by
  cases rows <;> simp [need]

/-! ## Statements -/

section Statements

variable {a : Unit}

theorem changes_insertRule {r : Rule} {id : Int64} (h : insertRule r l = .ok (id, m)) :
    Changes .rules l m := by
  obtain ⟨rows, hrows, h⟩ := bind_eq_ok_iff.mp h
  obtain ⟨id, -, h⟩ := bind_eq_ok_iff.mp h
  cases h
  exact changes_of_without (by simp [size?, need_eq_ok_iff.mp hrows]) rfl rfl

theorem changes_deleteRule {id : Int64} {found : Bool} (h : deleteRule id l = .ok (found, m)) :
    Changes .rules l m := by
  obtain ⟨rows, hrows, h⟩ := bind_eq_ok_iff.mp h
  cases h
  exact changes_of_without (by simp [size?, need_eq_ok_iff.mp hrows]) rfl rfl

theorem changes_clearRules (h : clearRules l = .ok (a, m)) : Changes .rules l m := by
  obtain ⟨rows, hrows, h⟩ := bind_eq_ok_iff.mp h
  cases h
  exact changes_of_without (by simp [size?, need_eq_ok_iff.mp hrows]) rfl rfl

/-- Whatever is done to the rows of what belongs to rules, it is done to one table. -/
theorem changes_changePart {part : Part}
    {f : List (ChildRow Cell) → Except Fault (List (ChildRow Cell))}
    (h : changePart part f l = .ok (a, m)) : Changes part.table l m := by
  obtain ⟨rows, hrows, h⟩ := bind_eq_ok_iff.mp h
  obtain ⟨after, -, h⟩ := bind_eq_ok_iff.mp h
  cases h
  have hthere : (l.size? part.table).isSome := by
    rw [size?_table, need_eq_ok_iff.mp hrows]
    rfl
  cases part <;> exact changes_of_without hthere rfl rfl

theorem changes_writeDefaults {d : Defaults} (h : writeDefaults d l = .ok (a, m)) :
    Changes .defaults l m := by
  obtain ⟨rows, hrows, h⟩ := bind_eq_ok_iff.mp h
  cases h
  exact changes_of_without (by simp [size?, need_eq_ok_iff.mp hrows]) rfl rfl

theorem changes_appendRow {row : JournalRow} (h : appendRow row l = .ok (a, m)) :
    Changes .journal l m := by
  obtain ⟨rows, hrows, h⟩ := bind_eq_ok_iff.mp h
  split at h
  · cases h
    exact changes_of_without (by simp [size?, need_eq_ok_iff.mp hrows]) rfl rfl
  · cases h

end Statements

/-! ## Transactions -/

namespace Transaction

variable {α β : Type}

theorem bind_eq_ok {t : Transaction α} {k : α → Transaction β} {w w'' : Work} {b : β}
    (h : (t >>= k) w = .ok (b, w'')) : ∃ a w', t w = .ok (a, w') ∧ k a w' = .ok (b, w'') := by
  rw [bind_apply] at h
  cases ht : t w with
  | error e => simp [ht] at h
  | ok p => exact ⟨p.1, p.2, rfl, by simpa [ht] using h⟩

/-- A statement that ends well finds time left, and takes one look at the clock. -/
theorem statement_eq_ok {f : Ledger → Except Fault (α × Ledger)} {w w' : Work} {a : α}
    (h : statement f w = .ok (a, w')) :
    f w.ledger = .ok (a, w'.ledger) ∧ w.deadline.isOver = false ∧
      w'.deadline = w.deadline.afterLook := by
  obtain ⟨l, d⟩ := w
  rw [statement_apply] at h
  split at h
  · cases h
  · rename_i hover
    cases hf : f l with
    | error fault => simp [hf] at h
    | ok p =>
        rw [hf] at h
        cases h
        exact ⟨rfl, by simpa using hover, rfl⟩

/-- A statement that changes nothing. -/
theorem query_eq_ok {f : Ledger → Except Fault α} {w w' : Work} {a : α}
    (h : query f w = .ok (a, w')) : f w.ledger = .ok a ∧ w'.ledger = w.ledger := by
  have hstatement := (statement_eq_ok h).1
  cases hf : f w.ledger with
  | error fault => simp [hf, Except.map] at hstatement
  | ok b =>
      simp only [hf, Except.map, Except.ok.injEq, Prod.mk.injEq] at hstatement
      obtain ⟨rfl, hledger⟩ := hstatement
      exact ⟨rfl, hledger.symm⟩

/-- Whatever the transaction begins with, what it has done when it ends well leaves all but these
tables as they were. -/
def Footprint (tables : List Table) (t : Transaction α) : Prop :=
  ∀ w a w', t w = .ok (a, w') → Agree tables w.ledger w'.ledger

theorem Footprint.mono {t : Transaction α} (h : Footprint tables t) (hsub : tables ⊆ more) :
    Footprint more t :=
  fun w a w' hrun => (h w a w' hrun).mono hsub

theorem footprint_pure (a : α) : Footprint tables (pure a : Transaction α) := by
  intro w b w' h
  cases h
  exact Agree.refl _ _

theorem footprint_bind {t : Transaction α} {k : α → Transaction β} (ht : Footprint tables t)
    (hk : ∀ a, Footprint tables (k a)) : Footprint tables (t >>= k) := by
  intro w b w'' h
  obtain ⟨a, w', hfirst, hrest⟩ := bind_eq_ok h
  exact (ht w a w' hfirst).trans (hk a w' b w'' hrest)

theorem footprint_statement {f : Ledger → Except Fault (α × Ledger)} {t : Table}
    (hf : ∀ {l a m}, f l = .ok (a, m) → Changes t l m) : Footprint [t] (statement f) :=
  fun _ _ _ h => (hf (statement_eq_ok h).1).agree

theorem footprint_query (f : Ledger → Except Fault α) : Footprint tables (query f) := by
  intro w a w' h
  rw [(query_eq_ok h).2]
  exact Agree.refl _ _

theorem footprint_each {f : α → Transaction Unit} (items : List α)
    (hf : ∀ a, Footprint tables (f a)) : Footprint tables (each f items) := by
  induction items with
  | nil => exact footprint_pure ()
  | cons a rest ih => exact footprint_bind (hf a) fun _ => ih

/-- A transaction fails and leaves the ledger as it was, or it finds time left from the look in
front of it to the one at its end, and what it leaves behind is what it has made. -/
theorem commit_ends (t : Transaction α) (d : Deadline) (l : Ledger) :
    (∃ e, t.commit d l = (.error e, l)) ∨
      ∃ a w, d.isOver = false ∧ t ⟨l, d.afterLook⟩ = .ok (a, w) ∧ w.deadline.isOver = false ∧
        t.commit d l = (.ok a, w.ledger) := by
  unfold commit
  rw [whole_apply]
  by_cases hover : d.isOver
  · simp [hover]
  · cases hrun : t ⟨l, d.afterLook⟩ with
    | error e => simp [hover]
    | ok p =>
        obtain ⟨a, w⟩ := p
        by_cases hlate : w.deadline.isOver
        · simp [hover, hlate]
        · refine Or.inr ⟨a, w, by simpa using hover, rfl, by simpa using hlate, ?_⟩
          simp [hover, hlate]

/-- What a transaction leaves behind agrees with what it began with, whether it ends well or
not. -/
theorem agree_commit {t : Transaction α} (h : Footprint tables t) (d : Deadline) (l : Ledger) :
    Agree tables l (t.commit d l).2 := by
  rcases commit_ends t d l with ⟨e, hfail⟩ | ⟨a, w, -, hrun, -, hdone⟩
  · rw [hfail]
    exact Agree.refl _ _
  · rw [hdone]
    exact h _ _ _ hrun

end Transaction
end Ledger

/-- The tables of what belongs to rules. -/
def Table.ofParts : List Table :=
  Part.all.map Part.table

/-- The tables of a policy. -/
def Table.ofPolicy : List Table :=
  .defaults :: .rules :: ofParts

namespace Ledger

open Transaction

theorem table_mem_ofParts (part : Part) : part.table ∈ Table.ofParts :=
  List.mem_map_of_mem (Named.mem_all part)

theorem footprint_changePart (part : Part)
    (f : List (ChildRow Cell) → Except Fault (List (ChildRow Cell))) :
    Footprint Table.ofParts (statement (changePart part f)) :=
  (footprint_statement changes_changePart).mono
    (List.cons_subset.mpr ⟨table_mem_ofParts part, List.nil_subset _⟩)

/-- What belongs to a rule, once its row is stored. -/
theorem footprint_storeParts (id : Int64) (r : Rule) :
    Footprint Table.ofParts (do
      each (fun port => statement (insertPort id port)) r.ports
      each (fun s => statement (insertSource id s)) r.sources
      each (fun s => statement (insertDestination id s)) r.destinations
      each (fun t => statement (insertIcmpType id t)) r.icmpTypes
      return id) := by
  refine footprint_bind (footprint_each _ fun _ => footprint_changePart .ports _) fun _ => ?_
  refine footprint_bind (footprint_each _ fun _ => footprint_changePart .sources _) fun _ => ?_
  refine footprint_bind (footprint_each _ fun _ => footprint_changePart .destinations _)
    fun _ => ?_
  refine footprint_bind (footprint_each _ fun _ => footprint_changePart .icmpTypes _) fun _ => ?_
  exact footprint_pure id

theorem footprint_storeRule (r : Rule) : Footprint Table.ofPolicy (storeRule r) :=
  footprint_bind ((footprint_statement changes_insertRule).mono (by decide)) fun id =>
    (footprint_storeParts id r).mono (by decide)

theorem footprint_storeRules (rules : List Rule) : Footprint Table.ofPolicy (storeRules rules) := by
  induction rules with
  | nil => exact footprint_pure []
  | cons r rest ih =>
      exact footprint_bind (footprint_storeRule r) fun _ => footprint_bind ih fun _ =>
        footprint_pure _

theorem footprint_keepOnly (keep : Option Int64 → Bool) :
    Footprint Table.ofParts (keepOnly keep) :=
  footprint_each _ fun part => footprint_changePart part _

theorem footprint_delete (id : Int64) : Footprint Table.ofPolicy (delete id) :=
  footprint_bind ((footprint_keepOnly _).mono (by decide)) fun _ =>
    (footprint_statement changes_deleteRule).mono (by decide)

theorem footprint_setDefaults (d : Defaults) : Footprint Table.ofPolicy (setDefaults d) :=
  (footprint_statement changes_writeDefaults).mono (by decide)

theorem footprint_seedDefaults : Footprint Table.ofPolicy seedDefaults := by
  refine footprint_bind (footprint_query _) fun found => ?_
  cases found with
  | some d => exact footprint_pure d
  | none =>
      exact footprint_bind ((footprint_statement changes_writeDefaults).mono (by decide)) fun _ =>
        footprint_pure _

theorem footprint_replaceAll (d : Defaults) (rules : List Rule) :
    Footprint Table.ofPolicy (replaceAll d rules) := by
  refine footprint_bind ((footprint_statement changes_writeDefaults).mono (by decide)) fun _ => ?_
  refine footprint_bind ((footprint_keepOnly _).mono (by decide)) fun _ => ?_
  refine footprint_bind ((footprint_statement changes_clearRules).mono (by decide)) fun _ => ?_
  exact footprint_storeRules rules

theorem footprint_append (e : Event) : Footprint [.journal] (append e) :=
  footprint_statement changes_appendRow

end Ledger
end PacketPolicy
