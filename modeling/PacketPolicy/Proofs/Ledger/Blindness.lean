import PacketPolicy.Proofs.Ledger.Timing

/-!
# Transactions that do not look at the journal

Only the entries of the journal have to do with the journal.  Every other transaction does the same
whatever the journal is, in order or spoiled, full or missing, and leaves it as it is.

* `withJournal` -- the ledger with another journal, or with none;
* `Blind`, `Transaction.Blind` -- a statement or a transaction that does the same with any journal;
* `blind_pure`, `blind_bind`, `blind_statement`, `blind_query`, `blind_each` -- the parts of a
  transaction;
* `blind_storeRule`, `blind_delete`, ... -- the transactions on the policy and on the users;
* `commit_withJournal` -- the outcome, and what is left behind.
-/

namespace PacketPolicy
namespace Ledger

variable {α β : Type}

/-- The ledger with another journal, or with none. -/
def withJournal (l : Ledger) (journal : Option JournalTable) : Ledger :=
  { l with journal }

/-- The same with any journal, which it leaves as it is. -/
def Blind (f : Ledger → Except Fault (α × Ledger)) : Prop :=
  ∀ l journal, f (l.withJournal journal) = (f l).map fun (a, m) => (a, m.withJournal journal)

/-! ## Statements -/

theorem blind_insertRule (r : Rule) : Blind (insertRule r) := by
  rintro ⟨_, _, rules, _, _, _, _, _, _, _⟩ journal
  cases rules with
  | none => rfl
  | some t =>
      show (t.next? >>= _) = Except.map _ (t.next? >>= _)
      cases t.next? <;> rfl

theorem blind_deleteRule (id : Int64) : Blind (deleteRule id) := by
  rintro ⟨_, _, rules, _, _, _, _, _, _, _⟩ journal
  cases rules <;> rfl

theorem blind_clearRules : Blind clearRules := by
  rintro ⟨_, _, rules, _, _, _, _, _, _, _⟩ journal
  cases rules <;> rfl

theorem rows?_withJournal (l : Ledger) (journal : Option JournalTable) (part : Part) :
    (l.withJournal journal).rows? part = l.rows? part := by
  cases part <;> rfl

theorem withRows_withJournal (l : Ledger) (journal : Option JournalTable)
    (rows : List (ChildRow Cell)) (part : Part) :
    (l.withJournal journal).withRows rows part = (l.withRows rows part).withJournal journal := by
  cases part <;> rfl

/-- What belongs to rules has nothing to do with the journal. -/
theorem blind_changePart (part : Part)
    (f : List (ChildRow Cell) → Except Fault (List (ChildRow Cell))) :
    Blind (changePart part f) := by
  intro l journal
  unfold changePart
  rw [rows?_withJournal]
  cases l.rows? part with
  | none => rfl
  | some rows =>
      show (f rows >>= _) = Except.map _ (f rows >>= _)
      cases f rows with
      | error fault => rfl
      | ok after =>
          simp only [withRows_withJournal]
          rfl

theorem blind_writeDefaults (d : Defaults) : Blind (writeDefaults d) := by
  rintro ⟨_, defaults, _, _, _, _, _, _, _, _⟩ journal
  cases defaults <;> rfl

/-! ## Transactions -/

/-- The copy of a ledger with another journal. -/
def Work.withJournal (w : Work) (journal : Option JournalTable) : Work :=
  { w with ledger := w.ledger.withJournal journal }

namespace Transaction

/-- The same with any journal, which it leaves as it is. -/
def Blind (t : Transaction α) : Prop :=
  ∀ w journal, t (w.withJournal journal) = (t w).map fun (a, w) => (a, w.withJournal journal)

theorem blind_pure (a : α) : Blind (pure a) :=
  fun _ _ => rfl

theorem blind_bind {t : Transaction α} {k : α → Transaction β} (ht : Blind t)
    (hk : ∀ a, Blind (k a)) : Blind (t >>= k) := by
  intro w journal
  rw [bind_apply, bind_apply, ht w journal]
  cases t w with
  | error e => rfl
  | ok p => exact hk p.1 p.2 journal

theorem blind_statement {f : Ledger → Except Fault (α × Ledger)} (hf : Ledger.Blind f) :
    Blind (statement f) := by
  rintro ⟨l, d⟩ journal
  show statement f ⟨l.withJournal journal, d⟩ = _
  rw [statement_apply, statement_apply, hf l journal]
  split
  · rfl
  · cases f l <;> rfl

theorem blind_query {f : Ledger → Except Fault α}
    (hf : ∀ l journal, f (l.withJournal journal) = f l) : Blind (query f) := by
  refine blind_statement fun l journal => ?_
  rw [hf l journal]
  cases f l <;> rfl

theorem blind_each {f : α → Transaction Unit} (hf : ∀ a, Blind (f a)) (items : List α) :
    Blind (each f items) := by
  induction items with
  | nil => exact blind_pure ()
  | cons a rest ih => exact blind_bind (hf a) fun _ => ih

theorem blind_look : Blind look := by
  intro w journal
  rw [look_apply, look_apply]
  show (if w.deadline.isOver then _ else _) = _
  split <;> rfl

theorem blind_whole {t : Transaction α} (ht : Blind t) : Blind t.whole :=
  blind_bind blind_look fun _ => blind_bind ht fun a => blind_bind blind_look fun _ => blind_pure a

/-- The journal makes no difference to the outcome, nor to what is left behind. -/
theorem commit_withJournal {t : Transaction α} (ht : Blind t) (d : Deadline) (l : Ledger)
    (journal : Option JournalTable) :
    t.commit d (l.withJournal journal) =
      ((t.commit d l).1, (t.commit d l).2.withJournal journal) := by
  have hwhole : t.whole ⟨l.withJournal journal, d⟩ = _ := blind_whole ht ⟨l, d⟩ journal
  unfold commit
  rw [hwhole]
  cases t.whole ⟨l, d⟩ <;> rfl

end Transaction

open Transaction

theorem blind_storeRule (r : Rule) : (storeRule r).Blind := by
  have hpart (part : Part) (f : List (ChildRow Cell) → Except Fault (List (ChildRow Cell))) :
      (statement (changePart part f)).Blind := blind_statement (blind_changePart part f)
  refine blind_bind (blind_statement (blind_insertRule r)) fun id => ?_
  refine blind_bind (blind_each (fun _ => hpart .ports _) _) fun _ => ?_
  refine blind_bind (blind_each (fun _ => hpart .sources _) _) fun _ => ?_
  refine blind_bind (blind_each (fun _ => hpart .destinations _) _) fun _ => ?_
  refine blind_bind (blind_each (fun _ => hpart .icmpTypes _) _) fun _ => ?_
  exact blind_pure id

theorem blind_storeRules (rules : List Rule) : (storeRules rules).Blind := by
  induction rules with
  | nil => exact blind_pure []
  | cons r rest ih =>
      exact blind_bind (blind_storeRule r) fun _ => blind_bind ih fun _ => blind_pure _

theorem blind_keepOnly (keep : Option Int64 → Bool) : (keepOnly keep).Blind :=
  blind_each (fun part => blind_statement (blind_changePart part _)) _

theorem blind_delete (id : Int64) : (delete id).Blind :=
  blind_bind (blind_keepOnly _) fun _ => blind_statement (blind_deleteRule id)

theorem blind_setDefaults (d : Defaults) : (setDefaults d).Blind :=
  blind_statement (blind_writeDefaults d)

theorem blind_replaceAll (d : Defaults) (rules : List Rule) : (replaceAll d rules).Blind :=
  blind_bind (blind_statement (blind_writeDefaults d)) fun _ =>
    blind_bind (blind_keepOnly _) fun _ =>
      blind_bind (blind_statement blind_clearRules) fun _ => blind_storeRules rules

theorem blind_loadDefaults : loadDefaults.Blind :=
  blind_query fun _ _ => rfl

theorem blind_seedDefaults : seedDefaults.Blind := by
  refine blind_bind blind_loadDefaults fun found => ?_
  cases found with
  | some d => exact blind_pure d
  | none => exact blind_bind (blind_statement (blind_writeDefaults _)) fun _ => blind_pure _

theorem blind_complete (r : Rule) : (complete r).Blind :=
  blind_bind (blind_query fun _ _ => rfl) fun _ => blind_bind (blind_query fun _ _ => rfl) fun _ =>
    blind_bind (blind_query fun _ _ => rfl) fun _ =>
      blind_bind (blind_query fun _ _ => rfl) fun _ => blind_pure _

theorem blind_completeAll (rules : List Rule) : (completeAll rules).Blind := by
  induction rules with
  | nil => exact blind_pure []
  | cons r rest ih =>
      exact blind_bind (blind_complete r) fun _ => blind_bind ih fun _ => blind_pure _

theorem blind_list (onlyEnabled : Bool) : (list onlyEnabled).Blind :=
  blind_bind (blind_query fun _ _ => rfl) fun rules => blind_completeAll rules

theorem blind_lookUpRole (name : String) : (lookUpRole name).Blind :=
  blind_query fun _ _ => rfl

end Ledger
end PacketPolicy
