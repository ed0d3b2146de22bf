import Mathlib.Algebra.GroupWithZero.Nat
import PacketPolicy.Proofs.Ledger.Footprints

/-!
# How often transactions look at the clock

A transaction looks at the clock before it begins, before each of its statements, and at its end.
If it ends well, it has found time left each time, so it fails wherever the time runs out before
its last look.

* `Transaction.Takes` -- how often a transaction that ends well has looked at the clock;
* `takes_statement`, `takes_bind`, `takes_each` -- a look for each statement;
* `statementsFor`, `takes_storeRule`, `takes_replaceAll`, `takes_list`, ... -- the statements of
  the transactions;
* `Takes.commit` -- two looks more for the whole.
-/

namespace PacketPolicy
namespace Ledger

open Transaction

namespace Transaction

variable {α β : Type} {l : Ledger} {m n : Nat}

/-- Begun with the ledger `l`, the transaction looks `n` times at the clock if it ends well. -/
def Takes (n : Nat) (t : Transaction α) (l : Ledger) : Prop :=
  ∀ d a w, t ⟨l, d⟩ = .ok (a, w) → ∀ left, d.looks = some left →
    ∃ rest, w.deadline.looks = some rest ∧ left = rest + n

theorem takes_pure (a : α) (l : Ledger) : Takes 0 (pure a) l := by
  intro d b w hrun left hleft
  cases hrun
  exact ⟨left, hleft, rfl⟩

theorem takes_statement (f : Ledger → Except Fault (α × Ledger)) (l : Ledger) :
    Takes 1 (statement f) l := by
  intro d a w hrun left hleft
  obtain ⟨-, hover, hdeadline⟩ := statement_eq_ok hrun
  cases left with
  | zero => simp [Deadline.isOver, hleft] at hover
  | succ rest => exact ⟨rest, by simp [hdeadline, Deadline.afterLook, hleft], rfl⟩

theorem takes_query (f : Ledger → Except Fault α) (l : Ledger) : Takes 1 (query f) l :=
  takes_statement _ l

theorem takes_bind {t : Transaction α} {k : α → Transaction β} (ht : Takes m t l)
    (hk : ∀ d a w, t ⟨l, d⟩ = .ok (a, w) → Takes n (k a) w.ledger) :
    Takes (m + n) (t >>= k) l := by
  intro d b w hrun left hleft
  obtain ⟨a, w', hfirst, hsecond⟩ := bind_eq_ok hrun
  obtain ⟨between, hbetween, rfl⟩ := ht d a w' hfirst left hleft
  obtain ⟨rest, hrest, rfl⟩ := hk d a w' hfirst w'.deadline b w hsecond between hbetween
  exact ⟨rest, hrest, by omega⟩

theorem takes_each {f : α → Transaction Unit} (hf : ∀ a l, Takes 1 (f a) l) (items : List α)
    (l : Ledger) : Takes items.length (each f items) l := by
  induction items generalizing l with
  | nil => exact takes_pure () l
  | cons a rest ih =>
      rw [List.length_cons, Nat.add_comm]
      exact takes_bind (hf a l) fun _ _ w _ => ih w.ledger

/-- A transaction that has an effect has found time left at each of its looks at the clock, the one
in front of it and the one at its end among them. -/
theorem Takes.commit {t : Transaction α} (h : Takes n t l) {d : Deadline} {left : Nat}
    (hleft : d.looks = some left) (hfew : left < n + 2) : ∃ e, t.commit d l = (.error e, l) := by
  rcases commit_ends t d l with hfail | ⟨a, w, hfront, hrun, hend, -⟩
  · exact hfail
  · obtain ⟨rest, hrest, hcount⟩ := h d.afterLook a w hrun (left - 1)
      (by simp [Deadline.afterLook, hleft])
    have hfirst : left ≠ 0 := by
      rintro rfl
      simp [Deadline.isOver, hleft] at hfront
    have hlast : rest ≠ 0 := by
      rintro rfl
      simp [Deadline.isOver, hrest] at hend
    omega

end Transaction

/-- The number of statements that a rule takes: one for its row and one for each of its parts. -/
def statementsFor (r : Rule) : Nat :=
  1 + r.ports.length + r.sources.length + r.destinations.length + r.icmpTypes.length

theorem takes_storeRule (r : Rule) (l : Ledger) : Takes (statementsFor r) (storeRule r) l := by
  have hsum : statementsFor r = 1 + (r.ports.length + (r.sources.length +
      (r.destinations.length + (r.icmpTypes.length + 0)))) := by
    unfold statementsFor
    omega
  rw [hsum]
  refine takes_bind (takes_statement _ _) fun _ id _ _ => ?_
  refine takes_bind (takes_each (fun _ _ => takes_statement _ _) _ _) fun _ _ _ _ => ?_
  refine takes_bind (takes_each (fun _ _ => takes_statement _ _) _ _) fun _ _ _ _ => ?_
  refine takes_bind (takes_each (fun _ _ => takes_statement _ _) _ _) fun _ _ _ _ => ?_
  refine takes_bind (takes_each (fun _ _ => takes_statement _ _) _ _) fun _ _ _ _ => ?_
  exact takes_pure id _

theorem takes_storeRules (rules : List Rule) (l : Ledger) :
    Takes (rules.map statementsFor).sum (storeRules rules) l := by
  induction rules generalizing l with
  | nil => exact takes_pure [] l
  | cons r rest ih =>
      exact takes_bind (takes_storeRule r l) fun _ _ w _ =>
        takes_bind (ih w.ledger) fun _ _ _ _ => takes_pure _ _

theorem takes_keepOnly (keep : Option Int64 → Bool) (l : Ledger) :
    Takes Part.all.length (keepOnly keep) l :=
  takes_each (fun _ _ => takes_statement _ _) _ l

theorem takes_replaceAll (d : Defaults) (rules : List Rule) (l : Ledger) :
    Takes (6 + (rules.map statementsFor).sum) (replaceAll d rules) l := by
  rw [show 6 + (rules.map statementsFor).sum = 1 + (4 + (1 + (rules.map statementsFor).sum)) by
    omega]
  refine takes_bind (takes_statement _ _) fun _ _ _ _ => ?_
  refine takes_bind (takes_keepOnly _ _) fun _ _ _ _ => ?_
  exact takes_bind (takes_statement _ _) fun _ _ w _ => takes_storeRules rules w.ledger

theorem takes_complete (r : Rule) (l : Ledger) : Takes 4 (complete r) l :=
  takes_bind (n := 3) (takes_query _ _) fun _ _ _ _ =>
    takes_bind (n := 2) (takes_query _ _) fun _ _ _ _ =>
      takes_bind (n := 1) (takes_query _ _) fun _ _ _ _ =>
        takes_bind (n := 0) (takes_query _ _) fun _ _ _ _ => takes_pure _ _

theorem takes_completeAll (rules : List Rule) (l : Ledger) :
    Takes (4 * rules.length) (completeAll rules) l := by
  induction rules generalizing l with
  | nil => exact takes_pure [] l
  | cons r rest ih =>
      rw [List.length_cons, Nat.mul_add, Nat.add_comm]
      exact takes_bind (takes_complete r l) fun _ _ w _ =>
        takes_bind (n := 0) (ih w.ledger) fun _ _ _ _ => takes_pure _ _

theorem takes_list (onlyEnabled : Bool) {l : Ledger} {rules : List Rule}
    (h : ruleRows onlyEnabled l = .ok rules) :
    Takes (1 + 4 * rules.length) (list onlyEnabled) l := by
  refine takes_bind (takes_query _ _) fun d found w hrun => ?_
  obtain rfl : rules = found := Except.ok.inj (h.symm.trans (query_eq_ok hrun).1)
  exact takes_completeAll rules w.ledger

/-- Missing defaults are looked for once more and then stored. -/
theorem takes_seedDefaults {l : Ledger} (h : defaultsRow l = .ok none) :
    Takes 2 seedDefaults l := by
  refine takes_bind (m := 1) (n := 1) (takes_query _ _) fun d found w hrun => ?_
  obtain rfl : none = found := Except.ok.inj (h.symm.trans (query_eq_ok hrun).1)
  exact takes_bind (n := 0) (takes_statement _ _) fun _ _ _ _ => takes_pure _ _

end Ledger
end PacketPolicy
