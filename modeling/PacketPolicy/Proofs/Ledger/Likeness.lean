import PacketPolicy.Proofs.Ledger.Timing

/-!
# Transactions on two ledgers

Two ledgers may differ in rows that a transaction never comes upon.  Begun with either, under the
same deadline, it then runs alike: statement for statement, look for look, to the same answer.

* `Transaction.Alike` -- from ledgers that are related in one way the transaction runs alike to
  ledgers that are related in another way;
* `alike_pure`, `alike_bind`, `alike_statement`, `alike_query` -- the parts of a transaction;
* `Transaction.Alike.commit` -- the answers are the same;
* `SameParts` -- the same belongs to a rule in both ledgers;
* `list_alike`, `readDefaults_alike` -- what `list` and `readDefaults` come upon.
-/

namespace PacketPolicy
namespace Ledger

variable {α β : Type}

namespace Transaction

/-- From ledgers that `P` relates, and with the same time left, the transaction fails alike or ends
with the same result and the same time left, and `Q` relates what it has made of the ledgers. -/
def Alike (P : Ledger → Ledger → Prop) (t : Transaction α) (Q : α → Ledger → Ledger → Prop) :
    Prop :=
  ∀ l m d, P l m →
    (∃ e, t ⟨l, d⟩ = .error e ∧ t ⟨m, d⟩ = .error e) ∨
      ∃ a l' m' d', t ⟨l, d⟩ = .ok (a, ⟨l', d'⟩) ∧ t ⟨m, d⟩ = .ok (a, ⟨m', d'⟩) ∧ Q a l' m'

variable {P : Ledger → Ledger → Prop} {Q : α → Ledger → Ledger → Prop}
  {R : β → Ledger → Ledger → Prop}

theorem Alike.weaken {t : Transaction α} {Q' : α → Ledger → Ledger → Prop} (ht : Alike P t Q)
    (h : ∀ a l m, Q a l m → Q' a l m) : Alike P t Q' := by
  intro l m d hp
  rcases ht l m d hp with hfail | ⟨a, l', m', d', hl, hm, hq⟩
  · exact Or.inl hfail
  · exact Or.inr ⟨a, l', m', d', hl, hm, h a l' m' hq⟩

theorem alike_pure (a : α) (h : ∀ l m, P l m → Q a l m) : Alike P (pure a) Q :=
  fun l m d hp => Or.inr ⟨a, l, m, d, rfl, rfl, h l m hp⟩

theorem alike_bind {t : Transaction α} {k : α → Transaction β} (ht : Alike P t Q)
    (hk : ∀ a, Alike (Q a) (k a) R) : Alike P (t >>= k) R := by
  intro l m d hp
  rw [bind_apply, bind_apply]
  rcases ht l m d hp with ⟨e, hl, hm⟩ | ⟨a, l', m', d', hl, hm, hq⟩
  · exact Or.inl ⟨e, by rw [hl], by rw [hm]⟩
  · rw [hl, hm]
    exact hk a l' m' d' hq

theorem alike_statement {f : Ledger → Except Fault (α × Ledger)}
    (h : ∀ l m, P l m →
      (∃ fault, f l = .error fault ∧ f m = .error fault) ∨
        ∃ a l' m', f l = .ok (a, l') ∧ f m = .ok (a, m') ∧ Q a l' m') :
    Alike P (statement f) Q := by
  intro l m d hp
  rw [statement_apply, statement_apply]
  by_cases hover : d.isOver
  · exact Or.inl ⟨_, if_pos hover, if_pos hover⟩
  · rw [if_neg hover, if_neg hover]
    rcases h l m hp with ⟨fault, hl, hm⟩ | ⟨a, l', m', hl, hm, hq⟩
    · exact Or.inl ⟨_, by rw [hl], by rw [hm]⟩
    · exact Or.inr ⟨a, l', m', d.afterLook, by rw [hl], by rw [hm], hq⟩

/-- A statement that only reads has to read the same; what it has read is known from then on. -/
theorem alike_query {f : Ledger → Except Fault α} (h : ∀ l m, P l m → f l = f m) :
    Alike P (query f) fun a l m => P l m ∧ f l = .ok a := by
  refine alike_statement fun l m hp => ?_
  rw [← h l m hp]
  cases hf : f l with
  | error fault => exact Or.inl ⟨fault, rfl, rfl⟩
  | ok a => exact Or.inr ⟨a, l, m, rfl, rfl, hp, hf⟩

theorem alike_look : Alike P look fun _ => P := by
  intro l m d hp
  rw [look_apply, look_apply]
  by_cases hover : d.isOver
  · exact Or.inl ⟨_, if_pos hover, if_pos hover⟩
  · exact Or.inr ⟨(), l, m, d.afterLook, if_neg hover, if_neg hover, hp⟩

theorem alike_whole {t : Transaction α} (ht : Alike P t Q) : Alike P t.whole Q :=
  alike_bind alike_look fun _ => alike_bind ht fun a => alike_bind alike_look fun _ =>
    alike_pure a fun _ _ hq => hq

theorem Alike.commit_cases {t : Transaction α} (ht : Alike P t Q) (d : Deadline) {l m : Ledger}
    (hp : P l m) :
    (∃ e, t.commit d l = (.error e, l) ∧ t.commit d m = (.error e, m)) ∨
      ∃ a l' m', t.commit d l = (.ok a, l') ∧ t.commit d m = (.ok a, m') ∧ Q a l' m' := by
  unfold Transaction.commit
  rcases alike_whole ht l m d hp with ⟨e, hl, hm⟩ | ⟨a, l', m', d', hl, hm, hq⟩
  · exact Or.inl ⟨e, by rw [hl], by rw [hm]⟩
  · exact Or.inr ⟨a, l', m', by rw [hl], by rw [hm], hq⟩

/-- The answers are the same. -/
theorem Alike.commit {t : Transaction α} (ht : Alike P t Q) (d : Deadline) {l m : Ledger}
    (hp : P l m) : (t.commit d l).1 = (t.commit d m).1 := by
  rcases ht.commit_cases d hp with ⟨e, hl, hm⟩ | ⟨a, l', m', hl, hm, -⟩
  · rw [hl, hm]
  · rw [hl, hm]

end Transaction

open Transaction

/-! ## Rules -/

/-- The same belongs to a rule in both ledgers. -/
structure SameParts (id : Int64) (l m : Ledger) : Prop where
  ports : portsOf id l = portsOf id m
  sources : sourcesOf id l = sourcesOf id m
  destinations : destinationsOf id l = destinationsOf id m
  icmpTypes : icmpTypesOf id l = icmpTypesOf id m

theorem alike_complete (r : Rule) {P : Ledger → Ledger → Prop}
    (h : ∀ l m, P l m → SameParts r.id l m) : Alike P (complete r) fun _ => P := by
  refine alike_bind (alike_query fun l m hp => (h l m hp).ports) fun ports => ?_
  refine alike_bind (alike_query fun l m hp => (h l m hp.1).sources) fun sources => ?_
  refine alike_bind (alike_query fun l m hp => (h l m hp.1.1).destinations) fun destinations => ?_
  refine alike_bind (alike_query fun l m hp => (h l m hp.1.1.1).icmpTypes) fun icmpTypes => ?_
  exact alike_pure _ fun l m hp => hp.1.1.1.1

theorem alike_completeAll (rules : List Rule) {P : Ledger → Ledger → Prop}
    (h : ∀ l m, P l m → ∀ r ∈ rules, SameParts r.id l m) :
    Alike P (completeAll rules) fun _ => P := by
  induction rules with
  | nil => exact alike_pure [] fun _ _ hp => hp
  | cons r rest ih =>
      have hfirst := alike_complete r fun l m hp => h l m hp r List.mem_cons_self
      have hrest := ih fun l m hp other hother => h l m hp other (List.mem_cons_of_mem _ hother)
      exact alike_bind hfirst fun _ => alike_bind hrest fun _ => alike_pure _ fun _ _ hp => hp

/-- Ledgers that have the same rules to list, and the same belongs to each of these, are listed
alike. -/
theorem list_alike (onlyEnabled : Bool) (d : Deadline) {l m : Ledger}
    (hrules : ruleRows onlyEnabled l = ruleRows onlyEnabled m)
    (hparts : ∀ rules, ruleRows onlyEnabled l = .ok rules → ∀ r ∈ rules, SameParts r.id l m) :
    ((list onlyEnabled).commit d l).1 = ((list onlyEnabled).commit d m).1 := by
  have halike : Alike (fun x y => x = l ∧ y = m) (list onlyEnabled) fun _ x y => x = l ∧ y = m := by
    refine alike_bind (alike_query ?_) fun rules => ?_
    · rintro x y ⟨rfl, rfl⟩
      exact hrules
    · intro x y d hp
      obtain ⟨⟨rfl, rfl⟩, hread⟩ := hp
      refine alike_completeAll rules (fun x' y' hp => ?_) x y d ⟨rfl, rfl⟩
      obtain ⟨rfl, rfl⟩ := hp
      exact hparts rules hread
  exact halike.commit d ⟨rfl, rfl⟩

/-! ## Defaults -/

/-- Ledgers with the same defaults. -/
def SameDefaults (l m : Ledger) : Prop :=
  l.defaults = m.defaults

theorem SameDefaults.defaultsRow {l m : Ledger} (h : SameDefaults l m) :
    defaultsRow l = defaultsRow m := by
  unfold Ledger.defaultsRow
  rw [show l.defaults = m.defaults from h]

/-- Writing defaults goes well wherever there is a table for them. -/
theorem alike_setDefaults (d : Defaults) :
    Alike SameDefaults (setDefaults d) fun _ => SameDefaults := by
  refine alike_statement fun l m hp => ?_
  unfold writeDefaults
  rw [show l.defaults = m.defaults from hp]
  cases m.defaults with
  | none => exact Or.inl ⟨_, rfl, rfl⟩
  | some rows => exact Or.inr ⟨(), _, _, rfl, rfl, rfl⟩

theorem alike_loadDefaults : Alike SameDefaults loadDefaults fun _ => SameDefaults :=
  (alike_query fun _ _ hp => hp.defaultsRow).weaken fun _ _ _ hp => hp.1

theorem alike_seedDefaults : Alike SameDefaults seedDefaults fun _ => SameDefaults := by
  refine alike_bind alike_loadDefaults fun found => ?_
  cases found with
  | some d => exact alike_pure d fun _ _ hp => hp
  | none => exact alike_bind (alike_setDefaults .initial) fun _ => alike_pure _ fun _ _ hp => hp

/-- The defaults are read alike from ledgers with the same table of defaults, also where a missing
row has to be supplied. -/
theorem readDefaults_alike (first second : Deadline) {l m : Ledger} (h : SameDefaults l m) :
    (readDefaultsWithin first second l).1 = (readDefaultsWithin first second m).1 := by
  unfold readDefaultsWithin
  rcases alike_loadDefaults.commit_cases first h with ⟨e, hl, hm⟩ | ⟨found, l', m', hl, hm, hsame⟩
  · rw [hl, hm]
  · rw [hl, hm]
    cases found with
    | some d => rfl
    | none => exact alike_seedDefaults.commit second hsame

end Ledger
end PacketPolicy
