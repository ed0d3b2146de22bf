import Mathlib.Algebra.Group.Int.Defs
import PacketPolicy.Proofs.Ledger.Effects

/-!
# The numbers of rules

The table of rules keeps the greatest number that it has ever given.  Each new rule gets a
number above this one and above those of all rows that are there, and the greatest number goes
up with it.

* `RuleTable.greatest_le_iff` -- the bound of which the other facts are instances;
* `PolicyTables.lt_nextId` -- a new number is above those of all rows;
* `PolicyTables.toInt_nextId`, `PolicyTables.greatest_store` -- the numbers as long as the count
  is not negative;
* `PolicyTables.storable_iff_room` -- what it takes to store several rules.
-/

namespace PacketPolicy
namespace Ledger

namespace RuleTable

theorem foldl_max_le_iff (rows : List RuleRow) (start bound : Int) :
    rows.foldl (fun n row => max n row.id.toInt) start ≤ bound ↔
      start ≤ bound ∧ ∀ row ∈ rows, row.id.toInt ≤ bound := by
  induction rows generalizing start with
  | nil => simp
  | cons row rest ih =>
      rw [List.foldl_cons, ih, List.forall_mem_cons]
      constructor
      · rintro ⟨hmax, hrest⟩
        exact ⟨by omega, by omega, hrest⟩
      · rintro ⟨hstart, hrow, hrest⟩
        exact ⟨by omega, hrest⟩

/-- What bounds the greatest number bounds the count and the numbers of all rows. -/
theorem greatest_le_iff (t : RuleTable) (bound : Int) :
    t.greatest ≤ bound ↔ t.highest ≤ bound ∧ ∀ row ∈ t.rows, row.id.toInt ≤ bound :=
  foldl_max_le_iff t.rows t.highest bound

theorem highest_le_greatest (t : RuleTable) : t.highest ≤ t.greatest :=
  ((t.greatest_le_iff t.greatest).mp (Int.le_refl _)).1

theorem id_le_greatest (t : RuleTable) {row : RuleRow} (h : row ∈ t.rows) :
    row.id.toInt ≤ t.greatest :=
  ((t.greatest_le_iff t.greatest).mp (Int.le_refl _)).2 row h

/-- The count alone is the greatest number when no row is above it. -/
theorem greatest_eq_highest {t : RuleTable} (h : ∀ row ∈ t.rows, row.id.toInt ≤ t.highest) :
    t.greatest = t.highest :=
  Int.le_antisymm ((t.greatest_le_iff _).mpr ⟨Int.le_refl _, h⟩) t.highest_le_greatest

/-- A new row takes the greatest number as far as its own. -/
theorem greatest_push (t : RuleTable) (row : RuleRow) :
    (t.push row).greatest = max t.greatest row.id.toInt := by
  have hbound (b : Int) : (t.push row).greatest ≤ b ↔ max t.greatest row.id.toInt ≤ b := by
    rw [greatest_le_iff, Int.max_le, greatest_le_iff]
    simp only [push, List.mem_append, List.mem_singleton, Int.max_le]
    constructor
    · rintro ⟨⟨hhighest, hrow⟩, hrows⟩
      exact ⟨⟨hhighest, fun r hr => hrows r (Or.inl hr)⟩, hrow⟩
    · rintro ⟨⟨hhighest, hrows⟩, hrow⟩
      refine ⟨⟨hhighest, hrow⟩, ?_⟩
      rintro r (hr | rfl)
      · exact hrows r hr
      · exact hrow
  exact Int.le_antisymm ((hbound _).mpr (Int.le_refl _)) ((hbound _).mp (Int.le_refl _))

end RuleTable

namespace PolicyTables

variable {t : PolicyTables}

/-- The greatest number of a table and one more can be told apart as long as there is a
greater one, even if no rule has been stored. -/
theorem toInt_nextId_of_le (hleast : -2 ^ 63 ≤ t.rules.greatest + 1)
    (hroom : t.rules.greatest < greatestId) : t.nextId.toInt = t.rules.greatest + 1 := by
  unfold greatestId at hroom
  exact Int64.toInt_ofInt_of_le hleast (by omega)

theorem toInt_nextId (hcount : 0 ≤ t.rules.highest) (hroom : t.rules.greatest < greatestId) :
    t.nextId.toInt = t.rules.greatest + 1 := by
  have hle := t.rules.highest_le_greatest
  exact toInt_nextId_of_le (by omega) hroom

/-- A new number is above those of all rows. -/
theorem lt_nextId (hroom : t.rules.greatest < greatestId) {row : RuleRow}
    (hrow : row ∈ t.rules.rows) : row.id.toInt < t.nextId.toInt := by
  have hle := t.rules.id_le_greatest hrow
  have hleast := row.id.le_toInt
  rw [toInt_nextId_of_le (by omega) hroom]
  omega

/-- Storing a rule takes the greatest number up by one. -/
theorem greatest_store (r : Rule) (hcount : 0 ≤ t.rules.highest)
    (hroom : t.rules.greatest < greatestId) :
    (t.store r).rules.greatest = t.rules.greatest + 1 := by
  show (t.rules.push (.ofRule t.nextId r)).greatest = _
  rw [RuleTable.greatest_push]
  show max t.rules.greatest t.nextId.toInt = _
  rw [toInt_nextId hcount hroom]
  omega

theorem highest_le_highest_store (r : Rule) : t.rules.highest ≤ (t.store r).rules.highest :=
  Int.le_max_left _ _

/-- Rules can be stored one after another exactly when enough numbers are left and none of them
has the port zero. -/
theorem storable_iff_room {rules : List Rule} (hcount : 0 ≤ t.rules.highest)
    (hcounted : t.rules.greatest ≤ greatestId) : t.Storable rules ↔ t.Room rules := by
  induction rules generalizing t with
  | nil =>
      constructor
      · intro _
        exact ⟨by simpa using hcounted, by simp⟩
      · intro _
        trivial
  | cons r rest ih =>
      -- the induction goes on in the tables that have the first rule
      have hnext := Int.le_trans hcount (highest_le_highest_store r)
      constructor
      · rintro ⟨⟨hnumber, hports⟩, hrest⟩
        have hgreatest := greatest_store r hcount hnumber
        obtain ⟨hnumbers, hothers⟩ := (ih hnext (by omega)).mp hrest
        refine ⟨?_, List.forall_mem_cons.mpr ⟨hports, hothers⟩⟩
        rw [hgreatest] at hnumbers
        rw [List.length_cons]
        omega
      · rintro ⟨hnumbers, hports⟩
        rw [List.length_cons] at hnumbers
        obtain ⟨hfirst, hothers⟩ := List.forall_mem_cons.mp hports
        have hnumber : t.rules.greatest < greatestId := by omega
        have hgreatest := greatest_store r hcount hnumber
        exact ⟨⟨hnumber, hfirst⟩, (ih hnext (by omega)).mpr ⟨by omega, hothers⟩⟩

end PolicyTables
end Ledger
end PacketPolicy
