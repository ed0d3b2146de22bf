import PacketPolicy.Proofs.Ledger.Calls
import PacketPolicy.Proofs.Ledger.Numbers

/-!
# What holds of the tables at all times

Nothing in the tables themselves ties what belongs to a rule to the row of the rule.  That the
two keep together is the work of the transactions alone, and `PolicyTables.Sound` is what they
keep: one row of defaults, different numbers for different rules, none of them above the count,
and nothing that belongs to no rule.

* `sound_store`, `sound_remove`, `sound_overwrite`, `sound_clear`, `sound_storeAll` -- every
  effect of a transaction keeps it;
* `wellKept_run` -- so does every call, whatever comes of it;
* `bringUpToDate_firstVersion` -- the second migration establishes it for ledgers of the first
  version, which may hold things that belong to no rule;
* `reachable_tables_sound` -- it holds wherever calls lead to.
-/

namespace PacketPolicy
namespace Ledger

namespace PolicyTables

/-- The numbers of the rules that have a row. -/
def ruleIds (t : PolicyTables) : List Int64 :=
  t.rules.rows.map RuleRow.id

/-- What the rows of what belongs to rules say of the rules. -/
def places (t : PolicyTables) : List (Option Int64) :=
  t.ports.map ChildRow.owner ++ t.sources.map ChildRow.owner ++
    t.destinations.map ChildRow.owner ++ t.icmpTypes.map ChildRow.owner

/-- The numbers of rules to which something belongs. -/
def owners (t : PolicyTables) : List Int64 :=
  t.places.filterMap fun owner => owner

/-- The tables keep together. -/
structure Sound (t : PolicyTables) : Prop where
  /-- One row holds the defaults. -/
  defaults : ∃ row, t.defaults = [row] ∧ row.id = defaultsId
  /-- Different rules have different numbers. -/
  nodup : t.ruleIds.Nodup
  /-- No rule has a number above the count. -/
  counted : ∀ id ∈ t.ruleIds, id.toInt ≤ t.rules.highest
  /-- Nothing belongs to a rule that is not there, or to nothing that is a rule. -/
  owned : ∀ owner ∈ t.places, ∃ id ∈ t.ruleIds, owner = some id

end PolicyTables

namespace PolicyTables

variable {t : PolicyTables}

/-! ## Numbers and owners after each effect -/

theorem ruleIds_store (r : Rule) : (t.store r).ruleIds = t.ruleIds ++ [t.nextId] := by
  simp [ruleIds, store, insert, RuleTable.push, RuleRow.ofRule]

theorem ruleIds_remove (id : Int64) : (t.remove id).ruleIds = t.ruleIds.filter (· != id) := by
  simp [ruleIds, remove, List.filter_map, Function.comp_def]

theorem map_owner_keepChildren {α : Type} (keep : Option Int64 → Bool) (rows : List (ChildRow α)) :
    (keepChildren keep rows).map ChildRow.owner = (rows.map ChildRow.owner).filter keep := by
  simp [keepChildren, List.filter_map, Function.comp_def]

theorem places_keepOnly (keep : Option Int64 → Bool) :
    (t.keepOnly keep).places = t.places.filter keep := by
  simp only [places, keepOnly, map_owner_keepChildren, List.filter_append]

/-- What is stored with a rule belongs to it. -/
theorem mem_places_store {r : Rule} {owner : Option Int64} (h : owner ∈ (t.store r).places) :
    owner ∈ t.places ∨ owner = t.nextId := by
  simp only [places, store, insert, portRows, textRows, icmpRows, List.map_append, List.map_map,
    List.mem_append, List.mem_map, Function.comp_apply] at h ⊢
  grind

/-! ## Every effect keeps the tables sound -/

theorem sound_store (h : t.Sound) (r : Rule) (hroom : t.rules.greatest < greatestId) :
    (t.store r).Sound where
  defaults := h.defaults
  nodup := by
    rw [ruleIds_store]
    refine List.nodup_append.mpr ⟨h.nodup, by simp, ?_⟩
    intro id hid other hother
    obtain rfl : other = t.nextId := by simpa using hother
    obtain ⟨row, hrow, rfl⟩ := List.mem_map.mp hid
    have hlt := lt_nextId hroom hrow
    exact fun heq => absurd (congrArg Int64.toInt heq) (by omega)
  counted := by
    rw [ruleIds_store]
    show ∀ id : Int64, id ∈ t.ruleIds ++ [t.nextId] → id.toInt ≤ max t.rules.highest t.nextId.toInt
    intro id hid
    rcases List.mem_append.mp hid with hold | hnew
    · have hle := h.counted id hold
      omega
    · obtain rfl : id = t.nextId := by simpa using hnew
      omega
  owned := by
    intro owner howner
    rw [ruleIds_store]
    rcases mem_places_store howner with hold | rfl
    · obtain ⟨id, hid, rfl⟩ := h.owned owner hold
      exact ⟨id, List.mem_append_left _ hid, rfl⟩
    · exact ⟨t.nextId, List.mem_append_right _ (List.mem_singleton_self _), rfl⟩

theorem sound_remove (h : t.Sound) (id : Int64) : (t.remove id).Sound where
  defaults := h.defaults
  nodup := by
    rw [ruleIds_remove]
    exact h.nodup.filter _
  counted := by
    intro other hother
    rw [ruleIds_remove] at hother
    exact h.counted other (List.mem_filter.mp hother).1
  owned := by
    intro owner howner
    -- The rows that belong to the rule go first, so the row of the rule leaves no orphans.
    have hkept : owner ∈ t.places.filter (· != some id) := by
      rw [← places_keepOnly]
      exact howner
    obtain ⟨hmem, hne⟩ := List.mem_filter.mp hkept
    obtain ⟨other, hother, rfl⟩ := h.owned owner hmem
    rw [ruleIds_remove]
    exact ⟨other, List.mem_filter.mpr ⟨hother, by simpa using hne⟩, rfl⟩

/-- Defaults that are there are overwritten in their place. -/
theorem overwrite_defaults {row : DefaultsRow} (hrow : t.defaults = [row])
    (hid : row.id = defaultsId) (d : Defaults) :
    (t.overwrite d).defaults = [.ofDefaults d] := by
  simp [overwrite, hrow, hid]

theorem sound_overwrite (h : t.Sound) (d : Defaults) : (t.overwrite d).Sound where
  defaults := by
    obtain ⟨row, hrow, hid⟩ := h.defaults
    exact ⟨_, overwrite_defaults hrow hid d, rfl⟩
  nodup := h.nodup
  counted := h.counted
  owned := h.owned

theorem sound_clear (h : t.Sound) : t.clear.Sound where
  defaults := h.defaults
  nodup := List.nodup_nil
  counted := by simp [clear, ruleIds]
  owned := by
    intro owner howner
    have hkept : owner ∈ t.places.filter fun _ => false := by
      rw [← places_keepOnly]
      exact howner
    simp at hkept

theorem sound_storeAll {rules : List Rule} (h : t.Sound) (hroom : t.Storable rules) :
    (t.storeAll rules).2.Sound := by
  induction rules generalizing t with
  | nil => exact h
  | cons r rest ih => exact ih (sound_store h r hroom.1.1) hroom.2

/-- Sound tables have defaults to read, or a row that is none. -/
theorem loaded_ne_none (h : t.Sound) : t.loaded ≠ .ok none := by
  obtain ⟨row, hrow, hid⟩ := h.defaults
  simp only [loaded, defaultsRow?, hrow, List.find?_singleton, hid, beq_self_eq_true, if_true]
  cases row.defaults? <;> simp [Except.map]

theorem Sound.mem_ruleIds (h : t.Sound) {id : Int64} (hid : id ∈ t.owners) : id ∈ t.ruleIds := by
  obtain ⟨owner, howner, rfl⟩ := List.mem_filterMap.mp hid
  obtain ⟨other, hother, heq⟩ := h.owned _ howner
  rwa [Option.some.inj heq]

/-- A new rule finds nothing that belongs to it already. -/
theorem nextId_not_mem_owners (h : t.Sound) (hroom : t.rules.greatest < greatestId) :
    t.nextId ∉ t.owners := by
  intro hmem
  obtain ⟨row, hrow, hid⟩ := List.mem_map.mp (h.mem_ruleIds hmem)
  have hlt := lt_nextId hroom hrow
  rw [hid] at hlt
  exact Int.lt_irrefl _ hlt

end PolicyTables

/-! ## Calls -/

/-- A ledger with sound tables for which no migrations are left. -/
def WellKept (l : Ledger) : Prop :=
  l.UpToDate ∧ ∃ t, l.tables? = some t ∧ t.Sound

theorem wellKept_withTables {l : Ledger} {t : PolicyTables} (hversion : l.UpToDate)
    (h : t.Sound) : (l.withTables t).WellKept :=
  ⟨hversion, t, rfl, h⟩

/-- Every call keeps a ledger well, whether it succeeds or fails. -/
theorem wellKept_run {l : Ledger} (h : l.WellKept) (c : Call) (first second : Deadline) :
    (c.run first second l).2.WellKept := by
  obtain ⟨hversion, t, htables, hsound⟩ := h
  rw [eq_withTables_of_tables? htables]
  have hbefore : (l.withTables t).WellKept := wellKept_withTables hversion hsound
  cases c with
  | create r =>
      rcases run_create (l := l) (t := t) first second r with ⟨e, hfail⟩ | ⟨hroom, hdone⟩
      · rwa [hfail]
      · rw [hdone]
        exact wellKept_withTables hversion (PolicyTables.sound_store hsound r hroom.1.1)
  | delete id =>
      rcases run_delete (l := l) (t := t) first second id with ⟨e, hfail⟩ | hdone
      · rwa [hfail]
      · rw [hdone]
        exact wellKept_withTables hversion (PolicyTables.sound_remove hsound id)
  | setDefaults d =>
      rcases run_setDefaults (l := l) (t := t) first second d with ⟨e, hfail⟩ | hdone
      · rwa [hfail]
      · rw [hdone]
        exact wellKept_withTables hversion (PolicyTables.sound_overwrite hsound d)
  | replaceAll d rules =>
      rcases run_replaceAll (l := l) (t := t) first second d rules with ⟨e, hfail⟩ | ⟨hroom, hdone⟩
      · rwa [hfail]
      · rw [hdone]
        have hcleared := PolicyTables.sound_clear (PolicyTables.sound_overwrite hsound d)
        exact wellKept_withTables hversion (PolicyTables.sound_storeAll hcleared hroom)
  | readDefaults =>
      rw [run_readDefaults_snd first second (PolicyTables.loaded_ne_none hsound)]
      exact hbefore
  | list onlyEnabled =>
      rcases run_list (l := l) (t := t) first second onlyEnabled with hlate | hdone
      · rwa [hlate]
      · rwa [hdone]
  | lookUpRole name => rwa [run_lookUpRole_snd]
  | append e =>
      obtain ⟨journal, hdone⟩ := run_append_snd first second e (l.withTables t)
      rw [hdone]
      exact ⟨hversion, t, rfl, hsound⟩
  | recent limit => rwa [run_recent_snd]
  | reopen => rwa [run_reopen first second hbefore.1]

theorem wellKept_of_reachable {start l : Ledger} (hstart : start.WellKept)
    (h : Reachable start l) : l.WellKept := by
  induction h with
  | start => exact hstart
  | call c first second _ ih => exact wellKept_run ih c first second

/-! ## Where calls begin -/

theorem wellKept_openBlank : openBlank.WellKept := by
  refine ⟨openBlank_upToDate, _, rfl, ?_⟩
  exact {
    defaults := ⟨_, rfl, rfl⟩
    nodup := List.nodup_nil
    counted := by simp [PolicyTables.ruleIds]
    owned := by simp [PolicyTables.places, keepChildren] }

/-- A ledger that has been through the first migration only, as far as the constraints of its
columns say: the numbers of rules are different and counted, and the defaults are there.  What
belongs to rules may belong to rules that are not there. -/
structure FirstVersion (l : Ledger) (t : PolicyTables) : Prop where
  version : l.version = .ok 1
  tables : l.tables? = some t
  defaults : ∃ row, t.defaults = [row] ∧ row.id = defaultsId
  nodup : t.ruleIds.Nodup
  counted : ∀ id ∈ t.ruleIds, id.toInt ≤ t.rules.highest

/-- What is left when everything that belongs to no rule is removed. -/
def PolicyTables.withoutOrphans (t : PolicyTables) : PolicyTables :=
  t.keepOnly fun owner => owner ∈ t.ruleIds.map some

theorem PolicyTables.places_withoutOrphans {t : PolicyTables} {owner : Option Int64}
    (h : owner ∈ t.withoutOrphans.places) : ∃ id ∈ t.ruleIds, owner = some id := by
  unfold withoutOrphans at h
  rw [places_keepOnly] at h
  obtain ⟨id, hid, rfl⟩ := List.mem_map.mp (of_decide_eq_true (List.mem_filter.mp h).2)
  exact ⟨id, hid, rfl⟩

/-- The second migration removes what belongs to no rule. -/
theorem purgeScript_withTables (l : Ledger) (t : PolicyTables) :
    purgeScript.run (l.withTables t) = .ok (l.withTables t.withoutOrphans) := by
  have hkeep (owner : Option Int64) :
      (t.rules.rows.any fun row => some row.id == owner) =
        decide (owner ∈ t.ruleIds.map some) := by
    rw [Bool.eq_iff_iff, List.any_eq_true, decide_eq_true_iff, PolicyTables.ruleIds]
    simp only [List.map_map, List.mem_map, beq_iff_eq, Function.comp_apply]
  show Except.ok (l.withTables
    (t.keepOnly fun owner => t.rules.rows.any fun row => some row.id == owner)) = _
  simp only [hkeep]
  rfl

theorem PolicyTables.sound_withoutOrphans {t : PolicyTables}
    (hdefaults : ∃ row, t.defaults = [row] ∧ row.id = defaultsId) (hnodup : t.ruleIds.Nodup)
    (hcounted : ∀ id ∈ t.ruleIds, id.toInt ≤ t.rules.highest) : t.withoutOrphans.Sound where
  defaults := hdefaults
  nodup := hnodup
  counted := hcounted
  owned := fun _ howner => places_withoutOrphans (t := t) howner

/-- The versions that are recorded. -/
def recorded (l : Ledger) : List Int :=
  l.versions.getD []

/-- The version is the greatest one that is recorded, and zero where there is none. -/
theorem version_eq_ok_iff {l : Ledger} {v : Nat} :
    l.version = .ok v ↔
      v ≤ greatestVersion ∧ (∀ w ∈ l.recorded, w ≤ v) ∧
        ((v : Int) ∈ l.recorded ∨ l.recorded = [] ∧ v = 0) := by
  unfold version
  rw [show l.versions.getD [] = l.recorded from rfl]
  cases hmax : l.recorded.max? with
  | none =>
      rw [List.max?_eq_none_iff] at hmax
      simp only [hmax, Except.ok.injEq]
      constructor
      · rintro rfl
        simp
      · rintro ⟨-, -, hmem | ⟨-, rfl⟩⟩
        · cases hmem
        · rfl
  | some highest =>
      obtain ⟨hmem, hmost⟩ := List.max?_eq_some_iff.mp hmax
      have hgreatest : ((∀ w ∈ l.recorded, w ≤ (v : Int)) ∧ (v : Int) ∈ l.recorded) ↔
          (v : Int) = highest := by
        constructor
        · rintro ⟨hall, hv⟩
          exact Int.le_antisymm (hmost v hv) (hall highest hmem)
        · rintro rfl
          exact ⟨hmost, hmem⟩
      simp only [List.ne_nil_of_mem hmem, false_and, or_false, hgreatest]
      by_cases hrange : 0 ≤ highest ∧ highest ≤ greatestVersion
      · rw [if_pos hrange, Except.ok.injEq]
        omega
      · rw [if_neg hrange]
        simp only [reduceCtorEq, false_iff]
        omega

theorem recorded_record (w : Nat) (l : Ledger) :
    (record w l).recorded = l.recorded ++ [(w : Int)] :=
  rfl

theorem version_record {l : Ledger} {v w : Nat} (h : l.version = .ok v) (hvw : v ≤ w)
    (hw : w ≤ greatestVersion) : (record w l).version = .ok w := by
  obtain ⟨-, hall, -⟩ := version_eq_ok_iff.mp h
  rw [version_eq_ok_iff, recorded_record]
  refine ⟨hw, fun u hu => ?_, Or.inl (List.mem_append_right _ (List.mem_singleton_self _))⟩
  rcases List.mem_append.mp hu with hold | hlast
  · have hle := hall u hold
    omega
  · exact Int.le_of_eq (List.mem_singleton.mp hlast)

/-- Opening a ledger of the first version takes the one migration that is left, which keeps all
rows but those that belong to no rule. -/
theorem bringUpToDate_firstVersion {l : Ledger} {t : PolicyTables} (hversion : l.version = .ok 1)
    (htables : l.tables? = some t) :
    l.bringUpToDate = (.ok 1, record 2 (l.withTables t.withoutOrphans)) := by
  have hremoved := purgeScript_withTables l t
  rw [← eq_withTables_of_tables? htables] at hremoved
  simp [bringUpToDate, migrations, takeSteps, Migration.step, hversion, hremoved]

theorem wellKept_firstVersion {l : Ledger} {t : PolicyTables} (h : FirstVersion l t) :
    l.bringUpToDate.2.WellKept := by
  rw [bringUpToDate_firstVersion h.version h.tables]
  refine ⟨?_, _, rfl, PolicyTables.sound_withoutOrphans h.defaults h.nodup h.counted⟩
  exact version_record (v := 1) h.version (by decide) (by decide)

/-- Wherever calls lead to from a new ledger, or from one of the first version once it has been
opened, no table is missing and the tables are sound: one row with the number one holds the
defaults, nothing belongs to a rule that is not there, and different rules have different
numbers, none of them above the count.  So nothing belongs to a number above the count, and the
next rule finds nothing that belongs to it already. -/
theorem reachable_tables_sound {start l : Ledger}
    (hstart : start = openBlank ∨
      ∃ old tables, FirstVersion old tables ∧ start = old.bringUpToDate.2)
    (h : Reachable start l) :
    ∃ t, l.tables? = some t ∧ t.Sound ∧
      (∀ id ∈ t.owners, id.toInt ≤ t.rules.highest) ∧
      ∀ id, t.rules.next? = .ok id → id ∉ t.owners := by
  have hwell : start.WellKept := by
    rcases hstart with rfl | ⟨old, tables, hold, rfl⟩
    · exact wellKept_openBlank
    · exact wellKept_firstVersion hold
  obtain ⟨-, t, htables, hsound⟩ := wellKept_of_reachable hwell h
  refine ⟨t, htables, hsound, ?_, ?_⟩
  · intro id hid
    exact hsound.counted id (hsound.mem_ruleIds hid)
  · intro id hnext
    by_cases hroom : t.rules.greatest < greatestId
    · rw [next?_eq_ok hroom] at hnext
      obtain rfl : t.nextId = id := Except.ok.inj hnext
      exact PolicyTables.nextId_not_mem_owners hsound hroom
    · rw [next?_eq_full hroom] at hnext
      cases hnext

/-- Tables of the first version: a rule with a port, a port of a rule that has been deleted, and
a prefix of a rule that has never been there. -/
def strayTables : PolicyTables where
  defaults := [.ofDefaults .initial]
  rules := ⟨[⟨1, "input", "tcp", "accept", none, none, none, truthCell true⟩], 9⟩
  ports := [⟨some 9, .integer 80⟩, ⟨some 1, .integer 22⟩]
  sources := [⟨some 10, "10.0.0.0/8"⟩]
  destinations := []
  icmpTypes := []

/-- A ledger of the first version with these tables. -/
def strayLedger : Ledger :=
  { blank.withTables strayTables with
    versions := some [1]
    users := some firstUsers
    journal := some ⟨[], 0⟩
    indexes := Part.all }

/-- A rule that is created in this ledger after it has been opened gets the number of which a
prefix was left, but not the prefix. -/
theorem strayLedger_tables_sound :
    FirstVersion strayLedger strayTables ∧
      ∃ t, ((Call.create default).run (.distant .zero) (.distant .zero)
          strayLedger.bringUpToDate.2).2.tables? = some t ∧ t.Sound ∧
        (∀ id ∈ t.owners, id.toInt ≤ t.rules.highest) ∧
        ∀ id, t.rules.next? = .ok id → id ∉ t.owners := by
  have hfirst : FirstVersion strayLedger strayTables := {
    version := rfl
    tables := rfl
    defaults := ⟨_, rfl, rfl⟩
    nodup := List.nodup_cons.mpr ⟨List.not_mem_nil, List.nodup_nil⟩
    counted := by
      intro id hid
      obtain rfl : id = 1 := List.mem_singleton.mp hid
      show (1 : Int64).toInt ≤ 9
      decide }
  exact ⟨hfirst, reachable_tables_sound (Or.inr ⟨_, _, hfirst, rfl⟩) (.call _ _ _ .start)⟩

end Ledger
end PacketPolicy
