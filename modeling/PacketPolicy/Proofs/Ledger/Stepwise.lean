import PacketPolicy.Proofs.Ledger.Failures
import PacketPolicy.Proofs.Ledger.Numbering

/-!
# A replacement step by step

What a replacement does at once can also be done by calls one after another: the defaults are set,
the rules that are there are deleted in any order, and the new rules are created.  Both ways lead to
the same ledger, to the last row and the count.

* `stepwise` -- the calls;
* `PolicyTables.foldl_remove`, `PolicyTables.foldl_remove_eq_clear` -- what is left when rules are
  removed one after another; where nothing belongs to a rule that is not there, this is nothing;
* `PolicyTables.map_id_listed` -- the numbers of the rules that are listed are those of the rows;
* `Proceeds`, `ProceedsAll` -- what calls do to the tables when they are in time, and which numbers
  they give; `ProceedsAll.runAll` -- the answers that come of it;
* `proceedsAll_stepwise` -- the calls lead to the tables that a replacement leads to;
* `replacement_agrees_with_steps` -- so both ways end alike, for any reachable ledger.
-/

namespace PacketPolicy
namespace Ledger

open Transaction

/-- The calls that do one after another what a replacement does at once. -/
def stepwise (order : List Int64) (d : Defaults) (rules : List Rule) : List Call :=
  .setDefaults d :: (order.map Call.delete ++ rules.map Call.create)

/-- A call that was not refused. -/
def Answered.Succeeds (a : Answered) : Prop :=
  ∃ result, a.answer = .ok result

namespace PolicyTables

variable {t : PolicyTables}

/-! ## Removing rules one after another -/

theorem keepChildren_keepChildren {α : Type} (keep also : Option Int64 → Bool)
    (rows : List (ChildRow α)) :
    keepChildren also (keepChildren keep rows) =
      keepChildren (fun owner => also owner && keep owner) rows := by
  simp only [keepChildren, List.filter_filter]

/-- What is left depends on what is kept of the places to which something belongs. -/
theorem keepOnly_congr {keep also : Option Int64 → Bool}
    (h : ∀ owner ∈ t.places, keep owner = also owner) : t.keepOnly keep = t.keepOnly also := by
  simp only [places, List.mem_append, or_assoc] at h
  have hkept {α : Type} {rows : List (ChildRow α)}
      (hrows : ∀ row ∈ rows, keep row.owner = also row.owner) :
      keepChildren keep rows = keepChildren also rows :=
    List.filter_congr hrows
  unfold keepOnly
  rw [hkept fun row hrow => h _ (.inl (List.mem_map_of_mem hrow)),
    hkept fun row hrow => h _ (.inr (.inl (List.mem_map_of_mem hrow))),
    hkept fun row hrow => h _ (.inr (.inr (.inl (List.mem_map_of_mem hrow)))),
    hkept fun row hrow => h _ (.inr (.inr (.inr (List.mem_map_of_mem hrow))))]

/-- The tables without some rules and what belongs to them. -/
def without (order : List Int64) (t : PolicyTables) : PolicyTables :=
  { t.keepOnly (fun owner => !owner.any order.contains) with
    rules := { t.rules with rows := t.rules.rows.filter fun row => !order.contains row.id } }

/-- Rules that are removed one after another leave the others and what belongs to these. -/
theorem foldl_remove (order : List Int64) (t : PolicyTables) :
    order.foldl (fun t id => t.remove id) t = t.without order := by
  induction order generalizing t with
  | nil =>
      have hall {α : Type} (rows : List α) : (rows.filter fun _ => true) = rows :=
        List.filter_eq_self.mpr fun _ _ => rfl
      have hnone (owner : Option Int64) : owner.any ([] : List Int64).contains = false := by
        cases owner <;> rfl
      simp [without, keepOnly, keepChildren, hall, hnone]
  | cons id rest ih =>
      have hkeep (other : Int64) :
          (!(id :: rest).contains other) = (!rest.contains other && other != id) := by
        rw [List.contains_cons, Bool.not_or, Bool.and_comm]
        rfl
      have hleft (owner : Option Int64) :
          (!owner.any (id :: rest).contains) = (!owner.any rest.contains && owner != some id) := by
        cases owner with
        | none => rfl
        | some other => exact hkeep other
      rw [List.foldl_cons, ih]
      simp only [without, remove, keepOnly, keepChildren_keepChildren, List.filter_filter, hkeep,
        hleft]

/-- Where nothing belongs to a rule that is not there, removing all rules leaves nothing. -/
theorem foldl_remove_eq_clear (h : t.Sound) {order : List Int64}
    (horder : ∀ id ∈ t.ruleIds, id ∈ order) :
    order.foldl (fun t id => t.remove id) t = t.clear := by
  -- what is removed with each rule is all that belongs to it, and no row belongs to anything else
  have howners : t.keepOnly (fun owner => !owner.any order.contains) = t.keepOnly fun _ => false :=
    keepOnly_congr fun owner howner => by
      obtain ⟨id, hid, rfl⟩ := h.owned owner howner
      simpa using horder id hid
  have hrows : (t.rules.rows.filter fun row => !order.contains row.id) = [] := by
    rw [List.filter_eq_nil_iff]
    intro row hrow
    simpa using horder row.id (List.mem_map_of_mem hrow)
  rw [foldl_remove, without, howners, hrows]
  rfl

/-! ## The rules that are listed -/

theorem completedAll_eq_mapM (rules : List Rule) :
    t.completedAll rules = rules.mapM t.completed := by
  induction rules with
  | nil => rfl
  | cons r rest ih => rw [completedAll, ih, List.mapM_cons]

theorem id_of_completed {r made : Rule} (h : t.completed r = .ok made) : made.id = r.id := by
  unfold completed at h
  simp only [bind_eq_ok_iff] at h
  obtain ⟨ports, -, sources, -, destinations, -, icmpTypes, -, heq⟩ := h
  cases heq
  rfl

/-- The rules that are listed have the numbers of the rows. -/
theorem map_id_listed {present : List Rule} (h : t.listed false = .ok present) :
    (present.map Rule.id).Perm t.ruleIds := by
  obtain ⟨read, hread, hcompleted⟩ := bind_eq_ok_iff.mp h
  rw [completedAll_eq_mapM] at hcompleted
  have hids : present.map Rule.id = (t.selectedRows false).map RuleRow.id := by
    rw [map_eq_of_mapM_eq_ok (fun _ _ => id_of_completed) hcompleted,
      map_eq_of_mapM_eq_ok (fun _ _ => id_of_rule?) hread]
  rw [hids]
  exact (List.mergeSort_perm _ _).map _

end PolicyTables

/-! ## Calls in time -/

/-- In time, the call succeeds on these tables, gives these numbers, and leaves those tables. -/
def Proceeds (c : Call) (t : PolicyTables) (given : List Int64) (after : PolicyTables) : Prop :=
  ∀ (l : Ledger) (first second : Deadline), first.Untimed →
    ∃ result, c.run first second (l.withTables t) = (.ok result, l.withTables after) ∧
      Answered.given ⟨c, .ok result⟩ = given

/-- So do calls one after another. -/
inductive ProceedsAll : List Call → PolicyTables → List Int64 → PolicyTables → Prop where
  | nil (t : PolicyTables) : ProceedsAll [] t [] t
  | cons {c : Call} {rest : List Call} {t mid after : PolicyTables} {given more : List Int64} :
      Proceeds c t given mid → ProceedsAll rest mid more after →
        ProceedsAll (c :: rest) t (given ++ more) after

variable {t mid after : PolicyTables} {given more : List Int64} {calls others : List Call}

theorem ProceedsAll.append (h : ProceedsAll calls t given mid)
    (hothers : ProceedsAll others mid more after) :
    ProceedsAll (calls ++ others) t (given ++ more) after := by
  induction h with
  | nil t => exact hothers
  | cons hcall _ ih =>
      rw [List.append_assoc]
      exact .cons hcall (ih hothers)

/-- What calls in time answer, and the ledger that they leave. -/
theorem ProceedsAll.runAll (h : ProceedsAll calls t given after) {timed : List Call.Timed}
    (htimed : timed.map Call.Timed.call = calls) (htime : ∀ c ∈ timed, c.first.Untimed)
    (l : Ledger) :
    (∀ a ∈ (runAll (l.withTables t) timed).1, a.Succeeds) ∧
      givenBy (runAll (l.withTables t) timed).1 = given ∧
      (runAll (l.withTables t) timed).2 = l.withTables after := by
  induction h generalizing timed with
  | nil t =>
      obtain rfl := List.map_eq_nil_iff.mp htimed
      exact ⟨by simp [Ledger.runAll], rfl, rfl⟩
  | cons hcall _ ih =>
      obtain ⟨⟨call, first, second⟩, rest, rfl, rfl, hrest⟩ := List.map_eq_cons_iff.mp htimed
      obtain ⟨hfirst, hothers⟩ := List.forall_mem_cons.mp htime
      -- the other calls go on in the same ledger, but for the tables that the first one left
      obtain ⟨result, hrun, hgiven⟩ := hcall l first second hfirst
      obtain ⟨hsucceed, hmore, hafter⟩ := ih hrest hothers
      simp only [Ledger.runAll, hrun]
      refine ⟨List.forall_mem_cons.mpr ⟨⟨result, rfl⟩, hsucceed⟩, ?_, hafter⟩
      rw [← hgiven, ← hmore]
      rfl

theorem proceeds_setDefaults (d : Defaults) (t : PolicyTables) :
    Proceeds (.setDefaults d) t [] (t.overwrite d) :=
  fun _ _ _ hfirst => ⟨(), commit_eq_of_untimed (yields_setDefaults d) hfirst, rfl⟩

theorem proceeds_delete (id : Int64) (t : PolicyTables) :
    Proceeds (.delete id) t [] (t.remove id) :=
  fun _ _ _ hfirst => ⟨_, commit_eq_of_untimed (yields_delete id) hfirst, rfl⟩

theorem proceeds_create {r : Rule} (h : t.Storable [r]) :
    Proceeds (.create r) t [t.nextId] (t.store r) :=
  fun _ _ _ hfirst => ⟨_, commit_eq_of_untimed (yields_storeRule r h.1.1 h.1.2) hfirst, rfl⟩

theorem proceedsAll_deletes (order : List Int64) (t : PolicyTables) :
    ProceedsAll (order.map Call.delete) t [] (order.foldl (fun t id => t.remove id) t) := by
  induction order generalizing t with
  | nil => exact .nil t
  | cons id rest ih => exact .cons (proceeds_delete id t) (ih (t.remove id))

theorem proceedsAll_creates {rules : List Rule} (h : t.Storable rules) :
    ProceedsAll (rules.map Call.create) t (t.storeAll rules).1 (t.storeAll rules).2 := by
  induction rules generalizing t with
  | nil => exact .nil t
  | cons r rest ih => exact .cons (proceeds_create ⟨h.1, trivial⟩) (ih h.2)

/-- Where the rules can be stored after all others have been removed, the calls lead there. -/
theorem proceedsAll_stepwise (h : t.Sound) {order : List Int64}
    (horder : ∀ id ∈ t.ruleIds, id ∈ order) (d : Defaults) {rules : List Rule}
    (hroom : (t.overwrite d).clear.Storable rules) :
    ProceedsAll (stepwise order d rules) t ((t.overwrite d).clear.storeAll rules).1
      ((t.overwrite d).clear.storeAll rules).2 := by
  have hremoved := proceedsAll_deletes order (t.overwrite d)
  rw [PolicyTables.foldl_remove_eq_clear (PolicyTables.sound_overwrite h d) horder] at hremoved
  exact .cons (proceeds_setDefaults d t) (hremoved.append (proceedsAll_creates hroom))

/-! ## Both ways -/

/-- The numbers of the rules that are listed are those of the rows, so whoever deletes them deletes
all rules. -/
theorem mem_of_perm_listed {l : Ledger} {t : PolicyTables} (htables : l.tables? = some t)
    {first second : Deadline} {present : List Rule}
    (hpresent : ((Call.list false).run first second l).1 = .ok present) {order : List Int64}
    (horder : order.Perm (present.map Rule.id)) : ∀ id ∈ t.ruleIds, id ∈ order := by
  have hread := run_list (l := l) (t := t) first second false
  rw [← eq_withTables_of_tables? htables] at hread
  intro id hid
  rcases hread with hlate | hdone
  · rw [hlate] at hpresent
    cases hpresent
  · rw [hdone] at hpresent
    have hlisted := PolicyTables.map_id_listed (mapError_eq_ok_iff.mp hpresent)
    exact horder.mem_iff.mpr (hlisted.mem_iff.mpr hid)

/-- On any ledger that calls lead to, from a new one or from one of the first version once it has
been opened, a replacement that succeeds can be done step by step: the defaults are set, the rules
that are listed are deleted in any order, and the new rules are created.  In time, each of these
calls succeeds, the numbers that they return are those that the replacement returns, and the ledger
is the same in the end, with its defaults, its rules and what belongs to each, and the count from
which later rules get their numbers.  Where one of the calls fails, the replacement fails too and
leaves the ledger as it was. -/
theorem replacement_agrees_with_steps {start l : Ledger}
    (hstart : start = openBlank ∨
      ∃ old tables, FirstVersion old tables ∧ start = old.bringUpToDate.2)
    (h : Reachable start l) {present : List Rule} {f s : Deadline}
    (hpresent : ((Call.list false).run f s l).1 = .ok present) {order : List Int64}
    (horder : order.Perm (present.map Rule.id)) (d : Defaults) (rules : List Rule)
    {timed : List Call.Timed} (htimed : timed.map Call.Timed.call = stepwise order d rules)
    (htime : ∀ c ∈ timed, c.first.Untimed) (first second : Deadline) :
    (∀ (ids : List Int64) (after : Ledger),
        (Call.replaceAll d rules).run first second l = (.ok ids, after) →
        (∀ a ∈ (runAll l timed).1, a.Succeeds) ∧ givenBy (runAll l timed).1 = ids ∧
          (runAll l timed).2 = after) ∧
      ((∃ a ∈ (runAll l timed).1, ¬a.Succeeds) →
        ∃ e, (Call.replaceAll d rules).run first second l = (.error e, l)) := by
  have hwell : start.WellKept := by
    rcases hstart with rfl | ⟨old, tables, hold, rfl⟩
    · exact wellKept_openBlank
    · exact wellKept_firstVersion hold
  obtain ⟨-, t, htables, hsound⟩ := wellKept_of_reachable hwell h
  have hids := mem_of_perm_listed htables hpresent horder
  -- both ways need the same room: that the new rules can be stored where there are none
  have hsteps (hroom : (t.overwrite d).clear.Storable rules) :=
    (proceedsAll_stepwise hsound hids d hroom).runAll htimed htime l
  have hreplaced := run_replaceAll (l := l) (t := t) first second d rules
  rw [← eq_withTables_of_tables? htables] at hsteps hreplaced
  rcases hreplaced with ⟨e, hfail⟩ | ⟨hroom, hdone⟩
  · refine ⟨fun ids after hok => ?_, fun _ => ⟨e, hfail⟩⟩
    rw [hfail] at hok
    cases hok
  · obtain ⟨hsucceed, hgiven, hafter⟩ := hsteps hroom
    refine ⟨fun ids after hok => ?_, ?_⟩
    · rw [hdone] at hok
      cases hok
      exact ⟨hsucceed, hgiven, hafter⟩
    · rintro ⟨a, ha, hfails⟩
      exact absurd (hsucceed a ha) hfails

/-- The calls with all the time that they need. -/
def unhurried (calls : List Call) : List Call.Timed :=
  calls.map fun c => ⟨c, .distant .zero, .distant .zero⟩

theorem unhurried_untimed (calls : List Call) : ∀ c ∈ unhurried calls, c.first.Untimed := by
  intro c hc
  obtain ⟨call, -, rfl⟩ := List.mem_map.mp hc
  exact Deadline.distant_untimed _

/-- The only rule of the ledger. -/
def onlyRule : Rule :=
  { (default : Rule) with id := 1, ports := [22] }

theorem oneRuleLedger_lists :
    ((Call.list false).run (.distant .zero) (.distant .zero) oneRuleLedger).1 = .ok [onlyRule] := by
  have hholds : oneRuleLedger.Holds ⟨.initial, [onlyRule]⟩ :=
    (holds_run openBlank_holds (.create { (default : Rule) with ports := [22] })
      (.distant .zero) (.distant .zero)).2
  rcases (hholds.reads false (.distant .zero) (.distant .zero)).1 with hread | ⟨hlate, -⟩
  · rw [hread]
    rfl
  · exact absurd (Deadline.distant_untimed _) hlate

/-- Two rules take the place of one, at once and step by step. -/
theorem oneRuleLedger_replaced :
    let rules : List Rule := [{ (default : Rule) with ports := [443, 80] }, default]
    let timed := unhurried (stepwise [1] .initial rules)
    Reachable openBlank oneRuleLedger ∧
      ((Call.list false).run (.distant .zero) (.distant .zero) oneRuleLedger).1 = .ok [onlyRule] ∧
      [(1 : Int64)].Perm ([onlyRule].map Rule.id) ∧ (∀ c ∈ timed, c.first.Untimed) ∧
      ∃ after, (Call.replaceAll .initial rules).run (.distant .zero) (.distant .zero)
          oneRuleLedger = (.ok ([2, 3] : List Int64), after) ∧
        givenBy (runAll oneRuleLedger timed).1 = [2, 3] ∧
        (runAll oneRuleLedger timed).2 = after := by
  intro rules timed
  have hreachable : Reachable openBlank oneRuleLedger :=
    .call (.create { (default : Rule) with ports := [22] }) (.distant .zero) (.distant .zero) .start
  have horder : [(1 : Int64)].Perm ([onlyRule].map Rule.id) := List.Perm.refl _
  have htimed : timed.map Call.Timed.call = stepwise [1] .initial rules := rfl
  have htime := unhurried_untimed (stepwise [1] .initial rules)
  have hids : ((replaceAll .initial rules).commit (.distant .zero) oneRuleLedger).1.toOption =
      some [2, 3] := by
    decide +kernel
  refine ⟨hreachable, oneRuleLedger_lists, horder, htime, ?_⟩
  cases hrun : (replaceAll .initial rules).commit (.distant .zero) oneRuleLedger with
  | mk answer after =>
      rw [hrun] at hids
      cases answer with
      | error e => cases hids
      | ok ids =>
          obtain rfl := Option.some.inj hids
          obtain ⟨-, hgiven, hafter⟩ :=
            (replacement_agrees_with_steps (.inl rfl) hreachable oneRuleLedger_lists horder
              .initial rules htimed htime (.distant .zero) (.distant .zero)).1 _ after hrun
          exact ⟨after, hrun, hgiven, hafter⟩

end Ledger
end PacketPolicy
