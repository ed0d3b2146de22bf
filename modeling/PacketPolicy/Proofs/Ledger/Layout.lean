import PacketPolicy.Proofs.Ledger.Numbers
import PacketPolicy.Proofs.Ledger.Reads
import PacketPolicy.Proofs.Results

/-!
# How a policy lies in the tables

The tables of a policy that has only been changed by transactions: one row for each rule, and in
each further table the blocks of rows that belong to the rules, in the order of the rules.

* `PolicyTables.ofPolicy` -- the tables of a policy;
* `Policy.Numbered` -- the rules stand in ascending order of their numbers, all of them counted;
* `store_ofPolicy`, `storeAll_ofPolicy`, `remove_ofPolicy`, `overwrite_ofPolicy`,
  `clear_ofPolicy` -- what an effect does to the tables of a policy, it does to the policy;
* `listed_ofPolicy`, `loaded_ofPolicy` -- what is read from the tables of a policy is the policy.

Reading puts a rule together from what has its number, so it finds the rule again because no
other rule has the same number.
-/

namespace PacketPolicy

/-- All rules of a policy, or the enabled ones. -/
def Policy.selected (onlyEnabled : Bool) (p : Policy) : List Rule :=
  if onlyEnabled then p.rules.filter Rule.enabled else p.rules

/-- The policy before anybody has changed it. -/
def Policy.initial : Policy where
  defaults := .initial
  rules := []

/-- The rules of a policy stand in ascending order of their numbers, and `highest` is a count
that covers them. -/
structure Policy.Numbered (p : Policy) (highest : Int) : Prop where
  ascending : p.rules.Pairwise fun a b => a.id < b.id
  counted : ∀ r ∈ p.rules, r.id.toInt ≤ highest
  positive : ∀ r ∈ p.rules, 0 < r.id.toInt
  nonneg : 0 ≤ highest
  bounded : highest ≤ Ledger.greatestId

namespace Ledger
namespace PolicyTables

/-- The tables of a policy. -/
def ofPolicy (p : Policy) (highest : Int) : PolicyTables where
  defaults := [.ofDefaults p.defaults]
  rules := ⟨p.rules.map fun r => .ofRule r.id r, highest⟩
  ports := p.rules.flatMap fun r => portRows r.id r.ports
  sources := p.rules.flatMap fun r => textRows r.id r.sources
  destinations := p.rules.flatMap fun r => textRows r.id r.destinations
  icmpTypes := p.rules.flatMap fun r => icmpRows r.id r.icmpTypes

variable {p : Policy} {highest : Int}

/-! ## Effects on the tables of a policy -/

theorem greatest_ofPolicy (h : p.Numbered highest) :
    (ofPolicy p highest).rules.greatest = highest := by
  refine RuleTable.greatest_eq_highest ?_
  intro row hrow
  obtain ⟨r, hr, rfl⟩ := List.mem_map.mp hrow
  exact h.counted r hr

theorem toInt_nextId_ofPolicy (h : p.Numbered highest) (hroom : highest < greatestId) :
    (ofPolicy p highest).nextId.toInt = highest + 1 := by
  rw [toInt_nextId h.nonneg (by rwa [greatest_ofPolicy h]), greatest_ofPolicy h]

theorem insert_ofPolicy (id : Int64) (r : Rule) :
    (ofPolicy p highest).insert id r =
      ofPolicy { p with rules := p.rules ++ [r.withId id] } (max highest id.toInt) := by
  simp [insert, ofPolicy, RuleTable.push, RuleRow.ofRule, Rule.withId]

/-- A rule that is stored becomes the last of the policy. -/
theorem store_ofPolicy (h : p.Numbered highest) (hroom : highest < greatestId) (r : Rule) :
    (ofPolicy p highest).store r =
      ofPolicy { p with rules := p.rules ++ [r.withId (ofPolicy p highest).nextId] }
        (highest + 1) := by
  show (ofPolicy p highest).insert (ofPolicy p highest).nextId r = _
  rw [insert_ofPolicy, toInt_nextId_ofPolicy h hroom, Int.max_eq_right (by omega)]

/-- Its number is above the others. -/
theorem numbered_store (h : p.Numbered highest) (hroom : highest < greatestId) (r : Rule) :
    Policy.Numbered { p with rules := p.rules ++ [r.withId (ofPolicy p highest).nextId] }
      (highest + 1) := by
  have hid := toInt_nextId_ofPolicy h hroom
  have hnonneg := h.nonneg
  have hnew : ∀ q : Rule, q ∈ [r.withId (ofPolicy p highest).nextId] →
      q.id.toInt = highest + 1 := by
    intro q hq
    rw [List.mem_singleton.mp hq]
    exact hid
  constructor
  · refine List.pairwise_append.mpr ⟨h.ascending, List.pairwise_singleton _ _, ?_⟩
    intro a ha b hb
    have hold := h.counted a ha
    rw [Int64.lt_iff_toInt_lt, hnew b hb]
    omega
  · intro q hq
    rcases List.mem_append.mp hq with hold | hlast
    · have hle := h.counted q hold
      omega
    · exact Int.le_of_eq (hnew q hlast)
  · intro q hq
    rcases List.mem_append.mp hq with hold | hlast
    · exact h.positive q hold
    · rw [hnew q hlast]
      omega
  · omega
  · omega

/-- Rows whose owners are rules are kept with the rules. -/
theorem keepChildren_flatMap {α : Type} (keep : Option Int64 → Bool)
    {rows : Rule → List (ChildRow α)}
    (howner : ∀ r, ∀ row ∈ rows r, row.owner = r.id) (rules : List Rule) :
    keepChildren keep (rules.flatMap rows) = (rules.filter fun r => keep r.id).flatMap rows := by
  induction rules with
  | nil => rfl
  | cons r rest ih =>
      have hblock : keepChildren keep (rows r) = if keep r.id then rows r else [] := by
        unfold keepChildren
        split
        · rename_i hkeep
          exact List.filter_eq_self.mpr fun row hrow => by rw [howner r row hrow, hkeep]
        · rename_i hkeep
          exact List.filter_eq_nil_iff.mpr fun row hrow => by rwa [howner r row hrow]
      rw [List.flatMap_cons, List.filter_cons]
      show (rows r ++ rest.flatMap rows).filter _ = _
      rw [List.filter_append]
      show keepChildren keep (rows r) ++ keepChildren keep (rest.flatMap rows) = _
      rw [hblock, ih]
      split <;> simp

theorem owner_of_mem_portRows (id : Int64) (ports : List UInt16) :
    ∀ row ∈ portRows id ports, row.owner = id := by
  simp [portRows]

theorem owner_of_mem_textRows (id : Int64) (texts : List String) :
    ∀ row ∈ textRows id texts, row.owner = id := by
  simp [textRows]

theorem owner_of_mem_icmpRows (id : Int64) (types : List UInt8) :
    ∀ row ∈ icmpRows id types, row.owner = id := by
  simp [icmpRows]

theorem remove_ofPolicy (id : Int64) :
    (ofPolicy p highest).remove id =
      ofPolicy { p with rules := p.rules.filter fun r => r.id != id } highest := by
  simp only [remove, keepOnly, ofPolicy, mk.injEq, RuleTable.mk.injEq, true_and, and_true]
  refine ⟨?_, ?_, ?_, ?_, ?_⟩
  · rw [List.filter_map]
    rfl
  · exact keepChildren_flatMap _ (fun r => owner_of_mem_portRows r.id r.ports) _
  · exact keepChildren_flatMap _ (fun r => owner_of_mem_textRows r.id r.sources) _
  · exact keepChildren_flatMap _ (fun r => owner_of_mem_textRows r.id r.destinations) _
  · exact keepChildren_flatMap _ (fun r => owner_of_mem_icmpRows r.id r.icmpTypes) _

theorem numbered_remove (h : p.Numbered highest) (id : Int64) :
    Policy.Numbered { p with rules := p.rules.filter fun r => r.id != id } highest where
  ascending := h.ascending.filter _
  counted r hr := h.counted r (List.mem_filter.mp hr).1
  positive r hr := h.positive r (List.mem_filter.mp hr).1
  nonneg := h.nonneg
  bounded := h.bounded

theorem overwrite_ofPolicy (d : Defaults) :
    (ofPolicy p highest).overwrite d = ofPolicy { p with defaults := d } highest := by
  simp [overwrite, ofPolicy, DefaultsRow.ofDefaults]

theorem numbered_overwrite (h : p.Numbered highest) (d : Defaults) :
    Policy.Numbered { p with defaults := d } highest where
  ascending := h.ascending
  counted := h.counted
  positive := h.positive
  nonneg := h.nonneg
  bounded := h.bounded

theorem clear_ofPolicy :
    (ofPolicy p highest).clear = ofPolicy { p with rules := [] } highest := by
  simp [clear, keepOnly, keepChildren, ofPolicy]

theorem numbered_clear (h : p.Numbered highest) (d : Defaults) :
    Policy.Numbered { defaults := d, rules := [] } highest where
  ascending := List.Pairwise.nil
  counted := by simp
  positive := by simp
  nonneg := h.nonneg
  bounded := h.bounded

/-- Rules that are stored one after another become the last of the policy, each under the number
that is returned for it, and these numbers are new. -/
theorem storeAll_ofPolicy {rules : List Rule} (h : p.Numbered highest)
    (hroom : (ofPolicy p highest).Storable rules) :
    ∃ ids : List Int64, ids.length = rules.length ∧
      (ofPolicy p highest).storeAll rules =
        (ids, ofPolicy { p with rules := p.rules ++ List.zipWith Rule.withId rules ids }
          (highest + rules.length)) ∧
      Policy.Numbered { p with rules := p.rules ++ List.zipWith Rule.withId rules ids }
        (highest + rules.length) ∧ ∀ id ∈ ids, highest < id.toInt := by
  induction rules generalizing p highest with
  | nil => exact ⟨[], rfl, by simp [storeAll], by simpa using h, by simp⟩
  | cons r rest ih =>
      -- the count of the first rule is where the others go on
      obtain ⟨⟨hnumber, -⟩, hrest⟩ := hroom
      rw [greatest_ofPolicy h] at hnumber
      rw [store_ofPolicy h hnumber] at hrest
      obtain ⟨ids, hlength, hstored, hnumbered, habove⟩ := ih (numbered_store h hnumber r) hrest
      rw [List.append_assoc] at hstored hnumbered
      have hcount : highest + 1 + (rest.length : Int) = highest + ((r :: rest).length : Nat) := by
        rw [List.length_cons]
        omega
      rw [hcount] at hstored hnumbered
      refine ⟨(ofPolicy p highest).nextId :: ids, by simp [hlength], ?_, hnumbered, ?_⟩
      · rw [storeAll, store_ofPolicy h hnumber, hstored]
        rfl
      · refine List.forall_mem_cons.mpr ⟨?_, fun id hid => ?_⟩
        · rw [toInt_nextId_ofPolicy h hnumber]
          omega
        · exact Int.lt_trans (Int.lt_succ highest) (habove id hid)

/-- Where enough numbers are left, a replacement succeeds, and the new rules get the next ones. -/
theorem yields_replaceAll_ofPolicy {l : Ledger} (htables : l.tables? = some (ofPolicy p highest))
    (h : p.Numbered highest) (d : Defaults) {rules : List Rule}
    (hports : ∀ r ∈ rules, 0 ∉ r.ports) (hroom : highest + rules.length ≤ greatestId) :
    ∃ ids : List Int64, ids.length = rules.length ∧ (∀ id ∈ ids, highest < id.toInt) ∧
      Policy.Numbered { defaults := d, rules := List.zipWith Rule.withId rules ids }
        (highest + rules.length) ∧
      Transaction.Yields (replaceAll d rules) l
        (.ok (ids, l.withTables (ofPolicy
          { defaults := d, rules := List.zipWith Rule.withId rules ids }
          (highest + rules.length)))) := by
  have hcleared := numbered_clear h d
  have heffect : ((ofPolicy p highest).overwrite d).clear =
      ofPolicy { defaults := d, rules := [] } highest := by
    rw [overwrite_ofPolicy, clear_ofPolicy]
  have hgreatest := greatest_ofPolicy hcleared
  have hstorable : ((ofPolicy p highest).overwrite d).clear.Storable rules := by
    rw [heffect, storable_iff_room hcleared.nonneg (by rw [hgreatest]; exact hcleared.bounded)]
    exact ⟨by rwa [hgreatest], hports⟩
  obtain ⟨ids, hlength, hstored, hafter, habove⟩ :=
    storeAll_ofPolicy hcleared (heffect ▸ hstorable)
  have hyields := yields_replaceAll (l := l) d hstorable
  rw [← eq_withTables_of_tables? htables, heffect, hstored] at hyields
  exact ⟨ids, hlength, habove, hafter, hyields⟩

/-- Where too few are left, it fails. -/
theorem yields_replaceAll_ofPolicy_fault {l : Ledger}
    (htables : l.tables? = some (ofPolicy p highest)) (h : p.Numbered highest) (d : Defaults)
    {rules : List Rule} (hroom : ¬ highest + rules.length ≤ greatestId) :
    ∃ fault, Transaction.Yields (replaceAll d rules) l (.error fault) := by
  have hcleared := numbered_clear h d
  have hgreatest := greatest_ofPolicy hcleared
  have hstorable : ¬ ((ofPolicy p highest).overwrite d).clear.Storable rules := by
    rw [overwrite_ofPolicy, clear_ofPolicy, storable_iff_room hcleared.nonneg
      (by rw [hgreatest]; exact hcleared.bounded)]
    rintro ⟨hleft, -⟩
    rw [hgreatest] at hleft
    exact hroom hleft
  obtain ⟨fault, hyields⟩ := yields_replaceAll_fault (l := l) d hstorable
  rw [← eq_withTables_of_tables? htables] at hyields
  exact ⟨fault, hyields⟩

/-! ## Reading the tables of a policy -/

/-- What has the number of a rule is what belongs to it, where numbers are different. -/
theorem valuesOf_flatMap {α : Type} {rows : Rule → List (ChildRow α)}
    (howner : ∀ r, ∀ row ∈ rows r, row.owner = r.id) {rules : List Rule}
    (hdistinct : rules.Pairwise fun a b => a.id ≠ b.id) {r : Rule} (hr : r ∈ rules) :
    valuesOf r.id (rules.flatMap rows) = (rows r).map ChildRow.value := by
  -- no other rule has the number, so its rows are all that are kept
  have hself : rules.filter (fun q => some q.id == some r.id) = [r] := by
    induction rules with
    | nil => cases hr
    | cons q rest ih =>
        obtain ⟨hq, hrest⟩ := List.pairwise_cons.mp hdistinct
        rcases List.mem_cons.mp hr with rfl | hmem
        · rw [List.filter_cons_of_pos (by simp), List.filter_eq_nil_iff.mpr]
          intro a ha
          simpa using fun heq => hq a ha heq.symm
        · rw [List.filter_cons_of_neg (by simpa using hq r hmem), ih hrest hmem]
  have hkept := keepChildren_flatMap (fun owner => owner == some r.id) howner rules
  rw [hself, List.flatMap_singleton] at hkept
  unfold valuesOf
  exact congrArg (List.map ChildRow.value) hkept

theorem portOfCell_ofNat (port : UInt16) :
    portOfCell (.integer (Int64.ofNat port.toNat)) = .ok port := by
  have hlt := port.toNat_lt
  have hvalue : (Int64.ofNat port.toNat).toInt = port.toNat :=
    Int64.toInt_ofNat_of_lt (by omega)
  simp only [portOfCell, numberOfCell, hvalue]
  rw [if_pos ⟨by omega, by omega⟩]
  simp [Except.map]

theorem icmpTypeOfCell_ofNat (n : UInt8) :
    icmpTypeOfCell (.integer (Int64.ofNat n.toNat)) = .ok n := by
  have hlt := n.toNat_lt
  have hvalue : (Int64.ofNat n.toNat).toInt = n.toNat :=
    Int64.toInt_ofNat_of_lt (by omega)
  simp only [icmpTypeOfCell, numberOfCell, hvalue]
  rw [if_pos ⟨by omega, by omega⟩]
  simp [Except.map]

theorem mapM_portRows (owner : Int64) (ports : List UInt16) :
    ((portRows owner ports).map ChildRow.value).mapM portOfCell = .ok ports := by
  have hread := mapM_map_ok ports portOfCell_ofNat
  rw [List.map_id'] at hread
  rwa [portRows, List.map_map]

theorem mapM_icmpRows (owner : Int64) (types : List UInt8) :
    ((icmpRows owner types).map ChildRow.value).mapM icmpTypeOfCell = .ok types := by
  have hread := mapM_map_ok types icmpTypeOfCell_ofNat
  rw [List.map_id'] at hread
  rwa [icmpRows, List.map_map]

theorem mapM_textRows (owner : Int64) (texts : List String) :
    ((textRows owner texts).map ChildRow.value).mapM prefixOfCell = .ok texts := by
  have hread : (texts.map Cell.text).mapM prefixOfCell = .ok texts := mapM_map_self fun _ _ => rfl
  rwa [textRows, List.map_map]

/-- The rule as its row alone has it. -/
def bare (r : Rule) : Rule :=
  { r with ports := [], sources := [], destinations := [], icmpTypes := [] }

theorem rule?_ofRule (r : Rule) : (RuleRow.ofRule r.id r).rule? = .ok (bare r) := by
  have htruth : truthOfCell 7 "enabled" (truthCell r.enabled) = .ok r.enabled := by
    cases r.enabled <;> rfl
  have htext (column : Nat) (name : String) (s : Option String) :
      textOfCell? column name (s.map .text) = .ok s := by
    cases s <;> rfl
  simp [RuleRow.rule?, RuleRow.ofRule, htext, htruth, bare, bind, Except.bind, pure, Except.pure]

/-- A rule of the policy gets back what belongs to it. -/
theorem completed_ofPolicy (hdistinct : p.rules.Pairwise fun a b => a.id ≠ b.id) {r : Rule}
    (hr : r ∈ p.rules) : (ofPolicy p highest).completed (bare r) = .ok r := by
  have hports := valuesOf_flatMap (fun r => owner_of_mem_portRows r.id r.ports) hdistinct hr
  have hsources := valuesOf_flatMap (fun r => owner_of_mem_textRows r.id r.sources) hdistinct hr
  have hdestinations :=
    valuesOf_flatMap (fun r => owner_of_mem_textRows r.id r.destinations) hdistinct hr
  have hicmp := valuesOf_flatMap (fun r => owner_of_mem_icmpRows r.id r.icmpTypes) hdistinct hr
  show ((valuesOf r.id (ofPolicy p highest).ports).mapM portOfCell >>= fun ports =>
    (valuesOf r.id (ofPolicy p highest).sources).mapM prefixOfCell >>= fun sources =>
      (valuesOf r.id (ofPolicy p highest).destinations).mapM prefixOfCell >>= fun destinations =>
        (valuesOf r.id (ofPolicy p highest).icmpTypes).mapM icmpTypeOfCell >>= fun icmpTypes =>
          (.ok { r with ports, sources, destinations, icmpTypes } : Except Fault Rule)) = _
  simp only [ofPolicy]
  rw [hports, hsources, hdestinations, hicmp, mapM_portRows, mapM_textRows, mapM_textRows,
    mapM_icmpRows]
  rfl

theorem completedAll_ofPolicy (hdistinct : p.rules.Pairwise fun a b => a.id ≠ b.id)
    {rules : List Rule} (hrules : ∀ r ∈ rules, r ∈ p.rules) :
    (ofPolicy p highest).completedAll (rules.map bare) = .ok rules := by
  induction rules with
  | nil => rfl
  | cons r rest ih =>
      obtain ⟨hfirst, hothers⟩ := List.forall_mem_cons.mp hrules
      rw [List.map_cons, completedAll, completed_ofPolicy hdistinct hfirst]
      show ((ofPolicy p highest).completedAll (rest.map bare) >>= fun rules => _) = _
      rw [ih hothers]
      rfl

theorem mem_of_mem_selected {onlyEnabled : Bool} {r : Rule} (h : r ∈ p.selected onlyEnabled) :
    r ∈ p.rules := by
  unfold Policy.selected at h
  split at h
  · exact (List.mem_filter.mp h).1
  · exact h

theorem pairwise_selected {R : Rule → Rule → Prop} (onlyEnabled : Bool) (h : p.rules.Pairwise R) :
    (p.selected onlyEnabled).Pairwise R := by
  unfold Policy.selected
  split
  · exact h.filter _
  · exact h

/-- The rows are already in order. -/
theorem selectedRows_ofPolicy (onlyEnabled : Bool) (h : p.Numbered highest) :
    (ofPolicy p highest).selectedRows onlyEnabled =
      (p.selected onlyEnabled).map fun r => .ofRule r.id r := by
  have hrows : (if onlyEnabled then
        (ofPolicy p highest).rules.rows.filter fun row => row.enabled == truthCell true
      else (ofPolicy p highest).rules.rows) =
      (p.selected onlyEnabled).map fun r => .ofRule r.id r := by
    cases onlyEnabled with
    | false => rfl
    | true =>
        have henabled (r : Rule) :
            ((RuleRow.ofRule r.id r).enabled == truthCell true) = r.enabled := by
          show (truthCell r.enabled == truthCell true) = r.enabled
          cases r.enabled <;> rfl
        show (p.rules.map fun r => RuleRow.ofRule r.id r).filter _ = _
        rw [List.filter_map]
        exact congrArg _ (List.filter_congr fun r _ => henabled r)
  unfold selectedRows
  rw [hrows]
  -- sorting leaves rows in ascending order where they are
  refine List.mergeSort_of_pairwise (List.pairwise_map.mpr ?_)
  refine (pairwise_selected onlyEnabled h.ascending).imp ?_
  intro a b hlt
  exact decide_eq_true (Int64.le_of_lt hlt)

/-- The rules that are listed are those of the policy. -/
theorem listed_ofPolicy (onlyEnabled : Bool) (h : p.Numbered highest) :
    (ofPolicy p highest).listed onlyEnabled = .ok (p.selected onlyEnabled) := by
  have hdistinct : p.rules.Pairwise fun a b => a.id ≠ b.id :=
    h.ascending.imp Int64.ne_of_lt
  unfold listed
  rw [selectedRows_ofPolicy onlyEnabled h, mapM_map_ok _ rule?_ofRule]
  exact completedAll_ofPolicy hdistinct fun r hr => mem_of_mem_selected hr

/-- The defaults that are read are those of the policy. -/
theorem loaded_ofPolicy (p : Policy) (highest : Int) :
    (ofPolicy p highest).loaded = .ok (some p.defaults) := by
  have hfound : (ofPolicy p highest).defaultsRow? = some (.ofDefaults p.defaults) := rfl
  rw [loaded, hfound]
  show (DefaultsRow.ofDefaults p.defaults).defaults?.map some = _
  rw [defaults?_ofDefaults]
  rfl

end PolicyTables
end Ledger
end PacketPolicy
