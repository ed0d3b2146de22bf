import PacketPolicy.Proofs.Ledger.Calls
import PacketPolicy.Proofs.Ledger.Likeness
import PacketPolicy.Proofs.Ledger.Stepwise

/-!
# Listing tables that have been edited by hand

A listing is all or nothing.  It succeeds just when every row that is asked for, and every row that
belongs to one of these, holds what its columns are for; then each row has its rule, and nothing in
the rule comes from anywhere else.  Rows that are not asked for may hold anything.

* `nameOfCell_eq_ok_iff`, `portOfCell_eq_ok_iff`, ... -- the cells from which a column is read;
* `Selected` -- the rows that are asked for; `PolicyTables.InOrder` -- all columns of a row and of
  what belongs to it hold values of their types;
* `PolicyTables.Shows` -- a rule shows a row: it has its columns, and value for value what belongs
  to it;
* `PolicyTables.completed_rule?_eq_ok_iff`, `PolicyTables.inOrder_iff` -- one row;
* `PolicyTables.listed_eq_ok_iff` -- all rows;
* `listing_shows_every_row` -- when a listing succeeds, what it shows, and what it does not depend
  on.
-/

namespace PacketPolicy
namespace Ledger

open Transaction

/-! ## Single columns -/

theorem textOfCell_eq_ok_iff {column : Nat} {name : String} {c : Cell} {s : String} :
    textOfCell column name c = .ok s ↔ c = .text s := by
  cases c <;> simp [textOfCell]

theorem textOfCell?_eq_ok_iff {column : Nat} {name : String} {c : Option Cell}
    {s : Option String} : textOfCell? column name c = .ok s ↔ c = s.map .text := by
  cases c with
  | none => cases s <;> simp [textOfCell?]
  | some c =>
      cases s with
      | none => cases c <;> simp [textOfCell?, textOfCell, Except.map]
      | some s => cases c <;> simp [textOfCell?, textOfCell, Except.map]

theorem nameOfCell_eq_ok_iff {α : Type} [Named α] {column : Nat} {name : String} {c : Cell}
    {a : α} : nameOfCell column name c = .ok a ↔ c = .text (Named.name a) := by
  have hname (s : String) : nameOfColumn column s = .ok a ↔ Named.name a = s := by
    rw [← Named.ofName?_eq_some_iff]
    unfold nameOfColumn
    cases (Named.ofName? s : Option α) <;> simp
  unfold nameOfCell
  simp only [bind_eq_ok_iff, textOfCell_eq_ok_iff, hname]
  constructor
  · rintro ⟨s, rfl, rfl⟩
    rfl
  · rintro rfl
    exact ⟨_, rfl, rfl⟩

theorem truthOfCell_eq_ok_iff {column : Nat} {name : String} {c : Cell} {b : Bool} :
    truthOfCell column name c = .ok b ↔ ∃ n, c = .integer n ∧ (b = true ↔ n ≠ 0) := by
  cases c with
  | integer n =>
      simp only [truthOfCell, Except.ok.injEq, Cell.integer.injEq, exists_eq_left']
      cases b <;> simp
  | real bits => simp [truthOfCell]
  | text s => simp [truthOfCell]
  | garbled bytes => simp [truthOfCell]
  | blob bytes => simp [truthOfCell]

theorem numberOfCell_eq_ok_iff {greatest column : Nat} {name : String} {c : Cell} {k : Nat}
    (hgreatest : greatest < 2 ^ 63) :
    numberOfCell greatest column name c = .ok k ↔
      c = .integer (Int64.ofNat k) ∧ k ≤ greatest := by
  cases c with
  | integer n =>
      simp only [numberOfCell, Cell.integer.injEq]
      constructor
      · intro h
        split at h
        case isTrue hrange =>
          obtain rfl := Except.ok.inj h
          refine ⟨?_, by omega⟩
          rw [← Int64.toInt_inj, Int64.toInt_ofNat_of_lt (by omega)]
          omega
        case isFalse => cases h
      · rintro ⟨rfl, hk⟩
        rw [Int64.toInt_ofNat_of_lt (by omega), if_pos ⟨by omega, by omega⟩, Int.toNat_natCast]
  | real bits => simp [numberOfCell]
  | text s => simp [numberOfCell]
  | garbled bytes => simp [numberOfCell]
  | blob bytes => simp [numberOfCell]

theorem portOfCell_eq_ok_iff {c : Cell} {p : UInt16} :
    portOfCell c = .ok p ↔ c = .integer (Int64.ofNat p.toNat) := by
  refine ⟨fun h => ?_, fun h => h ▸ PolicyTables.portOfCell_ofNat p⟩
  unfold portOfCell at h
  cases hread : numberOfCell 65535 0 "port" c with
  | error fault => simp [hread, Except.map] at h
  | ok k =>
      obtain ⟨rfl, hk⟩ := (numberOfCell_eq_ok_iff (by omega)).mp hread
      simp only [hread, Except.map, Except.ok.injEq] at h
      subst h
      rw [Nat.toUInt16, UInt16.toNat_ofNat_of_lt' (show k < 65536 by omega)]

theorem icmpTypeOfCell_eq_ok_iff {c : Cell} {n : UInt8} :
    icmpTypeOfCell c = .ok n ↔ c = .integer (Int64.ofNat n.toNat) := by
  refine ⟨fun h => ?_, fun h => h ▸ PolicyTables.icmpTypeOfCell_ofNat n⟩
  unfold icmpTypeOfCell at h
  cases hread : numberOfCell 255 0 "itype" c with
  | error fault => simp [hread, Except.map] at h
  | ok k =>
      obtain ⟨rfl, hk⟩ := (numberOfCell_eq_ok_iff (by omega)).mp hread
      simp only [hread, Except.map, Except.ok.injEq] at h
      subst h
      rw [Nat.toUInt8, UInt8.toNat_ofNat_of_lt' (show k < 256 by omega)]

/-! ## Single rows -/

/-- The row is asked for: all rows are, or only those whose mark is one. -/
def Selected (onlyEnabled : Bool) (row : RuleRow) : Prop :=
  onlyEnabled = true → row.enabled = .integer 1

instance (onlyEnabled : Bool) : DecidablePred (Selected onlyEnabled) :=
  fun _ => inferInstanceAs (Decidable (_ → _))

/-- The name of a member of `α`. -/
def Cell.Names (α : Type) [Named α] (c : Cell) : Prop :=
  ∃ a : α, c = .text (Named.name a)

def Cell.IsText (c : Cell) : Prop :=
  ∃ s, c = .text s

/-- A whole number of at most `greatest`. -/
def Cell.Counts (greatest : Nat) (c : Cell) : Prop :=
  ∃ n, c = .integer n ∧ 0 ≤ n.toInt ∧ n.toInt ≤ greatest

/-- Whatever belongs to a rule holds values of one type. -/
def Hold (type : Cell → Prop) (id : Int64) (rows : List (ChildRow Cell)) : Prop :=
  ∀ child ∈ rows, child.owner = some id → type child.value

namespace PolicyTables

/-- Every column of a row, and of what belongs to it, holds a value of its type. -/
structure InOrder (t : PolicyTables) (row : RuleRow) : Prop where
  chain : row.chain.Names Chain
  protocol : row.protocol.Names Protocol
  action : row.action.Names Action
  inInterface : ∀ c ∈ row.inInterface, c.IsText
  outInterface : ∀ c ∈ row.outInterface, c.IsText
  comment : ∀ c ∈ row.comment, c.IsText
  enabled : ∃ n, row.enabled = .integer n
  ports : Hold (Cell.Counts 65535) row.id t.ports
  sources : Hold Cell.IsText row.id t.sources
  destinations : Hold Cell.IsText row.id t.destinations
  icmpTypes : Hold (Cell.Counts 255) row.id t.icmpTypes

/-- The rule has the number and the columns of the row, and for every row that belongs to it one
value, in the order of these rows. -/
structure Shows (t : PolicyTables) (row : RuleRow) (r : Rule) : Prop where
  id : r.id = row.id
  chain : row.chain = .text (Named.name r.chain)
  protocol : row.protocol = .text (Named.name r.protocol)
  action : row.action = .text (Named.name r.action)
  inInterface : row.inInterface = r.inInterface.map .text
  outInterface : row.outInterface = r.outInterface.map .text
  comment : row.comment = r.comment.map .text
  enabled : ∃ n, row.enabled = .integer n ∧ (r.enabled = true ↔ n ≠ 0)
  ports : valuesOf row.id t.ports = r.ports.map fun p => .integer (Int64.ofNat p.toNat)
  sources : valuesOf row.id t.sources = r.sources.map .text
  destinations : valuesOf row.id t.destinations = r.destinations.map .text
  icmpTypes : valuesOf row.id t.icmpTypes = r.icmpTypes.map fun n => .integer (Int64.ofNat n.toNat)

variable {t : PolicyTables}

theorem mapM_portOfCell_eq_ok_iff {cells : List Cell} {ports : List UInt16} :
    cells.mapM portOfCell = .ok ports ↔
      cells = ports.map fun p => .integer (Int64.ofNat p.toNat) :=
  mapM_eq_ok_iff_eq_map fun _ _ => portOfCell_eq_ok_iff

theorem mapM_prefixOfCell_eq_ok_iff {cells : List Cell} {texts : List String} :
    cells.mapM prefixOfCell = .ok texts ↔ cells = texts.map .text :=
  mapM_eq_ok_iff_eq_map fun _ _ => textOfCell_eq_ok_iff

theorem mapM_icmpTypeOfCell_eq_ok_iff {cells : List Cell} {types : List UInt8} :
    cells.mapM icmpTypeOfCell = .ok types ↔
      cells = types.map fun n => .integer (Int64.ofNat n.toNat) :=
  mapM_eq_ok_iff_eq_map fun _ _ => icmpTypeOfCell_eq_ok_iff

/-- A row is read as the rule that shows it. -/
theorem completed_rule?_eq_ok_iff {row : RuleRow} {r : Rule} :
    (row.rule? >>= t.completed) = .ok r ↔ t.Shows row r := by
  simp only [RuleRow.rule?, completed, bind_eq_ok_iff, nameOfCell_eq_ok_iff, textOfCell?_eq_ok_iff,
    truthOfCell_eq_ok_iff, mapM_portOfCell_eq_ok_iff, mapM_prefixOfCell_eq_ok_iff,
    mapM_icmpTypeOfCell_eq_ok_iff]
  constructor
  · rintro ⟨bare, ⟨chain, hchain, protocol, hprotocol, action, haction, inInterface, hin,
      outInterface, hout, comment, hcomment, enabled, henabled, hbare⟩,
      ports, hp, sources, hs, destinations, hd, icmpTypes, hi, hr⟩
    cases hbare
    cases hr
    exact ⟨rfl, hchain, hprotocol, haction, hin, hout, hcomment, henabled, hp, hs, hd, hi⟩
  · rintro ⟨hid, hchain, hprotocol, haction, hin, hout, hcomment, henabled, hp, hs, hd, hi⟩
    obtain ⟨id, chain, protocol, action, inInterface, outInterface, ports, sources, destinations,
      icmpTypes, comment, enabled⟩ := r
    subst hid
    exact ⟨_, ⟨_, hchain, _, hprotocol, _, haction, _, hin, _, hout, _, hcomment, _, henabled, rfl⟩,
      _, hp, _, hs, _, hd, _, hi, rfl⟩

/-- What belongs to a rule is of a type when it can be read as such. -/
theorem hold_iff {α : Type} {type : Cell → Prop} {read : Cell → Except Fault α}
    (htype : ∀ c, type c ↔ ∃ a, read c = .ok a) {id : Int64} {rows : List (ChildRow Cell)} :
    Hold type id rows ↔ ∃ values, (valuesOf id rows).mapM read = .ok values := by
  rw [exists_mapM_eq_ok_iff]
  simp only [Hold, valuesOf, List.mem_map, List.mem_filter, beq_iff_eq, ← htype]
  constructor
  · rintro h c ⟨child, ⟨hmem, howner⟩, rfl⟩
    exact h child hmem howner
  · intro h child hmem howner
    exact h _ ⟨child, ⟨hmem, howner⟩, rfl⟩

theorem isText_iff (c : Cell) : c.IsText ↔ ∃ s, prefixOfCell c = .ok s := by
  simp only [Cell.IsText, prefixOfCell, textOfCell_eq_ok_iff]

theorem counts_port_iff (c : Cell) : c.Counts 65535 ↔ ∃ p, portOfCell c = .ok p := by
  simp only [portOfCell_eq_ok_iff]
  constructor
  · rintro ⟨n, rfl, hlow, hhigh⟩
    refine ⟨n.toInt.toNat.toUInt16, ?_⟩
    rw [← portOfCell_eq_ok_iff]
    simp only [portOfCell, numberOfCell]
    rw [if_pos ⟨hlow, hhigh⟩]
    rfl
  · rintro ⟨p, rfl⟩
    have hlt := p.toNat_lt
    refine ⟨_, rfl, ?_⟩
    rw [Int64.toInt_ofNat_of_lt (by omega)]
    omega

theorem counts_icmpType_iff (c : Cell) : c.Counts 255 ↔ ∃ n, icmpTypeOfCell c = .ok n := by
  simp only [icmpTypeOfCell_eq_ok_iff]
  constructor
  · rintro ⟨n, rfl, hlow, hhigh⟩
    refine ⟨n.toInt.toNat.toUInt8, ?_⟩
    rw [← icmpTypeOfCell_eq_ok_iff]
    simp only [icmpTypeOfCell, numberOfCell]
    rw [if_pos ⟨hlow, hhigh⟩]
    rfl
  · rintro ⟨k, rfl⟩
    have hlt := k.toNat_lt
    refine ⟨_, rfl, ?_⟩
    rw [Int64.toInt_ofNat_of_lt (by omega)]
    omega

theorem forall_isText_iff (column : Option Cell) :
    (∀ c ∈ column, c.IsText) ↔ ∃ s : Option String, column = s.map .text := by
  cases column with
  | none => exact ⟨fun _ => ⟨none, rfl⟩, fun _ c hc => by cases hc⟩
  | some c =>
      simp only [Option.mem_some_iff, forall_eq']
      constructor
      · rintro ⟨s, rfl⟩
        exact ⟨some s, rfl⟩
      · rintro ⟨s, hs⟩
        obtain ⟨a, -, rfl⟩ := Option.map_eq_some_iff.mp hs.symm
        exact ⟨a, rfl⟩

/-- A row in order is one that some rule shows. -/
theorem inOrder_iff {row : RuleRow} : t.InOrder row ↔ ∃ r, t.Shows row r := by
  constructor
  · rintro ⟨⟨chain, hchain⟩, ⟨protocol, hprotocol⟩, ⟨action, haction⟩, hin, hout, hcomment,
      ⟨n, hn⟩, hports, hsources, hdestinations, hicmp⟩
    obtain ⟨inInterface, hin⟩ := (forall_isText_iff _).mp hin
    obtain ⟨outInterface, hout⟩ := (forall_isText_iff _).mp hout
    obtain ⟨comment, hcomment⟩ := (forall_isText_iff _).mp hcomment
    obtain ⟨ports, hports⟩ := (hold_iff counts_port_iff).mp hports
    obtain ⟨sources, hsources⟩ := (hold_iff isText_iff).mp hsources
    obtain ⟨destinations, hdestinations⟩ := (hold_iff isText_iff).mp hdestinations
    obtain ⟨icmpTypes, hicmp⟩ := (hold_iff counts_icmpType_iff).mp hicmp
    exact ⟨⟨row.id, chain, protocol, action, inInterface, outInterface, ports, sources,
      destinations, icmpTypes, comment, decide (n ≠ 0)⟩, {
        id := rfl
        chain := hchain
        protocol := hprotocol
        action := haction
        inInterface := hin
        outInterface := hout
        comment := hcomment
        enabled := ⟨n, hn, decide_eq_true_iff⟩
        ports := mapM_portOfCell_eq_ok_iff.mp hports
        sources := mapM_prefixOfCell_eq_ok_iff.mp hsources
        destinations := mapM_prefixOfCell_eq_ok_iff.mp hdestinations
        icmpTypes := mapM_icmpTypeOfCell_eq_ok_iff.mp hicmp }⟩
  · rintro ⟨r, h⟩
    obtain ⟨n, hn, -⟩ := h.enabled
    exact {
      chain := ⟨_, h.chain⟩
      protocol := ⟨_, h.protocol⟩
      action := ⟨_, h.action⟩
      inInterface := (forall_isText_iff _).mpr ⟨_, h.inInterface⟩
      outInterface := (forall_isText_iff _).mpr ⟨_, h.outInterface⟩
      comment := (forall_isText_iff _).mpr ⟨_, h.comment⟩
      enabled := ⟨n, hn⟩
      ports := (hold_iff counts_port_iff).mpr ⟨_, mapM_portOfCell_eq_ok_iff.mpr h.ports⟩
      sources := (hold_iff isText_iff).mpr ⟨_, mapM_prefixOfCell_eq_ok_iff.mpr h.sources⟩
      destinations := (hold_iff isText_iff).mpr ⟨_, mapM_prefixOfCell_eq_ok_iff.mpr h.destinations⟩
      icmpTypes :=
        (hold_iff counts_icmpType_iff).mpr ⟨_, mapM_icmpTypeOfCell_eq_ok_iff.mpr h.icmpTypes⟩ }

/-! ## All rows -/

theorem selectedRows_eq (onlyEnabled : Bool) (t : PolicyTables) :
    t.selectedRows onlyEnabled =
      (t.rules.rows.filter (Selected onlyEnabled)).mergeSort fun a b => a.id ≤ b.id := by
  have hrows : (if onlyEnabled then t.rules.rows.filter fun row => row.enabled == truthCell true
      else t.rules.rows) = t.rules.rows.filter (Selected onlyEnabled) := by
    cases onlyEnabled with
    | false => simp [Selected]
    | true =>
        refine List.filter_congr fun row _ => ?_
        rw [Bool.eq_iff_iff, beq_iff_eq, decide_eq_true_iff]
        exact ⟨fun h _ => h, fun h => h rfl⟩
  unfold selectedRows
  rw [hrows]

theorem selectedRows_perm (onlyEnabled : Bool) (t : PolicyTables) :
    (t.selectedRows onlyEnabled).Perm (t.rules.rows.filter (Selected onlyEnabled)) := by
  rw [selectedRows_eq]
  exact List.mergeSort_perm _ _

theorem mem_selectedRows {onlyEnabled : Bool} {row : RuleRow} :
    row ∈ t.selectedRows onlyEnabled ↔ row ∈ t.rules.rows ∧ Selected onlyEnabled row := by
  rw [(selectedRows_perm onlyEnabled t).mem_iff, List.mem_filter, decide_eq_true_iff]

theorem pairwise_selectedRows (onlyEnabled : Bool) (t : PolicyTables) :
    (t.selectedRows onlyEnabled).Pairwise fun a b => a.id ≤ b.id := by
  rw [selectedRows_eq]
  refine (List.pairwise_mergeSort (fun a b c hab hbc => ?_) (fun a b => ?_) _).imp
    decide_eq_true_iff.mp
  · simp only [decide_eq_true_iff, Int64.le_iff_toInt_le] at hab hbc ⊢
    omega
  · simp only [Bool.or_eq_true, decide_eq_true_iff, Int64.le_iff_toInt_le]
    omega

/-- A listing that succeeds shows the rows one by one. -/
theorem listed_eq_ok_iff {onlyEnabled : Bool} {rules : List Rule} :
    t.listed onlyEnabled = .ok rules ↔
      List.Forall₂ t.Shows (t.selectedRows onlyEnabled) rules := by
  have hlisted : t.listed onlyEnabled =
      ((t.selectedRows onlyEnabled).mapM RuleRow.rule? >>= fun bare => bare.mapM t.completed) := by
    unfold listed
    simp only [completedAll_eq_mapM]
  rw [hlisted, mapM_bind_mapM_eq_ok_iff]
  simp only [completed_rule?_eq_ok_iff]

/-- One row that is not in order spoils a listing, and nothing else does. -/
theorem exists_listed_eq_ok_iff {onlyEnabled : Bool} :
    (∃ rules, t.listed onlyEnabled = .ok rules) ↔
      ∀ row ∈ t.rules.rows, Selected onlyEnabled row → t.InOrder row := by
  simp only [listed_eq_ok_iff, exists_forall₂_iff, ← inOrder_iff, mem_selectedRows, and_imp]

/-- The same belongs to a rule in both tables. -/
structure Share (id : Int64) (t u : PolicyTables) : Prop where
  ports : valuesOf id t.ports = valuesOf id u.ports
  sources : valuesOf id t.sources = valuesOf id u.sources
  destinations : valuesOf id t.destinations = valuesOf id u.destinations
  icmpTypes : valuesOf id t.icmpTypes = valuesOf id u.icmpTypes

theorem Share.sameParts {id : Int64} {u : PolicyTables} (h : Share id t u) (l m : Ledger) :
    SameParts id (l.withTables t) (m.withTables u) where
  ports := congrArg (List.mapM portOfCell) h.ports
  sources := congrArg (List.mapM prefixOfCell) h.sources
  destinations := congrArg (List.mapM prefixOfCell) h.destinations
  icmpTypes := congrArg (List.mapM icmpTypeOfCell) h.icmpTypes

end PolicyTables

/-- Tables with the same rows to list, and the same for each of these, are listed alike, whatever
else they hold. -/
theorem list_alike_of_share {l m : Ledger} {t u : PolicyTables} (hl : l.tables? = some t)
    (hm : m.tables? = some u) (onlyEnabled : Bool) (d : Deadline)
    (hrows :
      t.rules.rows.filter (Selected onlyEnabled) = u.rules.rows.filter (Selected onlyEnabled))
    (hshare : ∀ row ∈ t.rules.rows, Selected onlyEnabled row → PolicyTables.Share row.id t u) :
    ((list onlyEnabled).commit d l).1 = ((list onlyEnabled).commit d m).1 := by
  rw [eq_withTables_of_tables? hl, eq_withTables_of_tables? hm]
  have hselected : t.selectedRows onlyEnabled = u.selectedRows onlyEnabled := by
    rw [PolicyTables.selectedRows_eq, PolicyTables.selectedRows_eq, hrows]
  refine list_alike onlyEnabled d (congrArg (List.mapM RuleRow.rule?) hselected) ?_
  intro rules hrules r hr
  -- a rule is read from a row that has its number
  have hids : rules.map Rule.id = (t.selectedRows onlyEnabled).map RuleRow.id :=
    map_eq_of_mapM_eq_ok (fun _ _ => id_of_rule?) hrules
  obtain ⟨row, hrow, hid⟩ := List.mem_map.mp (hids ▸ List.mem_map_of_mem (f := Rule.id) hr)
  obtain ⟨hmem, hasked⟩ := PolicyTables.mem_selectedRows.mp hrow
  exact hid ▸ (hshare row hmem hasked).sameParts l m

/-- A listing succeeds just when all rows that are asked for are in order, with what belongs to
them.  It then shows these rows in ascending order of their numbers, each by one rule that has the
columns of the row and a value for every row that belongs to it.  Under any deadline it is the same
for all ledgers that have these rows and what belongs to them, whatever else they hold. -/
theorem listing_shows_every_row {l : Ledger} {t : PolicyTables} (htables : l.tables? = some t)
    (onlyEnabled : Bool) (d : Deadline) :
    (d.Untimed →
      ((∃ rules, (list onlyEnabled).commit d l = (.ok rules, l)) ↔
        ∀ row ∈ t.rules.rows, Selected onlyEnabled row → t.InOrder row)) ∧
    (∀ rules after, (list onlyEnabled).commit d l = (.ok rules, after) →
      after = l ∧
        ∃ rows, rows.Perm (t.rules.rows.filter (Selected onlyEnabled)) ∧
          rows.Pairwise (fun a b => a.id ≤ b.id) ∧ List.Forall₂ t.Shows rows rules) ∧
    ∀ (m : Ledger) (u : PolicyTables), m.tables? = some u →
      t.rules.rows.filter (Selected onlyEnabled) = u.rules.rows.filter (Selected onlyEnabled) →
      (∀ row ∈ t.rules.rows, Selected onlyEnabled row → PolicyTables.Share row.id t u) →
      ((list onlyEnabled).commit d l).1 = ((list onlyEnabled).commit d m).1 := by
  refine ⟨fun hd => ?_, fun rules after hlist => ?_, fun m u hm hrows hshare =>
    list_alike_of_share htables hm onlyEnabled d hrows hshare⟩
  · rw [← PolicyTables.exists_listed_eq_ok_iff, eq_withTables_of_tables? htables,
      commit_of_reads_untimed (reads_list onlyEnabled) hd]
    simp only [Prod.mk.injEq, and_true, mapError_eq_ok_iff]
  · rw [eq_withTables_of_tables? htables] at hlist ⊢
    rcases commit_of_reads (reads_list onlyEnabled) d with hlate | hdone
    · rw [hlate] at hlist
      cases hlist
    · rw [hdone] at hlist
      obtain ⟨hread, hafter⟩ := Prod.mk.inj hlist
      have hshows := PolicyTables.listed_eq_ok_iff.mp (mapError_eq_ok_iff.mp hread)
      exact ⟨hafter.symm, _, PolicyTables.selectedRows_perm onlyEnabled t,
        PolicyTables.pairwise_selectedRows onlyEnabled t, hshows⟩

/-- Tables in which somebody has left a rule without a chain, a port of this rule beyond all ports,
and two ports that belong to no rule, one of them no number.  The other two rules are in order. -/
def editedTables : PolicyTables where
  defaults := [.ofDefaults .initial]
  rules :=
    { rows :=
        [⟨8, "input", "tcp", "accept", none, none, some "web", .integer 1⟩,
          ⟨3, .blob [0], "udp", "drop", none, none, none, .integer 0⟩,
          ⟨5, "output", "all", "drop", some "eth0", none, none, .integer 1⟩]
      highest := 8 }
  ports :=
    [⟨some 8, .integer 443⟩, ⟨some 3, .integer 70000⟩, ⟨some 8, .integer 80⟩,
      ⟨some 4, .text "many"⟩, ⟨none, .integer 22⟩]
  sources := []
  destinations := []
  icmpTypes := []

/-- The rules that are enabled can be listed; all rules together cannot. -/
theorem editedTables_listed :
    (blank.withTables editedTables).tables? = some editedTables ∧
      (∃ rules, (list true).commit (.distant .zero) (blank.withTables editedTables) =
        (.ok rules, blank.withTables editedTables)) ∧
      ¬ ∃ rules, (list false).commit (.distant .zero) (blank.withTables editedTables) =
        (.ok rules, blank.withTables editedTables) := by
  refine ⟨rfl, ?_, ?_⟩
  · rw [(listing_shows_every_row rfl true (.distant .zero)).1 rfl]
    intro row hrow hselected
    rcases hrow with _ | ⟨_, _ | ⟨_, _ | ⟨_, hnone⟩⟩⟩
    · exact PolicyTables.inOrder_iff.mpr ⟨⟨8, .input, .tcp, .accept, none, none, [443, 80], [], [],
        [], some "web", true⟩, PolicyTables.completed_rule?_eq_ok_iff.mp rfl⟩
    · exact absurd (hselected rfl) (by decide)
    · exact PolicyTables.inOrder_iff.mpr ⟨⟨5, .output, .all, .drop, some "eth0", none, [], [], [],
        [], none, true⟩, PolicyTables.completed_rule?_eq_ok_iff.mp rfl⟩
    · cases hnone
  · rw [(listing_shows_every_row rfl false (.distant .zero)).1 rfl]
    intro h
    obtain ⟨chain, hchain⟩ := (h _ (.tail _ (.head _)) nofun).chain
    cases hchain

end Ledger
end PacketPolicy
