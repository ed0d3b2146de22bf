import PacketPolicy.Proofs.Ledger.Timing

/-!
# What transactions do to the tables

The tables that hold a policy, taken apart from the rest of the ledger, and the effect of each
transaction on them when none of them is missing.

* `PolicyTables`, `Ledger.withTables`, `Ledger.tables?` -- the tables, and ledgers that have them;
* `PolicyTables.store`, `PolicyTables.storeAll`, `PolicyTables.remove`, `PolicyTables.clear`,
  `PolicyTables.overwrite` -- the effects of the transactions that change a policy;
* `yields_storeRule`, `yields_delete`, `yields_setDefaults`, `yields_replaceAll`, ... -- the
  transactions have these effects;
* `PolicyTables.Storable`, `PolicyTables.Room` -- when rules can be stored at all: enough numbers
  are left, and no port is zero.

A rule is stored by one statement for its row and one for each thing that belongs to it.  Each of
these statements appends one row to one table, so the effect of the whole is to append a block of
rows to each table; that is what `yields_each_append` reduces a loop to.
-/

namespace PacketPolicy
namespace Ledger

open Transaction

/-- The tables that hold a policy. -/
structure PolicyTables where
  defaults : List DefaultsRow
  rules : RuleTable
  ports : List (ChildRow Cell)
  sources : List (ChildRow Cell)
  destinations : List (ChildRow Cell)
  icmpTypes : List (ChildRow Cell)
deriving DecidableEq, Repr, Inhabited

/-- The ledger with these tables in place of its own. -/
def withTables (l : Ledger) (t : PolicyTables) : Ledger :=
  { l with
    defaults := some t.defaults
    rules := some t.rules
    ports := some t.ports
    sources := some t.sources
    destinations := some t.destinations
    icmpTypes := some t.icmpTypes }

/-- The tables of a policy, if none of them is missing. -/
def tables? (l : Ledger) : Option PolicyTables := do
  let defaults ← l.defaults
  let rules ← l.rules
  let ports ← l.ports
  let sources ← l.sources
  let destinations ← l.destinations
  let icmpTypes ← l.icmpTypes
  return { defaults, rules, ports, sources, destinations, icmpTypes }

@[simp]
theorem tables?_withTables (l : Ledger) (t : PolicyTables) : (l.withTables t).tables? = some t :=
  rfl

theorem eq_withTables_of_tables? {l : Ledger} {t : PolicyTables} (h : l.tables? = some t) :
    l = l.withTables t := by
  obtain ⟨versions, defaults, rules, ports, sources, destinations, icmpTypes, users, journal⟩ := l
  simp only [tables?, Option.bind_eq_bind, Option.bind_eq_some_iff] at h
  obtain ⟨_, rfl, _, rfl, _, rfl, _, rfl, _, rfl, _, rfl, h⟩ := h
  cases h
  rfl

/-! ## Rows of rules -/

/-- The rows of a rule's ports. -/
def portRows (owner : Int64) (ports : List UInt16) : List (ChildRow Cell) :=
  ports.map fun p => ⟨some owner, .integer (Int64.ofNat p.toNat)⟩

/-- The rows of a rule's prefixes. -/
def textRows (owner : Int64) (texts : List String) : List (ChildRow Cell) :=
  texts.map fun s => ⟨some owner, .text s⟩

/-- The rows of a rule's message types. -/
def icmpRows (owner : Int64) (types : List UInt8) : List (ChildRow Cell) :=
  types.map fun n => ⟨some owner, .integer (Int64.ofNat n.toNat)⟩

namespace PolicyTables

/-- The rows of what belongs to rules. -/
def rows (t : PolicyTables) : Part → List (ChildRow Cell)
  | .ports => t.ports
  | .sources => t.sources
  | .destinations => t.destinations
  | .icmpTypes => t.icmpTypes

/-- The tables with other rows in one of what belongs to rules. -/
def withRows (t : PolicyTables) (rows : List (ChildRow Cell)) : Part → PolicyTables
  | .ports => { t with ports := rows }
  | .sources => { t with sources := rows }
  | .destinations => { t with destinations := rows }
  | .icmpTypes => { t with icmpTypes := rows }

/-- The number that the next rule gets. -/
def nextId (t : PolicyTables) : Int64 :=
  Int64.ofInt (t.rules.greatest + 1)

/-- The tables with a rule under a number. -/
def insert (id : Int64) (r : Rule) (t : PolicyTables) : PolicyTables :=
  { t with
    rules := t.rules.push (.ofRule id r)
    ports := t.ports ++ portRows id r.ports
    sources := t.sources ++ textRows id r.sources
    destinations := t.destinations ++ textRows id r.destinations
    icmpTypes := t.icmpTypes ++ icmpRows id r.icmpTypes }

/-- The tables with one more rule. -/
def store (r : Rule) (t : PolicyTables) : PolicyTables :=
  t.insert t.nextId r

/-- The tables with more rules, and the numbers that these get. -/
def storeAll : List Rule → PolicyTables → List Int64 × PolicyTables
  | [], t => ([], t)
  | r :: rest, t =>
      let (ids, after) := storeAll rest (t.store r)
      (t.nextId :: ids, after)

/-- The tables without what belongs to rules that `keep` does not keep. -/
def keepOnly (keep : Option Int64 → Bool) (t : PolicyTables) : PolicyTables :=
  { t with
    ports := keepChildren keep t.ports
    sources := keepChildren keep t.sources
    destinations := keepChildren keep t.destinations
    icmpTypes := keepChildren keep t.icmpTypes }

/-- The tables without a rule and what belongs to it. -/
def remove (id : Int64) (t : PolicyTables) : PolicyTables :=
  { t.keepOnly (fun owner => owner != some id) with
    rules := { t.rules with rows := t.rules.rows.filter fun row => row.id != id } }

/-- The tables without rules. -/
def clear (t : PolicyTables) : PolicyTables :=
  { t.keepOnly (fun _ => false) with rules := { t.rules with rows := [] } }

/-- The tables with other defaults. -/
def overwrite (d : Defaults) (t : PolicyTables) : PolicyTables :=
  { t with
    defaults :=
      if t.defaults.any fun row => row.id == defaultsId then
        t.defaults.map fun old => if old.id == defaultsId then .ofDefaults d else old
      else t.defaults ++ [.ofDefaults d] }

/-- Whether rules can be stored one after another: there is a number for each, and none has the
port zero. -/
def Storable : List Rule → PolicyTables → Prop
  | [], _ => True
  | r :: rest, t =>
      (t.rules.greatest < greatestId ∧ 0 ∉ r.ports) ∧ Storable rest (t.store r)

/-- Whether enough numbers are left for some rules, none of which has the port zero. -/
structure Room (rules : List Rule) (t : PolicyTables) : Prop where
  numbers : t.rules.greatest + rules.length ≤ greatestId
  ports : ∀ r ∈ rules, 0 ∉ r.ports

end PolicyTables

/-! ## Loops that append rows -/

variable {α γ : Type}

/-- A loop whose statements append one row each appends a block of rows.  `tableOf` is the ledger
with given rows in the table at hand. -/
theorem yields_each_append (tableOf : List γ → Ledger) {f : α → Transaction Unit} {row : α → γ}
    {items : List α}
    (hstep : ∀ a ∈ items, ∀ rows,
      Yields (f a) (tableOf rows) (.ok ((), tableOf (rows ++ [row a]))))
    (rows : List γ) :
    Yields (each f items) (tableOf rows) (.ok ((), tableOf (rows ++ items.map row))) := by
  induction items generalizing rows with
  | nil => simpa [each] using yields_pure () (tableOf rows)
  | cons a rest ih =>
      have hrest := ih (fun b hb => hstep b (List.mem_cons_of_mem _ hb)) (rows ++ [row a])
      rw [List.append_assoc] at hrest
      exact yields_bind_ok (hstep a List.mem_cons_self rows) hrest

/-- A loop that comes upon an item with a fault ends with it. -/
theorem yields_each_fault (tableOf : List γ → Ledger) (row : α → γ) (bad : α → Prop)
    {f : α → Transaction Unit} {fault : Fault}
    (hgood : ∀ a, ¬ bad a →
      ∀ rows, Yields (f a) (tableOf rows) (.ok ((), tableOf (rows ++ [row a]))))
    (hbad : ∀ a, bad a → ∀ rows, Yields (f a) (tableOf rows) (.error fault))
    {items : List α} (hitems : ∃ a ∈ items, bad a) (rows : List γ) :
    Yields (each f items) (tableOf rows) (.error fault) := by
  induction items generalizing rows with
  | nil => simp at hitems
  | cons a rest ih =>
      by_cases ha : bad a
      · exact yields_bind_error (hbad a ha rows)
      · obtain ⟨b, hb, hbBad⟩ := hitems
        have hrest : b ∈ rest := by
          rcases List.mem_cons.mp hb with rfl | hb
          · exact absurd hbBad ha
          · exact hb
        exact yields_bind_ok (hgood a ha rows) (ih ⟨b, hrest, hbBad⟩ _)

/-! ## Storing rules -/

variable {l : Ledger} {t : PolicyTables}

theorem next?_eq_ok {rules : RuleTable} (h : rules.greatest < greatestId) :
    rules.next? = .ok (Int64.ofInt (rules.greatest + 1)) :=
  if_pos h

theorem next?_eq_full {rules : RuleTable} (h : ¬ rules.greatest < greatestId) :
    rules.next? = .error .full :=
  if_neg h

theorem insertRule_ok (r : Rule) (h : t.rules.greatest < greatestId) :
    insertRule r (l.withTables t) =
      .ok (t.nextId, l.withTables { t with rules := t.rules.push (.ofRule t.nextId r) }) := by
  show (t.rules.next? >>= fun id => _) = _
  rw [next?_eq_ok h]
  rfl

theorem insertRule_full (r : Rule) (h : ¬ t.rules.greatest < greatestId) :
    insertRule r (l.withTables t) = .error .full := by
  show (t.rules.next? >>= fun id => _) = _
  rw [next?_eq_full h]
  rfl

/-- What is done to the rows of what belongs to rules, where the table is there. -/
theorem changePart_withTables (part : Part)
    (f : List (ChildRow Cell) → Except Fault (List (ChildRow Cell))) :
    changePart part f (l.withTables t) =
      (f (t.rows part)).map fun rows => ((), l.withTables (t.withRows rows part)) := by
  have hthere : need part.table ((l.withTables t).rows? part) = .ok (t.rows part) := by
    cases part <;> rfl
  unfold changePart
  rw [hthere]
  show (f (t.rows part) >>= _) = _
  cases f (t.rows part) with
  | error fault => rfl
  | ok rows => cases part <;> rfl

@[simp]
theorem PolicyTables.rows_withRows (t : PolicyTables) (rows : List (ChildRow Cell)) (part : Part) :
    (t.withRows rows part).rows part = rows := by
  cases part <;> rfl

@[simp]
theorem PolicyTables.withRows_withRows (t : PolicyTables) (rows more : List (ChildRow Cell))
    (part : Part) : (t.withRows rows part).withRows more part = t.withRows more part := by
  cases part <;> rfl

theorem PolicyTables.withRows_rows (t : PolicyTables) (part : Part) :
    t.withRows (t.rows part) part = t := by
  cases part <;> rfl

/-- A value that its column takes is stored behind all others. -/
theorem yields_insertPart (part : Part) (id : Int64) {value : Except Fault Cell} {cell : Cell}
    (h : value = .ok cell) (rows : List (ChildRow Cell)) :
    Yields (statement (insertPart part id value)) (l.withTables (t.withRows rows part))
      (.ok ((), l.withTables (t.withRows (rows ++ [⟨some id, cell⟩]) part))) := by
  subst h
  have hrow := changePart_withTables (l := l) (t := t.withRows rows part) part
    fun rows => .ok (rows ++ [⟨some id, cell⟩])
  rw [PolicyTables.rows_withRows, Except.map, PolicyTables.withRows_withRows] at hrow
  rw [← hrow]
  exact yields_statement _ _

/-- Values that their column takes are stored one after another. -/
theorem yields_storePart (part : Part) (id : Int64) {value : α → Except Fault Cell}
    {cell : α → Cell} {items : List α} (h : ∀ a ∈ items, value a = .ok (cell a)) :
    Yields (each (fun a => statement (insertPart part id (value a))) items) (l.withTables t)
      (.ok ((), l.withTables
        (t.withRows (t.rows part ++ items.map fun a => ⟨some id, cell a⟩) part))) := by
  have hloop := yields_each_append (fun rows => l.withTables (t.withRows rows part))
    (fun a ha rows => yields_insertPart part id (h a ha) rows) (t.rows part)
  rwa [t.withRows_rows part] at hloop

theorem portCell_of_ne_zero {port : UInt16} (h : port ≠ 0) :
    portCell port = .ok (.integer (Int64.ofNat port.toNat)) :=
  if_neg h

/-- Ports other than zero are stored one after another. -/
theorem yields_storePorts (id : Int64) {ports : List UInt16} (h : 0 ∉ ports) :
    Yields (each (fun port => statement (insertPort id port)) ports) (l.withTables t)
      (.ok ((), l.withTables { t with ports := t.ports ++ portRows id ports })) :=
  yields_storePart .ports id fun _ hport => portCell_of_ne_zero fun hzero => h (hzero ▸ hport)

/-- The first port zero ends the transaction. -/
theorem yields_storePorts_zero (id : Int64) {ports : List UInt16} (h : 0 ∈ ports) :
    Yields (each (fun port => statement (insertPort id port)) ports) (l.withTables t)
      (.error .portCheck) := by
  refine yields_each_fault (fun rows => l.withTables (t.withRows rows .ports))
    (fun port => ⟨id, .integer (Int64.ofNat port.toNat)⟩) (fun port => port = 0)
    (fun port hport rows => ?_) (fun port hport rows => ?_) ⟨0, h, rfl⟩ t.ports
  · exact yields_insertPart .ports id (portCell_of_ne_zero hport) rows
  · subst hport
    exact yields_statement (insertPort id 0) _

theorem yields_storeSources (id : Int64) (texts : List String) :
    Yields (each (fun s => statement (insertSource id s)) texts) (l.withTables t)
      (.ok ((), l.withTables { t with sources := t.sources ++ textRows id texts })) :=
  yields_storePart .sources id fun _ _ => rfl

theorem yields_storeDestinations (id : Int64) (texts : List String) :
    Yields (each (fun s => statement (insertDestination id s)) texts) (l.withTables t)
      (.ok ((), l.withTables { t with destinations := t.destinations ++ textRows id texts })) :=
  yields_storePart .destinations id fun _ _ => rfl

theorem yields_storeIcmpTypes (id : Int64) (types : List UInt8) :
    Yields (each (fun n => statement (insertIcmpType id n)) types) (l.withTables t)
      (.ok ((), l.withTables { t with icmpTypes := t.icmpTypes ++ icmpRows id types })) :=
  yields_storePart .icmpTypes id fun _ _ => rfl

/-- A rule without the port zero is stored under the next number. -/
theorem yields_storeRule (r : Rule) (hnumber : t.rules.greatest < greatestId)
    (hports : 0 ∉ r.ports) :
    Yields (storeRule r) (l.withTables t) (.ok (t.nextId, l.withTables (t.store r))) := by
  have hrow := yields_statement (insertRule r) (l.withTables t)
  rw [insertRule_ok r hnumber] at hrow
  refine yields_bind_ok hrow ?_
  refine yields_bind_ok (yields_storePorts t.nextId hports) ?_
  refine yields_bind_ok (yields_storeSources t.nextId r.sources) ?_
  refine yields_bind_ok (yields_storeDestinations t.nextId r.destinations) ?_
  refine yields_bind_ok (yields_storeIcmpTypes t.nextId r.icmpTypes) ?_
  exact yields_pure _ _

/-- Without a number left, or with a port zero, a rule cannot be stored. -/
theorem yields_storeRule_fault (r : Rule) (h : ¬ (t.rules.greatest < greatestId ∧ 0 ∉ r.ports)) :
    ∃ fault, Yields (storeRule r) (l.withTables t) (.error fault) := by
  have hrow := yields_statement (insertRule r) (l.withTables t)
  by_cases hnumber : t.rules.greatest < greatestId
  · rw [insertRule_ok r hnumber] at hrow
    have hzero : 0 ∈ r.ports := Decidable.byContradiction fun hports => h ⟨hnumber, hports⟩
    exact ⟨.portCheck, yields_bind_ok hrow (yields_bind_error (yields_storePorts_zero _ hzero))⟩
  · rw [insertRule_full r hnumber] at hrow
    exact ⟨.full, yields_bind_error hrow⟩

/-- Rules are stored one after another, as long as each can be. -/
theorem yields_storeRules {rules : List Rule} (h : t.Storable rules) :
    Yields (storeRules rules) (l.withTables t)
      (.ok ((t.storeAll rules).1, l.withTables (t.storeAll rules).2)) := by
  induction rules generalizing t with
  | nil => exact yields_pure _ _
  | cons r rest ih =>
      obtain ⟨⟨hnumber, hports⟩, hrest⟩ := h
      refine yields_bind_ok (yields_storeRule r hnumber hports) ?_
      exact yields_bind_ok (ih hrest) (yields_pure _ _)

/-- The first rule that cannot be stored ends the transaction. -/
theorem yields_storeRules_fault {rules : List Rule} (h : ¬ t.Storable rules) :
    ∃ fault, Yields (storeRules rules) (l.withTables t) (.error fault) := by
  induction rules generalizing t with
  | nil => exact absurd trivial h
  | cons r rest ih =>
      by_cases hfirst : t.rules.greatest < greatestId ∧ 0 ∉ r.ports
      · obtain ⟨fault, hrest⟩ := ih (t := t.store r) fun hrest => h ⟨hfirst, hrest⟩
        exact ⟨fault,
          yields_bind_ok (yields_storeRule r hfirst.1 hfirst.2) (yields_bind_error hrest)⟩
      · obtain ⟨fault, hrule⟩ := yields_storeRule_fault (l := l) r hfirst
        exact ⟨fault, yields_bind_error hrule⟩

/-! ## The other changes -/

theorem yields_keepOnly (keep : Option Int64 → Bool) :
    Yields (keepOnly keep) (l.withTables t) (.ok ((), l.withTables (t.keepOnly keep))) := by
  refine yields_bind_ok (yields_statement _ _) ?_
  refine yields_bind_ok (yields_statement _ _) ?_
  refine yields_bind_ok (yields_statement _ _) ?_
  refine yields_bind_ok (yields_statement _ _) ?_
  exact yields_pure _ _

/-- A rule is removed with all that belongs to it. -/
theorem yields_delete (id : Int64) :
    Yields (delete id) (l.withTables t)
      (.ok ((t.remove id).rules.rows.length != t.rules.rows.length, l.withTables (t.remove id))) :=
  yields_bind_ok (yields_keepOnly _) (yields_statement _ _)

theorem yields_setDefaults (d : Defaults) :
    Yields (setDefaults d) (l.withTables t) (.ok ((), l.withTables (t.overwrite d))) :=
  yields_statement _ _

/-- A policy is replaced as a whole. -/
theorem yields_replaceAll (d : Defaults) {rules : List Rule}
    (h : (t.overwrite d).clear.Storable rules) :
    Yields (replaceAll d rules) (l.withTables t)
      (.ok (((t.overwrite d).clear.storeAll rules).1,
        l.withTables ((t.overwrite d).clear.storeAll rules).2)) := by
  refine yields_bind_ok (yields_statement _ _) ?_
  refine yields_bind_ok (yields_keepOnly (t := t.overwrite d) _) ?_
  refine yields_bind_ok (yields_statement _ _) ?_
  exact yields_storeRules h

theorem yields_replaceAll_fault (d : Defaults) {rules : List Rule}
    (h : ¬ (t.overwrite d).clear.Storable rules) :
    ∃ fault, Yields (replaceAll d rules) (l.withTables t) (.error fault) := by
  obtain ⟨fault, hrules⟩ := yields_storeRules_fault (l := l) h
  refine ⟨fault, yields_bind_ok (yields_statement _ _) ?_⟩
  refine yields_bind_ok (yields_keepOnly (t := t.overwrite d) _) ?_
  exact yields_bind_ok (yields_statement _ _) hrules

end Ledger
end PacketPolicy
