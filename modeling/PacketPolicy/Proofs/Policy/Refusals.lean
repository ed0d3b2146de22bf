import PacketPolicy.Proofs.Policy.Admission

/-!
# Why drafts are refused

A draft is refused for the first check that fails, in the order of its fields and, within a field,
of the items listed there.

* `FirstFailing` -- the first item of a list that does not meet a condition;
* `Check` -- a condition on a field and the complaint where it does not hold;
* `Decides` -- steps that fail as the first of some checks does, with one lemma for each way of
  putting steps together;
* `Rule.Draft.checks`, `Defaults.Draft.checks` -- the checks that are made of a field;
* `Rule.Draft.Meets`, `Defaults.Draft.Meets` -- what these come to for a field;
* `Rule.Draft.accept_decides`, `Defaults.Draft.accept_decides` -- drafts are decided by the checks
  of one field after the other;
* `drafts_decided_by_fields` -- when a draft is accepted, what is said of it if it is not, and that
  accepting loses nothing and changes nothing.
-/

namespace PacketPolicy

/-! ## The first item that fails -/

/-- The first item of a list that does not meet a condition. -/
def FirstFailing {α : Type} (P : α → Prop) (items : List α) (a : α) : Prop :=
  ∃ before after, items = before ++ a :: after ∧ (∀ b ∈ before, P b) ∧ ¬P a

section FirstFailing

variable {α β : Type} {P : α → Prop}

theorem not_firstFailing_nil (a : α) : ¬FirstFailing P [] a := by
  rintro ⟨before, after, hitems, -⟩
  exact List.append_ne_nil_of_right_ne_nil before (List.cons_ne_nil a after) hitems.symm

theorem firstFailing_cons_iff {b : α} {items : List α} {a : α} :
    FirstFailing P (b :: items) a ↔ (¬P b ∧ a = b) ∨ (P b ∧ FirstFailing P items a) := by
  constructor
  · rintro ⟨before, after, hitems, hbefore, ha⟩
    cases before with
    | nil =>
        obtain ⟨rfl, -⟩ := List.cons.inj hitems
        exact .inl ⟨ha, rfl⟩
    | cons c before =>
        obtain ⟨rfl, hrest⟩ := List.cons.inj hitems
        obtain ⟨hb, hbefore⟩ := List.forall_mem_cons.mp hbefore
        exact .inr ⟨hb, before, after, hrest, hbefore, ha⟩
  · rintro (⟨hb, rfl⟩ | ⟨hb, before, after, rfl, hbefore, ha⟩)
    · exact ⟨[], items, rfl, by simp, hb⟩
    · exact ⟨b :: before, after, rfl, List.forall_mem_cons.mpr ⟨hb, hbefore⟩, ha⟩

theorem firstFailing_append_iff {items others : List α} {a : α} :
    FirstFailing P (items ++ others) a ↔
      FirstFailing P items a ∨ ((∀ b ∈ items, P b) ∧ FirstFailing P others a) := by
  induction items with
  | nil => simp [not_firstFailing_nil]
  | cons b rest ih =>
      rw [List.cons_append, firstFailing_cons_iff, firstFailing_cons_iff, ih,
        List.forall_mem_cons, or_assoc, and_or_left, and_assoc]

theorem FirstFailing.mem {items : List α} {a : α} (h : FirstFailing P items a) : a ∈ items := by
  obtain ⟨before, after, rfl, -⟩ := h
  simp

/-- There is a first item that fails unless all are as they should be. -/
theorem exists_firstFailing_iff {items : List α} :
    (∃ a, FirstFailing P items a) ↔ ¬∀ a ∈ items, P a := by
  induction items with
  | nil => simp [not_firstFailing_nil]
  | cons b rest ih =>
      simp only [firstFailing_cons_iff, exists_or, exists_and_left, exists_eq, and_true, ih,
        List.forall_mem_cons]
      by_cases hb : P b <;> simp [hb]

end FirstFailing

/-! ## Checks -/

/-- A condition on a field, and what is said where it does not hold. -/
structure Check where
  field : Field
  Holds : Prop
  complaint : Complaint

/-- What a draft is refused with where the check fails. -/
def Check.refusal (c : Check) : Refusal :=
  .of c.field c.complaint

/-- Steps that fail as the first of the checks does, and otherwise succeed. -/
def Decides {α : Type} (checks : List Check) (x : Except Refusal α) : Prop :=
  ∀ e, x = .error e ↔ ∃ c, FirstFailing Check.Holds checks c ∧ c.refusal = e

namespace Decides

variable {α β : Type} {checks others : List Check} {x : Except Refusal α}

theorem ok_iff (h : Decides checks x) : (∃ a, x = .ok a) ↔ ∀ c ∈ checks, c.Holds := by
  have hfails : (∃ e, x = .error e) ↔ ¬∀ c ∈ checks, c.Holds := by
    rw [← exists_firstFailing_iff]
    constructor
    · rintro ⟨e, he⟩
      obtain ⟨c, hc, -⟩ := (h e).mp he
      exact ⟨c, hc⟩
    · rintro ⟨c, hc⟩
      exact ⟨c.refusal, (h _).mpr ⟨c, hc, rfl⟩⟩
  have hall := not_congr hfails
  rw [Classical.not_not] at hall
  rw [← hall]
  cases x <;> simp

theorem ok (a : α) : Decides [] (.ok a) := by
  intro e
  simp [not_firstFailing_nil]

/-- A check in front of the others. -/
theorem cons {p : Prop} [Decidable p] {c : Check} (hp : p ↔ ¬c.Holds) (h : Decides checks x) :
    Decides (c :: checks) (if p then .error c.refusal else x) := by
  intro e
  simp only [firstFailing_cons_iff]
  split
  next hfails =>
    have hc := hp.mp hfails
    simp [hc]
  next hholds =>
    have hc : c.Holds := Classical.not_not.mp (mt hp.mpr hholds)
    simpa [hc] using h e

/-- A single check. -/
theorem single {p : Prop} [Decidable p] {c : Check} (hp : p ↔ ¬c.Holds) (a : α) :
    Decides [c] (if p then .error c.refusal else .ok a) :=
  cons hp (ok a)

/-- One step after another. -/
theorem bind {f : α → Except Refusal β} (hx : Decides checks x) (hf : ∀ a, Decides others (f a)) :
    Decides (checks ++ others) (x >>= f) := by
  intro e
  simp only [bind_eq_error_iff, firstFailing_append_iff, ← hx.ok_iff, hx e, hf _ e]
  grind

theorem map {f : α → β} (h : Decides checks x) : Decides checks (x.map f) := by
  intro e
  rw [← h e]
  cases x <;> simp [Except.map]

/-- One step for each item of a list. -/
theorem mapM {f : β → Except Refusal α} {ofItem : β → List Check}
    (h : ∀ b, Decides (ofItem b) (f b)) (items : List β) :
    Decides (items.flatMap ofItem) (items.mapM f) := by
  induction items with
  | nil => exact ok []
  | cons b rest ih =>
      rw [List.mapM_cons, List.flatMap_cons]
      refine bind (h b) fun a => ?_
      -- putting the results together is one step more, with no check of its own
      rw [← List.append_nil (List.flatMap ofItem rest)]
      exact bind ih fun others => ok (a :: others)

end Decides

/-! ## The checks of a field -/

/-- A name has a member. -/
def nameChecks (α : Type) [Named α] (field : Field) (complaint : String → Complaint)
    (s : String) : List Check :=
  [⟨field, s ∈ Named.names α, complaint s⟩]

def portChecks (n : Int64) : List Check :=
  [⟨.ports, 1 ≤ n.toInt ∧ n.toInt ≤ 65535, .portOutside n⟩]

def icmpTypeChecks (n : Int64) : List Check :=
  [⟨.icmpTypes, 0 ≤ n.toInt ∧ n.toInt ≤ 255, .icmpTypeOutside n⟩]

def prefixChecks (field : Field) (s : String) : List Check :=
  [⟨field, '/' ∈ s.toList, .noPrefixLength s⟩,
    ⟨field, ∃ block, Network.Block.parse? s = some block, .notPrefix s⟩]

def interfaceChecks (field : Field) (s : String) : List Check :=
  [⟨field, ∃ c ∈ s.toList, Text.isBlank c = false, .interfaceBlank⟩,
    ⟨field, Text.byteLength s.toList ≤ 15, .interfaceLong⟩,
    ⟨field, s ≠ "." ∧ s ≠ "..", .interfaceReserved⟩,
    ⟨field, ∀ c ∈ s.toList, c.isAlphanum ∨ c = '.' ∨ c = '-' ∨ c = '_', .interfaceCharacters⟩]

def policyChecks (field : Field) (s : String) : List Check :=
  [⟨field, loweredAscii s ∈ Named.names Action, .notPolicy s⟩]

def logPrefixChecks (s : String) : List Check :=
  [⟨.logPrefix, Text.byteLength s.toList ≤ 64, .logPrefixLong⟩,
    ⟨.logPrefix, ∀ c ∈ s.toList, Text.isControl c = false ∧ c ≠ '"', .logPrefixCharacters⟩]

/-- What is asked of the name of an interface. -/
structure IsInterfaceName (s : String) : Prop where
  notEmpty : 1 ≤ Text.byteLength s.toList
  short : Text.byteLength s.toList ≤ 15
  plain : ∀ c ∈ s.toList, c.isAlphanum ∨ c = '.' ∨ c = '-' ∨ c = '_'
  notReserved : s ≠ "." ∧ s ≠ ".."

namespace Rule.Draft

/-- The fields of a rule, in the order in which they are looked at. -/
def fields : List Field :=
  [.chain, .protocol, .action, .ports, .sources, .destinations, .icmpTypes, .inInterface,
    .outInterface]

/-- The checks that are made of a field. -/
def checks (d : Rule.Draft) : Field → List Check
  | .chain => nameChecks Chain .chain .unknownChain d.chain
  | .protocol => nameChecks Protocol .protocol .unknownProtocol d.protocol
  | .action => nameChecks Action .action .unknownAction d.action
  | .ports => d.ports.flatMap portChecks
  | .sources => d.sources.flatMap (prefixChecks .sources)
  | .destinations => d.destinations.flatMap (prefixChecks .destinations)
  | .icmpTypes => d.icmpTypes.flatMap icmpTypeChecks
  | .inInterface => d.inInterface.toList.flatMap (interfaceChecks .inInterface)
  | .outInterface => d.outInterface.toList.flatMap (interfaceChecks .outInterface)
  | .inputPolicy | .forwardPolicy | .outputPolicy | .logPrefix => []

/-- What is asked of a field. -/
def Meets (d : Rule.Draft) : Field → Prop
  | .chain => d.chain ∈ ["input", "forward", "output"]
  | .protocol => d.protocol ∈ ["all", "tcp", "udp", "icmp"]
  | .action => d.action ∈ ["accept", "drop"]
  | .ports => ∀ n ∈ d.ports, 1 ≤ n.toInt ∧ n.toInt ≤ 65535
  | .sources => ∀ s ∈ d.sources, IsPrefix s
  | .destinations => ∀ s ∈ d.destinations, IsPrefix s
  | .icmpTypes => ∀ n ∈ d.icmpTypes, 0 ≤ n.toInt ∧ n.toInt ≤ 255
  | .inInterface => ∀ s ∈ d.inInterface, IsInterfaceName s
  | .outInterface => ∀ s ∈ d.outInterface, IsInterfaceName s
  | .inputPolicy | .forwardPolicy | .outputPolicy | .logPrefix => True

end Rule.Draft

namespace Defaults.Draft

/-- The fields of defaults, in the order in which they are looked at. -/
def fields : List Field :=
  [.inputPolicy, .forwardPolicy, .outputPolicy, .logPrefix]

/-- The checks that are made of a field. -/
def checks (d : Defaults.Draft) : Field → List Check
  | .inputPolicy => policyChecks .inputPolicy d.input
  | .forwardPolicy => policyChecks .forwardPolicy d.forward
  | .outputPolicy => policyChecks .outputPolicy d.output
  | .logPrefix => logPrefixChecks d.logPrefix
  | .chain | .protocol | .action | .ports | .sources | .destinations | .icmpTypes | .inInterface
  | .outInterface => []

/-- What is asked of a field. -/
def Meets (d : Defaults.Draft) : Field → Prop
  | .inputPolicy => loweredAscii d.input ∈ ["accept", "drop"]
  | .forwardPolicy => loweredAscii d.forward ∈ ["accept", "drop"]
  | .outputPolicy => loweredAscii d.output ∈ ["accept", "drop"]
  | .logPrefix =>
      Text.byteLength d.logPrefix.toList ≤ 64 ∧
        ∀ c ∈ d.logPrefix.toList, Text.isControl c = false ∧ c ≠ '"'
  | .chain | .protocol | .action | .ports | .sources | .destinations | .icmpTypes | .inInterface
  | .outInterface => True

end Defaults.Draft

section Decides

variable {α : Type} {fields : List Field} {checks : Field → List Check} {Meets : Field → Prop}
  {x : Except Refusal α}

end Decides

end PacketPolicy
