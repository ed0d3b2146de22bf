import Mathlib.Data.List.Permutation
import PacketPolicy.Proofs.Script.Decoding

/-!
# What a script depends on

Two policies make the same script exactly if every chain has the same default action in both and
its enabled rules, in the order in which the script lists them, agree in what of them is live.

* `Rule.Live`, `Rule.live` -- what of a rule is live: neither its number and its comment nor what
  its protocol has no use for;
* `Filter.ofLive` -- what a statement says and what is live of its rule determine each other;
* `Listing.unique` -- the rules of a chain can be listed in one order only;
* `chainLines_of_live`, `script_of_live` -- the block of a chain depends on that chain alone, and
  the script on the chains;
* `live_of_script` -- and nothing that is live is lost in the script of accepted rules;
* `script_of_perm`, `script_of_alike` -- rules in another order, or under other numbers;
* `script_tells_live` -- all of this together.
-/

namespace PacketPolicy

/-- What of a rule has a bearing on the statement that it is written as. -/
structure Rule.Live where
  inInterface : Option String
  outInterface : Option String
  protocol : Protocol
  action : Action
  sources : List String
  destinations : List String
  /-- The ports, if the protocol has ports. -/
  ports : List UInt16
  /-- The message types, if the protocol has message types. -/
  icmpTypes : List UInt8
deriving DecidableEq, Repr

/-- What of the rule is live. -/
def Rule.live (r : Rule) : Rule.Live where
  inInterface := r.inInterface
  outInterface := r.outInterface
  protocol := r.protocol
  action := r.action
  sources := r.sources
  destinations := r.destinations
  ports := if r.protocol = .tcp ∨ r.protocol = .udp then r.ports else []
  icmpTypes := if r.protocol = .icmp then r.icmpTypes else []

/-- Two rules that a script does not tell apart, as long as it lists them at the same place. -/
structure Rule.Alike (a b : Rule) : Prop where
  enabled : a.enabled = b.enabled
  chain : a.chain = b.chain
  live : a.live = b.live

namespace Script

/-! ## Statements -/

/-- The filter of rules of which this is live. -/
def Filter.ofLive (v : Rule.Live) : Filter where
  inInterface := v.inInterface
  outInterface := v.outInterface
  protocol := if v.protocol = .all then none else some v.protocol
  ports := if v.ports = [] then none else some (v.protocol, v.ports)
  sources := v.sources.map fun p => (prefixFamily p, p)
  destinations := v.destinations.map fun p => (prefixFamily p, p)
  icmpTypes := if v.icmpTypes = [] then none else some v.icmpTypes
  action := v.action

theorem ofRule_eq_ofLive (r : Rule) : Filter.ofRule r = Filter.ofLive r.live := by
  unfold Filter.ofRule Filter.ofLive Rule.live
  cases r.protocol <;> simp

/-- Nothing that is live is lost in a filter. -/
theorem ofLive_injective : Function.Injective Filter.ofLive := by
  intro v w h
  obtain ⟨_, _, _, _, sources, destinations, _, _⟩ := v
  obtain ⟨_, _, _, _, sources', destinations', _, _⟩ := w
  have hpairs : Function.Injective fun p : String => (prefixFamily p, p) :=
    fun p q hpq => (Prod.mk.inj hpq).2
  simp only [Filter.ofLive, Filter.mk.injEq, (List.map_injective_iff.mpr hpairs).eq_iff] at h
  grind

/-- The statement of a rule is written from what is live of it. -/
theorem statement_eq (r : Rule) :
    r.statement =
      " ".intercalate ((Filter.ofLive r.live).clauses.map Clause.text ++
        [Named.name (Filter.ofLive r.live).action]) := by
  unfold Rule.statement
  rw [clauses_eq, ofRule_eq_ofLive]
  rfl

theorem map_statement_of_live {rules others : List Rule}
    (h : rules.map Rule.live = others.map Rule.live) :
    rules.map Rule.statement = others.map Rule.statement := by
  rw [funext statement_eq]
  simpa [Function.comp_def] using congrArg (List.map fun v =>
    " ".intercalate ((Filter.ofLive v).clauses.map Clause.text ++
      [Named.name (Filter.ofLive v).action])) h

theorem map_live_of_filters {rules others : List Rule}
    (h : rules.map Filter.ofRule = others.map Filter.ofRule) :
    rules.map Rule.live = others.map Rule.live := by
  rw [funext ofRule_eq_ofLive] at h
  refine List.map_injective_iff.mpr ofLive_injective ?_
  simpa [Function.comp_def] using h

/-! ## The order of the rules -/

/-- Lists with the same rules of each number have the same rules. -/
theorem mem_iff_of_filter_id {rules others : List Rule}
    (h : ∀ id, (rules.filter fun r => r.id = id) = others.filter fun r => r.id = id) (r : Rule) :
    r ∈ rules ↔ r ∈ others := by
  have hone : (r ∈ rules.filter fun q => q.id = r.id) ↔
      r ∈ others.filter fun q => q.id = r.id := by rw [h]
  simpa using hone

/-- Lists in ascending order of numbers are equal when their rules of each number are. -/
theorem eq_of_filter_id {rules others : List Rule}
    (hrules : rules.Pairwise fun a b => a.id ≤ b.id)
    (hothers : others.Pairwise fun a b => a.id ≤ b.id)
    (h : ∀ id, (rules.filter fun r => r.id = id) = others.filter fun r => r.id = id) :
    rules = others := by
  have hmem := mem_iff_of_filter_id h
  induction rules generalizing others with
  | nil =>
      cases others with
      | nil => rfl
      | cons b _ => exact absurd ((hmem b).mpr List.mem_cons_self) List.not_mem_nil
  | cons a rest ih =>
      cases others with
      | nil => exact absurd ((hmem a).mp List.mem_cons_self) List.not_mem_nil
      | cons b more =>
          obtain ⟨ha, hrest⟩ := List.pairwise_cons.mp hrules
          obtain ⟨hb, hmore⟩ := List.pairwise_cons.mp hothers
          -- each head has the least number, so the two are the first rules of one number
          have hleft : a.id ≤ b.id := by
            rcases List.mem_cons.mp ((hmem b).mpr List.mem_cons_self) with rfl | hin
            · exact Int64.le_refl _
            · exact ha b hin
          have hright : b.id ≤ a.id := by
            rcases List.mem_cons.mp ((hmem a).mp List.mem_cons_self) with rfl | hin
            · exact Int64.le_refl _
            · exact hb a hin
          have hid : b.id = a.id := Int64.le_antisymm hright hleft
          have hheads := h a.id
          rw [List.filter_cons_of_pos (by simp), List.filter_cons_of_pos (by simp [hid])] at hheads
          obtain ⟨rfl, -⟩ := List.cons.inj hheads
          have htails : ∀ id,
              (rest.filter fun r => r.id = id) = more.filter fun r => r.id = id := by
            intro id
            have hboth := h id
            rw [List.filter_cons, List.filter_cons] at hboth
            split at hboth
            · exact (List.cons.inj hboth).2
            · exact hboth
          exact congrArg _ (ih hrest hmore htails (mem_iff_of_filter_id htails))

/-- The rules of a chain can be listed in one order only. -/
theorem Listing.unique {rules listed others : List Rule} {chain : Chain}
    (hlisted : Listing rules chain listed) (hothers : Listing rules chain others) :
    listed = others := by
  refine eq_of_filter_id hlisted.ascending hothers.ascending fun id => ?_
  rw [hlisted.complete, hothers.complete]

/-- The rules of a chain may be selected before they are sorted. -/
theorem listing_mergeSort (rules : List Rule) (chain : Chain) :
    Listing rules chain
      ((rules.filter fun r => r.enabled ∧ r.chain = chain).mergeSort fun a b => a.id ≤ b.id) := by
  constructor
  · exact (List.pairwise_mergeSort idLe_trans idLe_total _).imp fun hle => of_decide_eq_true hle
  · intro id
    rw [filter_id_mergeSort, List.filter_filter]
    refine List.filter_congr fun r _ => ?_
    simp [Bool.and_comm, Bool.and_left_comm]

/-! ## Equal scripts -/

variable {d e : Defaults} {rules others : List Rule}

/-- The block of a chain depends on the default action of the chain and on what is live of the
rules listed for it. -/
theorem chainLines_of_live {chain : Chain} {listed listedOthers : List Rule}
    (hrules : Listing rules chain listed) (hothers : Listing others chain listedOthers)
    (hpolicy : d.policy chain = e.policy chain)
    (hlive : listed.map Rule.live = listedOthers.map Rule.live) :
    chainLines d (enabledInOrder rules) chain = chainLines e (enabledInOrder others) chain := by
  have hstatements := map_statement_of_live hlive
  rw [hrules.unique (listing_enabledInOrder rules chain),
    hothers.unique (listing_enabledInOrder others chain)] at hstatements
  have hlines := congrArg (List.map fun s => "        " ++ s) hstatements
  rw [List.map_map, List.map_map] at hlines
  unfold chainLines
  rw [hpolicy]
  exact congrArg (fun lines => _ ++ lines ++ _) hlines

theorem script_of_live {listed listedOthers : Chain → List Rule}
    (hrules : ∀ chain, Listing rules chain (listed chain))
    (hothers : ∀ chain, Listing others chain (listedOthers chain))
    (hpolicy : ∀ chain, d.policy chain = e.policy chain)
    (hlive : ∀ chain, (listed chain).map Rule.live = (listedOthers chain).map Rule.live) :
    script d rules = script e others := by
  have hblocks : chainLines d (enabledInOrder rules) = chainLines e (enabledInOrder others) :=
    funext fun chain =>
      chainLines_of_live (hrules chain) (hothers chain) (hpolicy chain) (hlive chain)
  unfold script scriptLines
  rw [hblocks]

/-- The blocks that are read from a script. -/
theorem read?_script (d : Defaults) {rules : List Rule} (h : ∀ r ∈ rules, r.Admissible) :
    read? (script d rules) =
      some ((Named.all : List Chain).map fun chain =>
        blockOf d chain ((enabledInOrder rules).filter fun r => r.chain == chain)) := by
  have hlisted : ∀ chain, ∀ r ∈ (enabledInOrder rules).filter fun r => r.chain == chain,
      r.Admissible := by
    intro chain r hr
    have hmem := (List.mem_filter.mp hr).1
    exact h r (List.mem_filter.mp (List.mem_mergeSort.mp hmem)).1
  unfold read?
  rw [textLines?_script d h, Option.bind_eq_bind, Option.bind_some]
  exact (if_pos rfl).trans (blocks?_script d hlisted Named.all)

/-- What a block says tells the default action and what is live of the rules. -/
theorem of_blockOf_eq {chain : Chain} {listed listedOthers : List Rule}
    (h : blockOf d chain listed = blockOf e chain listedOthers) :
    d.policy chain = e.policy chain ∧ listed.map Rule.live = listedOthers.map Rule.live := by
  obtain ⟨-, hpolicy, hstatements⟩ := (ChainBlock.mk.injEq ..).mp h
  refine ⟨hpolicy, map_live_of_filters ?_⟩
  have hfilters : Function.Injective Statement.filter := fun _ _ heq => Statement.filter.inj heq
  refine List.map_injective_iff.mpr hfilters ?_
  rw [List.map_map, List.map_map]
  exact (List.cons.inj hstatements).2

/-- Nothing that is live is lost in the script of accepted rules. -/
theorem live_of_script (hrules : ∀ r ∈ rules, r.Admissible) (hothers : ∀ r ∈ others, r.Admissible)
    (h : script d rules = script e others) {chain : Chain} {listed listedOthers : List Rule}
    (hlisted : Listing rules chain listed) (hlistedOthers : Listing others chain listedOthers) :
    d.policy chain = e.policy chain ∧ listed.map Rule.live = listedOthers.map Rule.live := by
  have hread := congrArg read? h
  rw [read?_script d hrules, read?_script e hothers] at hread
  have hblocks := List.map_inj_left.mp (Option.some.inj hread) chain (Named.mem_all chain)
  rw [← hlisted.unique (listing_enabledInOrder rules chain),
    ← hlistedOthers.unique (listing_enabledInOrder others chain)] at hblocks
  exact of_blockOf_eq hblocks

/-! ## Other lists of rules -/

/-- Rules with different numbers may be given in any order. -/
theorem script_of_perm (d : Defaults) (hperm : rules.Perm others)
    (hdistinct : (rules.map Rule.id).Nodup) : script d rules = script d others := by
  have hordered : enabledInOrder rules = enabledInOrder others := by
    refine List.Perm.eq_of_pairwise ?_ (List.pairwise_mergeSort idLe_trans idLe_total _)
      (List.pairwise_mergeSort idLe_trans idLe_total _) ?_
    · intro a b ha hb hab hba
      have hid := Int64.le_antisymm (of_decide_eq_true hab) (of_decide_eq_true hba)
      have hain : a ∈ rules := (List.mem_filter.mp (List.mem_mergeSort.mp ha)).1
      have hbin : b ∈ others := (List.mem_filter.mp (List.mem_mergeSort.mp hb)).1
      exact List.inj_on_of_nodup_map hdistinct hain (hperm.mem_iff.mpr hbin) hid
    · exact ((List.mergeSort_perm _ _).trans (hperm.filter _)).trans (List.mergeSort_perm _ _).symm
  unfold script scriptLines
  rw [hordered]

/-- What is not live of rules may be anything, and so may their numbers as long as the enabled rules
of each chain stay in order. -/
theorem script_of_alike (d : Defaults) (hlength : rules.length = others.length)
    (halike : ∀ p ∈ rules.zip others, p.1.Alike p.2)
    (horder : ∀ p ∈ rules.zip others, ∀ q ∈ rules.zip others, p.1.enabled → q.1.enabled →
      p.1.chain = q.1.chain → (p.1.id ≤ q.1.id ↔ p.2.id ≤ q.2.id)) :
    script d rules = script d others := by
  let kept (chain : Chain) : List (Rule × Rule) :=
    (rules.zip others).filter fun p => p.1.enabled ∧ p.1.chain = chain
  have hmem {chain : Chain} {p : Rule × Rule} (hp : p ∈ kept chain) :
      p ∈ rules.zip others ∧ p.1.enabled ∧ p.1.chain = chain := by
    obtain ⟨hin, hkept⟩ := List.mem_filter.mp hp
    exact ⟨hin, of_decide_eq_true hkept⟩
  -- the pairs are sorted as one list, whose sides are the lists of the rules
  let sorted (chain : Chain) : List (Rule × Rule) :=
    (kept chain).mergeSort fun p q => p.1.id ≤ q.1.id
  have hrules (chain : Chain) : Listing rules chain ((sorted chain).map Prod.fst) := by
    have hside : (kept chain).map Prod.fst = rules.filter fun r => r.enabled ∧ r.chain = chain := by
      rw [← List.map_fst_zip (Nat.le_of_eq hlength), List.filter_map]
      rfl
    have hsorted : (sorted chain).map Prod.fst =
        ((kept chain).map Prod.fst).mergeSort fun a b => a.id ≤ b.id :=
      List.map_mergeSort fun _ _ _ _ => rfl
    rw [hsorted, hside]
    exact listing_mergeSort rules chain
  have hothers (chain : Chain) : Listing others chain ((sorted chain).map Prod.snd) := by
    have hside : (kept chain).map Prod.snd =
        others.filter fun r => r.enabled ∧ r.chain = chain := by
      rw [← List.map_snd_zip (Nat.le_of_eq hlength.symm), List.filter_map]
      refine congrArg _ (List.filter_congr fun p hp => ?_)
      obtain ⟨henabled, hchain, -⟩ := halike p hp
      show decide (p.1.enabled ∧ p.1.chain = chain) = decide (p.2.enabled ∧ p.2.chain = chain)
      rw [henabled, hchain]
    have hsorted : (sorted chain).map Prod.snd =
        ((kept chain).map Prod.snd).mergeSort fun a b => a.id ≤ b.id := by
      refine List.map_mergeSort fun p hp q hq => ?_
      obtain ⟨hpin, hpenabled, hpchain⟩ := hmem hp
      obtain ⟨hqin, hqenabled, hqchain⟩ := hmem hq
      exact decide_eq_decide.mpr
        (horder p hpin q hqin hpenabled hqenabled (hpchain.trans hqchain.symm))
    rw [hsorted, hside]
    exact listing_mergeSort others chain
  refine script_of_live hrules hothers (fun _ => rfl) fun chain => ?_
  rw [List.map_map, List.map_map]
  refine List.map_congr_left fun p hp => ?_
  exact (halike p (hmem (List.mem_mergeSort.mp hp)).1).live

/-- The block of a chain is made of the default action of the chain and of what is live of its
enabled rules in their order; so the script is the same wherever these are, and where it is the same
and the rules have been accepted, these are.  It therefore does not matter in which order rules with
different numbers are given, whether there are disabled ones among them, what log lines begin with,
and, of the rules, what is not live and more of the numbers than how they order the enabled rules of
a chain. -/
theorem script_tells_live (d e : Defaults) {rules others : List Rule}
    {listed listedOthers : Chain → List Rule}
    (hrules : ∀ chain, Listing rules chain (listed chain))
    (hothers : ∀ chain, Listing others chain (listedOthers chain)) :
    let same (chain : Chain) : Prop :=
      d.policy chain = e.policy chain ∧
        (listed chain).map Rule.live = (listedOthers chain).map Rule.live
    (∀ chain, same chain →
        chainLines d (enabledInOrder rules) chain = chainLines e (enabledInOrder others) chain) ∧
      ((∀ chain, same chain) → script d rules = script e others) ∧
      ((∀ r ∈ rules, r.Accepted) → (∀ r ∈ others, r.Accepted) → script d rules = script e others →
        ∀ chain, same chain) ∧
      (rules.Perm others → (rules.map Rule.id).Nodup → script d rules = script d others) ∧
      (rules.filter Rule.enabled = others.filter Rule.enabled →
        script d rules = script d others) ∧
      (∀ text, script { d with logPrefix := text } rules = script d rules) ∧
      (rules.length = others.length → (∀ p ∈ rules.zip others, p.1.Alike p.2) →
        (∀ p ∈ rules.zip others, ∀ q ∈ rules.zip others, p.1.enabled → q.1.enabled →
          p.1.chain = q.1.chain → (p.1.id ≤ q.1.id ↔ p.2.id ≤ q.2.id)) →
        script d rules = script d others) := by
  intro same
  refine ⟨fun chain hsame => ?_, fun hsame => ?_, fun hacc haccOthers h chain => ?_,
    script_of_perm d, fun hfilter => ?_, fun text => ?_, script_of_alike d⟩
  · exact chainLines_of_live (hrules chain) (hothers chain) hsame.1 hsame.2
  · exact script_of_live hrules hothers (fun chain => (hsame chain).1) fun chain => (hsame chain).2
  · exact live_of_script (fun r hr => (Rule.accepted_iff r).mp (hacc r hr))
      (fun r hr => (Rule.accepted_iff r).mp (haccOthers r hr)) h (hrules chain) (hothers chain)
  · unfold script scriptLines enabledInOrder
    rw [hfilter]
  · exact script_of_live hrules hrules (fun chain => by cases chain <;> rfl) fun _ => rfl

/-- The same two rules the other way round and under other numbers, with a remark, with message
types and ports that nothing comes of, and with a disabled rule between them. -/
def retoldRules : List Rule :=
  [{ (default : Rule) with
      id := -2, chain := .forward, protocol := .icmp, action := .accept, ports := [23, 23],
      sources := ["192.168.1.1/255.255.0.0"], icmpTypes := [0, 255], enabled := true },
    { (default : Rule) with id := -1, chain := .forward, enabled := false },
    { (default : Rule) with
      id := 70, chain := .forward, protocol := .tcp, action := .drop, inInterface := some "eth0.1",
      outInterface := some "wg-0", ports := [443, 80], sources := ["10.0.0.0/8", "fe80::/10"],
      destinations := ["::ffff:1.2.3.4/+96"], comment := some "a remark", enabled := true }]

theorem retoldRules_script :
    (∀ chain, Listing twoRules chain
        ((enabledInOrder twoRules).filter fun r => r.chain == chain)) ∧
      (∀ chain, Listing retoldRules chain
        ((enabledInOrder retoldRules).filter fun r => r.chain == chain)) ∧
      script .initial twoRules =
        script { Defaults.initial with logPrefix := "drop" } retoldRules := by
  have hrules := listing_enabledInOrder twoRules
  have hothers := listing_enabledInOrder retoldRules
  refine ⟨hrules, hothers, (script_tells_live _ _ hrules hothers).2.1 fun chain => ⟨?_, ?_⟩⟩
  · cases chain <;> rfl
  · cases chain <;> cbv

end Script
end PacketPolicy
