import PacketPolicy.Proofs.Script.Clauses

/-!
# A script says what the policy says

Reading the script of a policy gives back, for each chain, its default action, the statement for
known connections and one statement for each enabled rule.

* `lays_chainLines` -- the lines of a chain's block;
* `blocks?_blockLines` -- a block is read from its lines, and the others are left alone;
* `listing_enabledInOrder` -- the rules of a chain in the order of their numbers;
* `script_decodes` -- the whole script, for all defaults and all lists of accepted rules.

Whatever stands in the fields of accepted rules, it cannot add a statement or a block to the
script, drop one, cut one in two or join two of them.
-/

namespace PacketPolicy
namespace Script

/-! ## Lines -/

/-- The lines with which the block of a chain begins. -/
def headLines (chain : Chain) (policy : Action) : List (List Token) :=
  [[.word "chain", .word (Named.name chain), .opening],
    [.word "type", .word "filter", .word "hook", .word (Named.name chain), .word "priority",
      .word "0"],
    [.word "policy", .word (Named.name policy)],
    Clause.known.tokens ++ [.word (Named.name Action.accept)]]

/-- The lines of the block of a chain. -/
def blockLines (d : Defaults) (rules : List Rule) (chain : Chain) : List (List Token) :=
  headLines chain (d.policy chain) ++ (rules.map fun r => lineOf (Filter.ofRule r)) ++ [[.closing]]

theorem toList_unlines (lines : List String) :
    (unlines lines).toList = lines.flatMap fun line => line.toList ++ ['\n'] := by
  simp [unlines, List.flatMap_map]

theorem toList_unlines_append (lines more : List String) :
    (unlines (lines ++ more)).toList = (unlines lines).toList ++ (unlines more).toList := by
  simp [toList_unlines]

theorem lays_headLines (chain : Chain) (policy : Action) :
    Lays (unlines ["    chain " ++ Named.name chain ++ " \x7b",
      "        type filter hook " ++ Named.name chain ++ " priority 0; policy " ++
        Named.name policy ++ ";",
      "        " ++ establishedStatement]).toList (headLines chain policy) := by
  have hchain : Lays (unlines ["    chain " ++ Named.name chain ++ " \x7b"]).toList
      [[.word "chain", .word (Named.name chain), .opening]] := by
    have hscan : Scans (unlines ["    chain " ++ Named.name chain ++ " \x7b"]).toList
        ([.word "chain", .word (Named.name chain), .opening] ++ [.stop]) := by
      -- the three names are fixed texts, so scanning them is a computation
      cases chain <;> exact scans_closed (by decide) (by decide)
    exact hscan.laysLine (by simp) (by simp)
  have hhook : Lays ("        type filter hook " ++ Named.name chain ++ " priority 0;").toList
      [[.word "type", .word "filter", .word "hook", .word (Named.name chain), .word "priority",
        .word "0"]] := by
    have hscan : Scans ("        type filter hook " ++ Named.name chain ++ " priority 0;").toList
        ([.word "type", .word "filter", .word "hook", .word (Named.name chain),
          .word "priority", .word "0"] ++ [.stop]) := by
      cases chain <;> exact scans_closed (by decide) (by decide)
    exact hscan.laysLine (by simp) (by simp)
  -- the line feed behind the semicolon ends a line that has no tokens
  have hpolicy : Lays (" policy " ++ Named.name policy ++ ";\n").toList
      [[.word "policy", .word (Named.name policy)]] := by
    have hscan : Scans (" policy " ++ Named.name policy ++ ";\n").toList
        ([.word "policy", .word (Named.name policy), .stop] ++ [.stop]) := by
      cases policy <;> exact scans_closed (by decide) (by decide)
    exact hscan.lays
  have hknown : Lays (unlines ["        " ++ establishedStatement]).toList
      [Clause.known.tokens ++ [.word (Named.name Action.accept)]] := by
    have hscan : Scans (unlines ["        " ++ establishedStatement]).toList
        (Clause.known.tokens ++ [.word (Named.name Action.accept)] ++ [.stop]) :=
      scans_closed (by decide) (by decide)
    exact hscan.laysLine (by decide) (by decide)
  have hall := ((hchain.append hhook).append hpolicy).append hknown
  simpa [toList_unlines, headLines] using hall

theorem lays_closing : Lays (unlines ["    \x7d"]).toList [[.closing]] := by
  have hscan : Scans (unlines ["    \x7d"]).toList ([.closing] ++ [.stop]) :=
    scans_closed (by decide) (by decide)
  exact hscan.laysLine (by decide) (by decide)

theorem stop_not_mem_numberTokens (ns : List Nat) : Token.stop ∉ numberTokens ns := by
  induction ns using numberTokens.induct with
  | case1 => simp [numberTokens]
  | case2 n => simp [numberTokens]
  | case3 n m ns ih => simpa [numberTokens] using ih

theorem stop_not_mem_lineOf (f : Filter) : Token.stop ∉ lineOf f := by
  unfold lineOf
  simp only [List.mem_append, List.mem_flatMap, List.mem_singleton, reduceCtorEq, or_false,
    not_exists, not_and]
  intro c _
  cases c <;> simp [Clause.tokens, stop_not_mem_numberTokens]

theorem lays_rule {r : Rule} (hr : r.Admissible) :
    Lays (("        " ++ r.statement).toList ++ ['\n']) [lineOf (Filter.ofRule r)] := by
  have hblanks : Scans "        ".toList [] := scans_closed (by decide) (by decide)
  have hstatement := scans_statement (printable_of_mem hr) r.action
  rw [← clauses_eq] at hstatement
  have hscan : Scans (("        " ++ r.statement).toList ++ ['\n'])
      (lineOf (Filter.ofRule r) ++ [.stop]) := by
    simpa [lineOf, Rule.statement, Filter.ofRule] using hblanks.append hstatement
  exact hscan.laysLine (stop_not_mem_lineOf _) (by simp [lineOf])

theorem lays_rules {rules : List Rule} (h : ∀ r ∈ rules, r.Admissible) :
    Lays (unlines (rules.map fun r => "        " ++ r.statement)).toList
      (rules.map fun r => lineOf (Filter.ofRule r)) := by
  induction rules with
  | nil => exact lays_nil
  | cons r rules ih =>
      obtain ⟨hr, hrest⟩ := List.forall_mem_cons.mp h
      have hmore := ih hrest
      rw [toList_unlines] at hmore ⊢
      exact (lays_rule hr).append hmore

theorem lays_chainLines (d : Defaults) {rules : List Rule} (h : ∀ r ∈ rules, r.Admissible)
    (chain : Chain) :
    Lays (unlines (chainLines d rules chain)).toList
      (blockLines d (rules.filter fun r => r.chain == chain) chain) := by
  have hrules : ∀ r ∈ rules.filter fun r => r.chain == chain, r.Admissible :=
    fun r hr => h r (List.mem_filter.mp hr).1
  unfold chainLines blockLines
  rw [toList_unlines_append, toList_unlines_append]
  exact ((lays_headLines chain (d.policy chain)).append (lays_rules hrules)).append lays_closing

theorem textLines?_script (d : Defaults) {rules : List Rule} (h : ∀ r ∈ rules, r.Admissible) :
    textLines? (script d rules).toList =
      some ([.word "flush", .word "ruleset"] ::
        [.word "table", .word "inet", .word tableName, .opening] ::
        (((Named.all : List Chain).flatMap fun chain =>
          blockLines d ((enabledInOrder rules).filter fun r => r.chain == chain) chain) ++
          [[.closing]])) := by
  have hordered : ∀ r ∈ enabledInOrder rules, r.Admissible := by
    intro r hr
    exact h r (List.mem_filter.mp (List.mem_mergeSort.mp hr)).1
  have hstart : Lays (unlines ["flush ruleset", "", "table inet " ++ tableName ++ " \x7b"]).toList
      [[.word "flush", .word "ruleset"],
        [.word "table", .word "inet", .word tableName, .opening]] := by
    have hscan : Scans
        (unlines ["flush ruleset", "", "table inet " ++ tableName ++ " \x7b"]).toList
        ([.word "flush", .word "ruleset", .stop, .stop, .word "table", .word "inet",
          .word tableName, .opening] ++ [.stop]) := scans_closed (by decide) (by decide)
    exact hscan.lays
  -- an empty line between two blocks has no tokens, so it is no line of the grammar
  have hblank : Lays (unlines [""]).toList [] := by
    have hscan : Scans (unlines [""]).toList ([] ++ [.stop]) :=
      scans_closed (by decide) (by decide)
    exact hscan.lays
  have hend : Lays (unlines ["\x7d"]).toList [[.closing]] := by
    have hscan : Scans (unlines ["\x7d"]).toList ([.closing] ++ [.stop]) :=
      scans_closed (by decide) (by decide)
    exact hscan.laysLine (by decide) (by decide)
  have hblock := lays_chainLines d hordered
  have hblocks := (((hblock .input).append hblank).append (hblock .forward)).append
    (hblank.append (hblock .output))
  have hall := (hstart.append hblocks).append hend []
  have hlines : scriptLines d rules =
      ["flush ruleset", "", "table inet " ++ tableName ++ " \x7b"] ++
        (chainLines d (enabledInOrder rules) .input ++ [""] ++
          chainLines d (enabledInOrder rules) .forward ++
          ([""] ++ chainLines d (enabledInOrder rules) .output)) ++ ["\x7d"] := by
    simp [scriptLines, List.intercalate, Named.all]
  unfold script
  rw [hlines]
  simp only [toList_unlines_append]
  rw [List.append_nil] at hall
  rw [hall]
  simp [textLines?, Reading.scan?, wordOf, linesFrom, Named.all]

/-! ## Blocks -/

/-- What the block of a chain has to say. -/
def blockOf (d : Defaults) (chain : Chain) (rules : List Rule) : ChainBlock where
  chain
  policy := d.policy chain
  statements := .established .accept :: rules.map fun r => .filter (.ofRule r)

/-- A statement ends with a word. -/
theorem lineOf_ne_closing (f : Filter) : lineOf f ≠ [.closing] := by
  intro h
  have hlast := congrArg List.getLast? h
  simp [lineOf] at hlast

theorem blocks?_statement {line : List Token} {s : Statement} (hline : line ≠ [.closing])
    (hread : Statement.read? line = some s) (b : ChainBlock) (lines : List (List Token)) :
    blocks? (some b) (line :: lines) =
      blocks? (some { b with statements := b.statements ++ [s] }) lines := by
  rw [blocks?, hread]
  · rfl
  · exact hline

/-- The statements of rules are added to a block, and the brace behind them closes it. -/
theorem blocks?_rules {rules : List Rule} (h : ∀ r ∈ rules, r.Admissible) (b : ChainBlock)
    (lines : List (List Token)) :
    blocks? (some b) ((rules.map fun r => lineOf (Filter.ofRule r)) ++ [.closing] :: lines) =
      (blocks? none lines).map
        ({ b with statements := b.statements ++ rules.map fun r => .filter (.ofRule r) } :: ·) := by
  induction rules generalizing b with
  | nil => simp [blocks?]
  | cons r rules ih =>
      obtain ⟨hr, hrest⟩ := List.forall_mem_cons.mp h
      have hline := lineOf_ne_closing (Filter.ofRule r)
      rw [List.map_cons, List.cons_append, blocks?_statement hline (read?_lineOf hr), ih hrest]
      simp

theorem blocks?_blockLines (d : Defaults) (chain : Chain) {rules : List Rule}
    (h : ∀ r ∈ rules, r.Admissible) (lines : List (List Token)) :
    blocks? none (blockLines d rules chain ++ lines) =
      (blocks? none lines).map (blockOf d chain rules :: ·) := by
  have hhead : ∀ more, blocks? none (headLines chain (d.policy chain) ++ more) =
      blocks? (some ⟨chain, d.policy chain, [.established .accept]⟩) more := by
    intro more
    have hknown : Statement.read? (Clause.known.tokens ++ [.word (Named.name Action.accept)]) =
        some (.established .accept) := by
      have hprintable : ∀ c ∈ [Clause.known], c.Printable := by simp [Clause.Printable]
      have htokens := clauses?_tokens hprintable .accept
      rw [List.flatMap_singleton] at htokens
      unfold Statement.read?
      rw [htokens]
      rfl
    unfold headLines
    simp only [List.cons_append, List.nil_append]
    rw [blocks?, Named.ofName?_name, Named.ofName?_name, Option.bind_eq_bind, Option.bind_some,
      Option.bind_eq_bind, Option.bind_some, if_pos rfl]
    exact blocks?_statement (by decide) hknown _ _
  unfold blockLines
  rw [List.append_assoc, List.append_assoc, hhead, List.singleton_append, blocks?_rules h]
  rfl

/-! ## The order of the rules -/

/-- `listed` are the enabled rules of a chain in ascending order of their numbers, and those of
one number in the order in which they are given. -/
structure Listing (rules : List Rule) (chain : Chain) (listed : List Rule) : Prop where
  ascending : listed.Pairwise fun a b => a.id ≤ b.id
  complete : ∀ id, (listed.filter fun r => r.id = id) =
    rules.filter fun r => r.enabled ∧ r.chain = chain ∧ r.id = id

theorem idLe_trans (a b c : Rule) (hab : decide (a.id ≤ b.id) = true)
    (hbc : decide (b.id ≤ c.id) = true) : decide (a.id ≤ c.id) = true :=
  decide_eq_true (Int64.le_trans (of_decide_eq_true hab) (of_decide_eq_true hbc))

theorem idLe_total (a b : Rule) : (decide (a.id ≤ b.id) || decide (b.id ≤ a.id)) = true := by
  simpa using Int64.le_total a.id b.id

/-- Sorting is stable: rules of one number stay in the order in which they are given. -/
theorem filter_id_mergeSort (rules : List Rule) (id : Int64) :
    ((rules.mergeSort fun a b => a.id ≤ b.id).filter fun r => r.id = id) =
      rules.filter fun r => r.id = id := by
  have hsorted : (rules.filter fun r => r.id = id).Pairwise fun a b =>
      decide (a.id ≤ b.id) = true := by
    refine List.pairwise_of_forall_mem_list ?_
    intro a ha b hb
    have ha : a.id = id := by simpa using (List.mem_filter.mp ha).2
    have hb : b.id = id := by simpa using (List.mem_filter.mp hb).2
    rw [ha, hb]
    exact decide_eq_true (Int64.le_refl id)
  have hsub := List.sublist_mergeSort idLe_trans idLe_total hsorted List.filter_sublist
  have hperm := (List.mergeSort_perm rules fun a b => decide (a.id ≤ b.id)).filter
    fun r => decide (r.id = id)
  have hkept := hsub.filter fun r => decide (r.id = id)
  rw [List.filter_filter] at hkept
  simp only [Bool.and_self] at hkept
  exact (hkept.eq_of_length hperm.length_eq.symm).symm

theorem listing_enabledInOrder (rules : List Rule) (chain : Chain) :
    Listing rules chain ((enabledInOrder rules).filter fun r => r.chain == chain) := by
  constructor
  · have hsorted := List.pairwise_mergeSort idLe_trans idLe_total (rules.filter Rule.enabled)
    refine (hsorted.filter _).imp ?_
    intro a b hle
    exact of_decide_eq_true hle
  · intro id
    have hswap : ((enabledInOrder rules).filter fun r => r.chain == chain).filter
        (fun r => decide (r.id = id)) =
        ((enabledInOrder rules).filter fun r => decide (r.id = id)).filter
          fun r => r.chain == chain := by
      simp only [List.filter_filter, Bool.and_comm]
    rw [hswap]
    unfold enabledInOrder
    rw [filter_id_mergeSort, List.filter_filter, List.filter_filter]
    congr 1
    funext r
    rw [Bool.and_comm]
    simp only [Bool.decide_and, Bool.decide_eq_true]
    rfl

/-! ## The whole script -/

theorem blocks?_script (d : Defaults) {rules : Chain → List Rule}
    (h : ∀ chain, ∀ r ∈ rules chain, r.Admissible) (chains : List Chain) :
    blocks? none ((chains.flatMap fun chain => blockLines d (rules chain) chain) ++ [[.closing]]) =
      some (chains.map fun chain => blockOf d chain (rules chain)) := by
  induction chains with
  | nil => rfl
  | cons chain chains ih =>
      rw [List.flatMap_cons, List.append_assoc, blocks?_blockLines d chain (h chain), ih]
      rfl

/-- The script of accepted rules is read as one block for each chain in the order of the chains:
the chain's default action, the statement for known connections, and one statement for each
enabled rule of the chain, in ascending order of the rules' numbers. -/
theorem script_decodes (d : Defaults) (rules : List Rule) (haccepted : ∀ r ∈ rules, r.Accepted) :
    ∃ listed : Chain → List Rule,
      (∀ chain, Listing rules chain (listed chain)) ∧
      read? (script d rules) =
        some ([.input, .forward, .output].map fun chain => blockOf d chain (listed chain)) := by
  have hadmissible : ∀ r ∈ rules, r.Admissible :=
    fun r hr => (Rule.accepted_iff r).mp (haccepted r hr)
  refine ⟨fun chain => (enabledInOrder rules).filter fun r => r.chain == chain,
    listing_enabledInOrder rules, ?_⟩
  have hlisted : ∀ chain, ∀ r ∈ (enabledInOrder rules).filter fun r => r.chain == chain,
      r.Admissible := by
    intro chain r hr
    have hmem := (List.mem_filter.mp hr).1
    exact hadmissible r (List.mem_filter.mp (List.mem_mergeSort.mp hmem)).1
  unfold read?
  rw [textLines?_script d hadmissible, Option.bind_eq_bind, Option.bind_some]
  show (if tableName = tableName then blocks? none _ else none) = _
  rw [if_pos rfl]
  exact blocks?_script d hlisted [.input, .forward, .output]

/-- Two rules of one number, out of order and with every kind of clause between them. -/
def twoRules : List Rule :=
  [{ (default : Rule) with
      id := 7, chain := .forward, protocol := .tcp, action := .drop, inInterface := some "eth0.1",
      outInterface := some "wg-0", ports := [443, 80], sources := ["10.0.0.0/8", "fe80::/10"],
      destinations := ["::ffff:1.2.3.4/+96"], icmpTypes := [8], enabled := true },
    { (default : Rule) with
      id := 3, chain := .forward, protocol := .icmp, action := .accept, ports := [22],
      sources := ["192.168.1.1/255.255.0.0"], icmpTypes := [0, 255], enabled := true }]

theorem accepted_twoRules : ∀ r ∈ twoRules, r.Accepted := by
  unfold twoRules
  simp only [List.forall_mem_cons, List.not_mem_nil, false_implies, implies_true, and_true]
  have hrun : ∀ {r : Rule}, r.draft.accept = .ok (r.withId Rule.unassigned) → r.Accepted :=
    fun h => ⟨_, _, h, rfl⟩
  exact ⟨hrun rfl, hrun rfl⟩

theorem twoRules_decode :
    (∀ r ∈ twoRules, r.Accepted) ∧ ∃ listed : Chain → List Rule,
      (∀ chain, Listing twoRules chain (listed chain)) ∧
      read? (script .initial twoRules) =
        some ([.input, .forward, .output].map fun chain =>
          blockOf .initial chain (listed chain)) :=
  ⟨accepted_twoRules, script_decodes .initial twoRules accepted_twoRules⟩

end Script
end PacketPolicy
