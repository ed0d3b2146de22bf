import PacketPolicy.Proofs.Network.Characters
import PacketPolicy.Proofs.Policy.Admission
import PacketPolicy.Proofs.Script.Scanning

/-!
# From a rule to the clauses of its statement and back

The clauses that a rule is written as, their texts and their tokens.

* `Filter.ofRule` -- what the statement of a rule has to say;
* `Clause.text`, `Clause.tokens` -- how a clause is written, and what it is scanned to;
* `scans_clause` -- a clause is scanned to its tokens, wherever it stands;
* `read?_tokens` -- a clause is read from its tokens, and nothing behind it is touched;
* `read?_lineOf` -- the line of a rule is read as the filter of the rule.

No token of a clause is the beginning of another clause, so the clauses of a line can be told
apart although most of them may be missing.
-/

namespace PacketPolicy
namespace Script

/-- What the statement of a rule has to say: everything the rule restricts, and the action. -/
def Filter.ofRule (r : Rule) : Filter where
  inInterface := r.inInterface
  outInterface := r.outInterface
  protocol := if r.protocol = .all then none else some r.protocol
  ports :=
    if r.ports ≠ [] ∧ (r.protocol = .tcp ∨ r.protocol = .udp) then some (r.protocol, r.ports)
    else none
  sources := r.sources.map fun p => (prefixFamily p, p)
  destinations := r.destinations.map fun p => (prefixFamily p, p)
  icmpTypes := if r.icmpTypes ≠ [] ∧ r.protocol = .icmp then some r.icmpTypes else none
  action := r.action

namespace Clause

/-- How a clause is written. -/
def text : Clause → String
  | known => "ct state established,related"
  | inbound name => "iifname \"" ++ name ++ "\""
  | outbound name => "oifname \"" ++ name ++ "\""
  | protocol p => "meta l4proto " ++ Named.name p
  | ports p numbers => Named.name p ++ " dport " ++ Rule.numberSet (numbers.map UInt16.toNat)
  | source family block => family.word ++ " saddr " ++ block
  | destination family block => family.word ++ " daddr " ++ block
  | icmpTypes numbers => "icmp type " ++ Rule.numberSet (numbers.map UInt8.toNat)

/-- The clause has a text that can be read again. -/
def Printable : Clause → Prop
  | known => True
  | inbound name => Quotable name
  | outbound name => Quotable name
  | protocol _ => True
  | ports p numbers => p.hasPorts = true ∧ numbers ≠ []
  | source _ block => block.toList ≠ [] ∧ ∀ c ∈ block.toList, isWordChar c = true
  | destination _ block => block.toList ≠ [] ∧ ∀ c ∈ block.toList, isWordChar c = true
  | icmpTypes numbers => numbers ≠ []

end Clause

/-- The tokens of a set of numbers behind its opening brace. -/
def numberTokens : List Nat → List Token
  | [] => [.closing]
  | [n] => [.word (toString n), .closing]
  | n :: m :: ns => .word (toString n) :: .comma :: numberTokens (m :: ns)

/-- The tokens of a clause. -/
def Clause.tokens : Clause → List Token
  | known => [.word "ct", .word "state", .word "established", .comma, .word "related"]
  | inbound name => [.word "iifname", .quoted name]
  | outbound name => [.word "oifname", .quoted name]
  | protocol p => [.word "meta", .word "l4proto", .word (Named.name p)]
  | ports p numbers =>
      .word (Named.name p) :: .word "dport" :: .opening :: numberTokens (numbers.map UInt16.toNat)
  | source family block => [.word family.word, .word "saddr", .word block]
  | destination family block => [.word family.word, .word "daddr", .word block]
  | icmpTypes numbers =>
      .word "icmp" :: .word "type" :: .opening :: numberTokens (numbers.map UInt8.toNat)

/-! ## Clauses of a rule -/

theorem restrictsPorts_iff (r : Rule) :
    r.restrictsPorts = true ↔ r.ports ≠ [] ∧ (r.protocol = .tcp ∨ r.protocol = .udp) := by
  unfold Rule.restrictsPorts
  cases r.protocol <;> simp [Protocol.hasPorts]

theorem restrictsIcmpTypes_iff (r : Rule) :
    r.restrictsIcmpTypes = true ↔ r.icmpTypes ≠ [] ∧ r.protocol = .icmp := by
  simp [Rule.restrictsIcmpTypes]

/-- A rule is written as the clauses of its filter, and the action behind them. -/
theorem clauses_eq (r : Rule) :
    r.clauses = (Filter.ofRule r).clauses.map Clause.text ++ [Named.name r.action] := by
  have hprotocol : (if r.protocol = .all then [] else ["meta l4proto " ++ Named.name r.protocol]) =
      ((Filter.ofRule r).protocol.toList.map Clause.protocol).map Clause.text := by
    unfold Filter.ofRule
    dsimp only
    split <;> rfl
  have hports : (if r.restrictsPorts then
      [Named.name r.protocol ++ " dport " ++ Rule.numberSet (r.ports.map UInt16.toNat)] else []) =
      ((Filter.ofRule r).ports.toList.map fun ports => Clause.ports ports.1 ports.2).map
        Clause.text := by
    unfold Filter.ofRule
    simp only [restrictsPorts_iff]
    split <;> rfl
  have hicmp : (if r.restrictsIcmpTypes then
      ["icmp type " ++ Rule.numberSet (r.icmpTypes.map UInt8.toNat)] else []) =
      ((Filter.ofRule r).icmpTypes.toList.map Clause.icmpTypes).map Clause.text := by
    unfold Filter.ofRule
    simp only [restrictsIcmpTypes_iff]
    split <;> rfl
  unfold Rule.clauses Filter.clauses
  rw [hprotocol, hports, hicmp]
  simp only [List.map_append, List.map_map]
  simp [Filter.ofRule, Function.comp_def, Clause.text]

theorem foldr_sources (ss : List (Network.Family × String)) (f : Filter) :
    (ss.map fun (family, block) => Clause.source family block).foldr Clause.addTo f =
      { f with sources := ss ++ f.sources } := by
  induction ss with
  | nil => rfl
  | cons s ss ih =>
      rw [List.map_cons, List.foldr_cons, ih]
      rfl

theorem foldr_destinations (ds : List (Network.Family × String)) (f : Filter) :
    (ds.map fun (family, block) => Clause.destination family block).foldr Clause.addTo f =
      { f with destinations := ds ++ f.destinations } := by
  induction ds with
  | nil => rfl
  | cons s ds ih =>
      rw [List.map_cons, List.foldr_cons, ih]
      rfl

/-- A filter is found again in its clauses. -/
theorem ofClauses_clauses (f : Filter) : Filter.ofClauses f.clauses f.action = f := by
  obtain ⟨inInterface, outInterface, protocol, ports, sources, destinations, types, action⟩ := f
  unfold Filter.ofClauses Filter.clauses
  simp only [List.foldr_append, foldr_sources, foldr_destinations]
  cases inInterface <;> cases outInterface <;> cases protocol <;> cases ports <;> cases types <;>
    simp [Filter.blank, Clause.addTo]

theorem ofClauses?_clauses (f : Filter) :
    Statement.ofClauses? f.clauses f.action = some (.filter f) := by
  unfold Statement.ofClauses?
  rw [ofClauses_clauses, if_pos rfl]

/-! ## Scanning a clause -/

/-- The characters of accepted names of interfaces are neither quotes nor line feeds. -/
theorem quotable_of_isInterface {s : String} (h : IsInterface s) : Quotable s := by
  intro c hc
  have hplain := List.all_eq_true.mp h.plain c hc
  constructor
  · rintro rfl
    exact absurd hplain (by decide)
  · rintro rfl
    exact absurd hplain (by decide)

theorem isWordChar_of_isPrefixChar {c : Char} (h : Network.isPrefixChar c = true) :
    isWordChar c = true := by
  simp only [Network.isPrefixChar, Bool.or_eq_true, beq_iff_eq] at h
  rcases h with (((hhex | rfl) | rfl) | rfl) | rfl
  · have halnum : c.isAlphanum = true := by
      unfold Text.hexDigit? at hhex
      have halpha : c.isAlpha = (c.isUpper || c.isLower) := rfl
      have hupper : c.isUpper = decide (c.val ≥ 65 ∧ c.val ≤ 90) := rfl
      have hlower : c.isLower = (decide (c.val ≥ 97) && decide (c.val ≤ 122)) := rfl
      simp only [Char.isAlphanum, halpha, hupper, hlower, Char.isDigit, Char.le_def] at hhex ⊢
      grind
    simp [isWordChar, halnum]
  · decide
  · decide
  · decide
  · decide

theorem isWordChar_of_isDigit {c : Char} (h : c.isDigit = true) : isWordChar c = true := by
  simp [isWordChar, Char.isAlphanum, h]

/-- An accepted prefix is a word. -/
theorem word_of_isPrefix {s : String} (h : IsPrefix s) :
    s.toList ≠ [] ∧ ∀ c ∈ s.toList, isWordChar c = true := by
  obtain ⟨hslash, block, hparse⟩ := h
  exact ⟨List.ne_nil_of_mem hslash, fun c hc =>
    isWordChar_of_isPrefixChar (Network.Block.isPrefixChar_of_parse? hparse c hc)⟩

/-- A number and the mark behind it. -/
theorem scans_number (n : Nat) {c : Char} {tokens : List Token} (hc : mark? c = some tokens) :
    Scans ((toString n).toList ++ [c]) (.word (toString n) :: tokens) :=
  scans_word (Text.toList_toString_ne_nil n)
    (fun _ hd => isWordChar_of_isDigit (Text.isDigit_of_mem_toString hd)) hc

theorem scans_numbers {ns : List Nat} (h : ns ≠ []) :
    Scans ((", ".intercalate (ns.map fun n => toString n)).toList ++ " \x7d".toList)
      (numberTokens ns) := by
  induction ns using numberTokens.induct with
  | case1 => exact absurd rfl h
  | case2 n =>
      have hword := scans_number n (c := ' ') rfl
      have hbrace : Scans ['\x7d'] [.closing] := scans_mark rfl
      simpa [numberTokens] using hword.append hbrace
  | case3 n m ns ih =>
      have hword := scans_number n (c := ',') rfl
      -- the blank behind the clause ends its last word, which may otherwise go on
      have hblank : Scans [' '] [] := scans_mark rfl
      simpa [numberTokens] using (hword.append hblank).append (ih (List.cons_ne_nil _ _))

theorem scans_numberSet {ns : List Nat} (h : ns ≠ []) :
    Scans (Rule.numberSet ns).toList (.opening :: numberTokens ns) := by
  have hopen : Scans "\x7b ".toList [.opening] := scans_closed (by decide) (by decide)
  unfold Rule.numberSet
  simpa [String.toList_append] using hopen.append (scans_numbers h)

/-- A clause and the blank behind it. -/
theorem scans_clause {c : Clause} (hc : c.Printable) :
    Scans (c.text.toList ++ [' ']) c.tokens := by
  have hblank : Scans [' '] [] := scans_mark rfl
  cases c with
  | known => exact scans_closed (by decide) (by decide)
  | inbound name =>
      have hword : Scans "iifname ".toList [.word "iifname"] :=
        scans_closed (by decide) (by decide)
      simpa [Clause.text, Clause.tokens] using (hword.append (scans_quoted hc)).append hblank
  | outbound name =>
      have hword : Scans "oifname ".toList [.word "oifname"] :=
        scans_closed (by decide) (by decide)
      simpa [Clause.text, Clause.tokens] using (hword.append (scans_quoted hc)).append hblank
  | protocol p =>
      cases p <;> exact scans_closed (by decide) (by decide)
  | ports p numbers =>
      obtain ⟨-, hne⟩ := hc
      have hwords : Scans (Named.name p ++ " dport ").toList
          [.word (Named.name p), .word "dport"] := by
        cases p <;> exact scans_closed (by decide) (by decide)
      have hset : Scans (Rule.numberSet (numbers.map UInt16.toNat)).toList _ :=
        scans_numberSet (by simpa using hne)
      simpa [Clause.text, Clause.tokens] using (hwords.append hset).append hblank
  | source family block =>
      have hwords : Scans (family.word ++ " saddr ").toList [.word family.word, .word "saddr"] := by
        cases family <;> exact scans_closed (by decide) (by decide)
      simpa [Clause.text, Clause.tokens] using hwords.append (scans_word hc.1 hc.2 (c := ' ') rfl)
  | destination family block =>
      have hwords : Scans (family.word ++ " daddr ").toList [.word family.word, .word "daddr"] := by
        cases family <;> exact scans_closed (by decide) (by decide)
      simpa [Clause.text, Clause.tokens] using hwords.append (scans_word hc.1 hc.2 (c := ' ') rfl)
  | icmpTypes numbers =>
      have hwords : Scans "icmp type ".toList [.word "icmp", .word "type"] :=
        scans_closed (by decide) (by decide)
      have hset : Scans (Rule.numberSet (numbers.map UInt8.toNat)).toList _ :=
        scans_numberSet (by simpa [Clause.Printable] using hc)
      simpa [Clause.text, Clause.tokens] using (hwords.append hset).append hblank

/-! ## Reading a clause -/

theorem number?_toString {n limit : Nat} (h : n < limit) :
    number? limit (toString n) = some n := by
  unfold number?
  rw [Text.natOfDigits?_toString]
  simp [h]

theorem numbers?_numberTokens {limit : Nat} {ns : List Nat} (hne : ns ≠ [])
    (h : ∀ n ∈ ns, n < limit) (rest : List Token) :
    numbers? limit (numberTokens ns ++ rest) = some (ns, rest) := by
  induction ns using numberTokens.induct with
  | case1 => exact absurd rfl hne
  | case2 n =>
      have hn : number? limit (toString n) = some n := number?_toString (h n List.mem_cons_self)
      show (number? limit (toString n)).bind _ = _
      rw [hn]
      rfl
  | case3 n m ns ih =>
      obtain ⟨hn, hrest⟩ := List.forall_mem_cons.mp h
      have hmore := ih (List.cons_ne_nil _ _) hrest
      show (number? limit (toString n)).bind _ = _
      rw [number?_toString hn]
      show (numbers? limit (numberTokens (m :: ns) ++ rest)).bind _ = _
      rw [hmore]
      rfl

theorem numbers?_ports {numbers : List UInt16} (hne : numbers ≠ []) (rest : List Token) :
    numbers? 65536 (numberTokens (numbers.map UInt16.toNat) ++ rest) =
      some (numbers.map UInt16.toNat, rest) := by
  refine numbers?_numberTokens (by simpa using hne) ?_ rest
  intro n hn
  obtain ⟨number, -, rfl⟩ := List.mem_map.mp hn
  exact number.toNat_lt

theorem numbers?_icmpTypes {numbers : List UInt8} (hne : numbers ≠ []) (rest : List Token) :
    numbers? 256 (numberTokens (numbers.map UInt8.toNat) ++ rest) =
      some (numbers.map UInt8.toNat, rest) := by
  refine numbers?_numberTokens (by simpa using hne) ?_ rest
  intro n hn
  obtain ⟨number, -, rfl⟩ := List.mem_map.mp hn
  exact number.toNat_lt

/-- A clause is read from its tokens, whatever follows them. -/
theorem read?_tokens {c : Clause} (hc : c.Printable) (rest : List Token) :
    Clause.read? (c.tokens ++ rest) = some (c, rest) := by
  cases c with
  | known => rfl
  | inbound name => rfl
  | outbound name => rfl
  | protocol p => simp [Clause.tokens, Clause.read?]
  | ports p numbers =>
      obtain ⟨hports, hne⟩ := hc
      have hnumbers := numbers?_ports hne rest
      have hread : Clause.read? (.word (Named.name p) :: .word "dport" :: .opening ::
          (numberTokens (numbers.map UInt16.toNat) ++ rest)) =
          (Named.ofName? (Named.name p)).bind fun p =>
            (numbers? 65536 (numberTokens (numbers.map UInt16.toNat) ++ rest)).bind fun read =>
              if p.hasPorts then some (.ports p (read.1.map Nat.toUInt16), read.2) else none := by
        cases p <;> rfl
      show Clause.read? (.word (Named.name p) :: .word "dport" :: .opening ::
        (numberTokens (numbers.map UInt16.toNat) ++ rest)) = _
      rw [hread, Named.ofName?_name, hnumbers]
      simp [hports, Nat.toUInt16, Function.comp_def]
  | source family block => cases family <;> rfl
  | destination family block => cases family <;> rfl
  | icmpTypes numbers =>
      have hnumbers := numbers?_icmpTypes hc rest
      show ((numbers? 256 (numberTokens (numbers.map UInt8.toNat) ++ rest)).bind _) = _
      rw [hnumbers]
      simp [Nat.toUInt8, Function.comp_def]

/-! ## Whole statements -/

/-- The tokens of the line of a rule. -/
def lineOf (f : Filter) : List Token :=
  f.clauses.flatMap Clause.tokens ++ [.word (Named.name f.action)]

theorem scans_statement {cs : List Clause} (hcs : ∀ c ∈ cs, c.Printable) (action : Action) :
    Scans ((" ".intercalate (cs.map Clause.text ++ [Named.name action])).toList ++ ['\n'])
      (cs.flatMap Clause.tokens ++ [.word (Named.name action)] ++ [.stop]) := by
  induction cs with
  | nil =>
      have haction : Scans ((Named.name action).toList ++ ['\n'])
          [.word (Named.name action), .stop] := by
        cases action <;> exact scans_closed (by decide) (by decide)
      simpa using haction
  | cons c cs ih =>
      obtain ⟨hc, hcs⟩ := List.forall_mem_cons.mp hcs
      have hne : cs.map Clause.text ++ [Named.name action] ≠ [] := by simp
      rw [List.map_cons, List.cons_append, String.intercalate_cons_of_ne_nil hne]
      simpa using (scans_clause hc).append (ih hcs)

/-- The fields of an accepted rule can be put into clauses. -/
theorem printable_of_mem {r : Rule} (hr : r.Admissible) :
    ∀ c ∈ (Filter.ofRule r).clauses, c.Printable := by
  intro c hc
  simp only [Filter.clauses, List.mem_append, List.mem_map, Option.mem_toList] at hc
  rcases hc with (((((⟨name, hname, rfl⟩ | ⟨name, hname, rfl⟩) | ⟨p, -, rfl⟩) |
    ⟨⟨p, numbers⟩, hports, rfl⟩) | ⟨⟨family, block⟩, hblock, rfl⟩) |
    ⟨⟨family, block⟩, hblock, rfl⟩) | ⟨numbers, htypes, rfl⟩
  · exact quotable_of_isInterface (hr.inInterface name hname)
  · exact quotable_of_isInterface (hr.outInterface name hname)
  · exact trivial
  · obtain ⟨⟨hne, hprotocol⟩, heq⟩ := Option.ite_none_right_eq_some.mp hports
    obtain ⟨rfl, rfl⟩ := Prod.mk.inj (Option.some.inj heq)
    rcases hprotocol with hp | hp <;> exact ⟨by rw [hp]; rfl, hne⟩
  · obtain ⟨s, hs, heq⟩ := List.mem_map.mp hblock
    obtain ⟨-, rfl⟩ := Prod.mk.inj heq
    exact word_of_isPrefix (hr.sources s hs)
  · obtain ⟨s, hs, heq⟩ := List.mem_map.mp hblock
    obtain ⟨-, rfl⟩ := Prod.mk.inj heq
    exact word_of_isPrefix (hr.destinations s hs)
  · obtain ⟨⟨hne, -⟩, heq⟩ := Option.ite_none_right_eq_some.mp htypes
    obtain rfl := Option.some.inj heq
    exact hne

/-- The first token of a clause never stands alone. -/
theorem two_le_length_tokens (c : Clause) : 2 ≤ c.tokens.length := by
  cases c <;> simp [Clause.tokens]

theorem clauses?_tokens {cs : List Clause} (hcs : ∀ c ∈ cs, c.Printable) (action : Action) :
    clauses? (cs.flatMap Clause.tokens ++ [.word (Named.name action)]) = some (cs, action) := by
  induction cs with
  | nil => simp [clauses?]
  | cons c cs ih =>
      obtain ⟨hc, hcs⟩ := List.forall_mem_cons.mp hcs
      have hlength := two_le_length_tokens c
      have hread := read?_tokens hc (cs.flatMap Clause.tokens ++ [.word (Named.name action)])
      rw [List.flatMap_cons, List.append_assoc, clauses?.eq_def]
      split
      · rename_i s hone
        have hshort := congrArg List.length hone
        simp only [List.length_append, List.length_cons, List.length_nil] at hshort
        omega
      · split
        · rename_i found rest heq
          rw [hread] at heq
          obtain ⟨rfl, rfl⟩ := Prod.mk.inj (Option.some.inj heq)
          rw [ih hcs]
          rfl
        · rename_i heq
          rw [hread] at heq
          cases heq

/-- The line of a rule is read as the filter of the rule. -/
theorem read?_lineOf {r : Rule} (hr : r.Admissible) :
    Statement.read? (lineOf (Filter.ofRule r)) = some (.filter (Filter.ofRule r)) := by
  unfold Statement.read? lineOf
  rw [clauses?_tokens (printable_of_mem hr), Option.bind_eq_bind, Option.bind_some]
  exact ofClauses?_clauses (Filter.ofRule r)

end Script
end PacketPolicy
