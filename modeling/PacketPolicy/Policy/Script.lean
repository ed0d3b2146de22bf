import PacketPolicy.Network.Block
import PacketPolicy.Policy.Rule

namespace PacketPolicy

/-!
# Scripts for the packet filter

The script that loads a policy: it clears the filter and sets up one table with a block
for each chain.  The first statement of a block lets packets of known connections pass;
then comes one statement for each enabled rule of the chain, in ascending order of the
rules' numbers, rules of one number in the order in which they are given.

A statement is a list of clauses with blanks between them, always in the same order:
interfaces, protocol, ports, sources, destinations, message types, action.  Every prefix
has a clause of its own, and since a packet has to satisfy all clauses, a rule with two
separate sources matches none.

* `Rule.clauses`, `Rule.statement` -- one rule;
* `chainBlock` -- the block of one chain;
* `script` -- the whole script.
-/

/-- The name of the table that the script sets up. -/
def tableName : String := "netfence"

/-- The statement that lets packets of known connections pass. -/
def establishedStatement : String := "ct state established,related accept"

/-- The family by which the packet filter knows a prefix; what is no prefix counts as one
of version 4. -/
def prefixFamily (s : String) : Network.Family :=
  match Network.Block.parse? s with
  | some block => block.family
  | none => .ip

namespace Rule

/-- Whether the statement of the rule restricts ports. -/
def restrictsPorts (r : Rule) : Bool :=
  !r.ports.isEmpty && r.protocol.hasPorts

/-- Whether the statement of the rule restricts message types. -/
def restrictsIcmpTypes (r : Rule) : Bool :=
  !r.icmpTypes.isEmpty && r.protocol == .icmp

/-- Numbers with commas between them, in braces. -/
def numberSet (numbers : List Nat) : String :=
  "\x7b " ++ ", ".intercalate (numbers.map fun n => toString n) ++ " \x7d"

/-- The clauses of the rule's statement; the action is the last of them. -/
def clauses (r : Rule) : List String :=
  (r.inInterface.toList.map fun name => "iifname \"" ++ name ++ "\"") ++
  (r.outInterface.toList.map fun name => "oifname \"" ++ name ++ "\"") ++
  (if r.protocol = .all then [] else ["meta l4proto " ++ Named.name r.protocol]) ++
  (if r.restrictsPorts then
    [Named.name r.protocol ++ " dport " ++ numberSet (r.ports.map UInt16.toNat)]
  else []) ++
  (r.sources.map fun p => (prefixFamily p).word ++ " saddr " ++ p) ++
  (r.destinations.map fun p => (prefixFamily p).word ++ " daddr " ++ p) ++
  (if r.restrictsIcmpTypes then
    ["icmp type " ++ numberSet (r.icmpTypes.map UInt8.toNat)]
  else []) ++
  [Named.name r.action]

/-- The rule as one line. -/
def statement (r : Rule) : String :=
  " ".intercalate r.clauses

end Rule

/-- The lines of a chain's block. -/
def chainLines (d : Defaults) (rules : List Rule) (chain : Chain) : List String :=
  ["    chain " ++ Named.name chain ++ " \x7b",
    "        type filter hook " ++ Named.name chain ++ " priority 0; policy " ++
      Named.name (d.policy chain) ++ ";",
    "        " ++ establishedStatement] ++
  ((rules.filter fun r => r.chain == chain).map fun r => "        " ++ r.statement) ++
  ["    \x7d"]

/-- Each line with a line feed at its end. -/
def unlines (lines : List String) : String :=
  String.join (lines.map (· ++ "\n"))

/-- The enabled rules in the order in which the script lists them. -/
def enabledInOrder (rules : List Rule) : List Rule :=
  (rules.filter Rule.enabled).mergeSort fun a b => a.id ≤ b.id

/-- The lines of the script. -/
def scriptLines (d : Defaults) (rules : List Rule) : List String :=
  ["flush ruleset", "", "table inet " ++ tableName ++ " \x7b"] ++
  List.intercalate [""] ((Named.all : List Chain).map (chainLines d (enabledInOrder rules))) ++
  ["\x7d"]

/-- The script that loads a policy. -/
def script (d : Defaults) (rules : List Rule) : String :=
  unlines (scriptLines d rules)

end PacketPolicy
