import PacketPolicy.Policy.Vocabulary

namespace PacketPolicy

/-!
# Policies

A policy says what happens to the packets of one host: a rule list and, for each chain,
the action for packets that no rule of the chain matches.

* `Rule`, `Defaults`, `Policy` -- values that may be stored and put into a script;
* `Rule.Draft`, `Defaults.Draft`, `Policy.Draft` -- the same as somebody wrote them down,
  with names in place of members and numbers of any size;
* `Rule.draft`, `Defaults.draft`, `Policy.draft` -- a value written down again.

A rule keeps its ports, prefixes and message types in the order in which they were
written, with repetitions, and keeps them also where its protocol has no use for them.
-/

/-- One filtering rule. -/
structure Rule where
  /-- The number by which the ledger knows the rule; zero before it is stored. -/
  id : Int64
  chain : Chain
  protocol : Protocol
  action : Action
  inInterface : Option String
  outInterface : Option String
  ports : List UInt16
  sources : List String
  destinations : List String
  icmpTypes : List UInt8
  comment : Option String
  enabled : Bool
deriving DecidableEq, Repr, Inhabited

/-- A rule as it was written down. -/
structure Rule.Draft where
  chain : String
  protocol : String
  action : String
  inInterface : Option String
  outInterface : Option String
  ports : List Int64
  sources : List String
  destinations : List String
  icmpTypes : List Int64
  comment : Option String
  enabled : Bool
deriving DecidableEq, Repr, Inhabited

/-- The actions for packets that no rule matches. -/
structure Defaults where
  input : Action
  forward : Action
  output : Action
  /-- What log lines of dropped packets begin with. -/
  logPrefix : String
deriving DecidableEq, Repr, Inhabited

/-- The actions as they were written down. -/
structure Defaults.Draft where
  input : String
  forward : String
  output : String
  logPrefix : String
deriving DecidableEq, Repr, Inhabited

/-- The whole policy of a host. -/
structure Policy where
  defaults : Defaults
  rules : List Rule
deriving DecidableEq, Repr, Inhabited

/-- A policy as it was written down. -/
structure Policy.Draft where
  defaults : Defaults.Draft
  rules : List Rule.Draft
deriving DecidableEq, Repr, Inhabited

namespace Rule

/-- The number of a rule that has not been stored yet. -/
def unassigned : Int64 := 0

/-- The rule under another number. -/
def withId (r : Rule) (id : Int64) : Rule :=
  { r with id := id }

/-- The rule written down; its number is left out. -/
def draft (r : Rule) : Draft where
  chain := Named.name r.chain
  protocol := Named.name r.protocol
  action := Named.name r.action
  inInterface := r.inInterface
  outInterface := r.outInterface
  ports := r.ports.map fun p => Int64.ofNat p.toNat
  sources := r.sources
  destinations := r.destinations
  icmpTypes := r.icmpTypes.map fun t => Int64.ofNat t.toNat
  comment := r.comment
  enabled := r.enabled

/-- A rule for all incoming packets that lets them pass. -/
def Draft.blank : Draft where
  chain := Named.name Chain.input
  protocol := Named.name Protocol.all
  action := Named.name Action.accept
  inInterface := none
  outInterface := none
  ports := []
  sources := []
  destinations := []
  icmpTypes := []
  comment := none
  enabled := true

end Rule

namespace Defaults

/-- What holds before anybody has decided: nothing comes in or passes through, and
everything goes out. -/
def initial : Defaults where
  input := .drop
  forward := .drop
  output := .accept
  logPrefix := ""

/-- The action of a chain. -/
def policy (d : Defaults) : Chain → Action
  | .input => d.input
  | .forward => d.forward
  | .output => d.output

/-- The actions written down. -/
def draft (d : Defaults) : Draft where
  input := Named.name d.input
  forward := Named.name d.forward
  output := Named.name d.output
  logPrefix := d.logPrefix

end Defaults

/-- The policy written down. -/
def Policy.draft (p : Policy) : Draft where
  defaults := p.defaults.draft
  rules := p.rules.map Rule.draft

end PacketPolicy
