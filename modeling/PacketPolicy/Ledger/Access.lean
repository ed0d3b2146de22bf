import PacketPolicy.Ledger.Statement
import PacketPolicy.Ledger.Transaction

namespace PacketPolicy
namespace Ledger

/-!
# What can be done with the ledger

The transactions in which the ledger is read and changed.  A rule and all that belongs to
it are stored and removed in one transaction, and rules are listed by ascending number,
with what belongs to them in the order in which it was stored.

* `create`, `list`, `delete`, `replaceAll` -- rules;
* `loadDefaults`, `seedDefaults`, `setDefaults` -- the defaults;
* `lookUpRole`, `append`, `recent` -- users and the journal.

Nothing here asks whether a rule is acceptable; a zero port number is the only thing
that the tables themselves refuse.
-/

open Transaction

/-- Runs a statement for each item of a list. -/
def each {α : Type} (f : α → Transaction Unit) : List α → Transaction Unit
  | [] => pure ()
  | a :: rest => do
      f a
      each f rest

/-- Stores a rule under a new number, statement by statement. -/
def storeRule (r : Rule) : Transaction Int64 := do
  let id ← statement (insertRule r)
  each (fun port => statement (insertPort id port)) r.ports
  each (fun s => statement (insertSource id s)) r.sources
  each (fun s => statement (insertDestination id s)) r.destinations
  each (fun t => statement (insertIcmpType id t)) r.icmpTypes
  return id

/-- Stores rules one after another. -/
def storeRules : List Rule → Transaction (List Int64)
  | [] => return []
  | r :: rest => do
      let id ← storeRule r
      let ids ← storeRules rest
      return id :: ids

/-- The rule with what belongs to it. -/
def complete (r : Rule) : Transaction Rule := do
  let ports ← query (portsOf r.id)
  let sources ← query (sourcesOf r.id)
  let destinations ← query (destinationsOf r.id)
  let icmpTypes ← query (icmpTypesOf r.id)
  return { r with ports, sources, destinations, icmpTypes }

/-- Rules with what belongs to them. -/
def completeAll : List Rule → Transaction (List Rule)
  | [] => return []
  | r :: rest => do
      let r ← complete r
      let rules ← completeAll rest
      return r :: rules

/-- Removes what belongs to the rules that `keep` does not keep. -/
def keepOnly (keep : Option Int64 → Bool) : Transaction Unit :=
  each (fun part => statement (keepPart keep part)) Part.all

/-- Stores a rule; its new number. -/
def create (r : Rule) : Transaction Int64 :=
  storeRule r

/-- All rules, or the enabled ones. -/
def list (onlyEnabled : Bool) : Transaction (List Rule) := do
  let rules ← query (ruleRows onlyEnabled)
  completeAll rules

/-- Removes a rule and what belongs to it; whether there was one. -/
def delete (id : Int64) : Transaction Bool := do
  keepOnly (fun owner => owner != some id)
  statement (deleteRule id)

/-- The defaults, if their row is there. -/
def loadDefaults : Transaction (Option Defaults) :=
  query defaultsRow

/-- The defaults; if their row is missing, the initial ones are stored and taken. -/
def seedDefaults : Transaction Defaults := do
  match ← query defaultsRow with
  | some d => return d
  | none => do
      statement (writeDefaults .initial)
      return .initial

/-- Overwrites the defaults. -/
def setDefaults (d : Defaults) : Transaction Unit :=
  statement (writeDefaults d)

/-- Puts a whole policy in the place of the present one; the new numbers of its rules. -/
def replaceAll (d : Defaults) (rules : List Rule) : Transaction (List Int64) := do
  statement (writeDefaults d)
  keepOnly (fun _ => false)
  statement clearRules
  storeRules rules

/-- The name of a user's role, if the user is known. -/
def lookUpRole (name : String) : Transaction (Option String) :=
  query (roleOf name)

/-- One more entry of the journal. -/
def append (e : Event) : Transaction Unit :=
  statement (appendRow (.ofEvent e))

/-- The last entries of the journal, newest first. -/
def recent (limit : Nat) : Transaction (List Event) :=
  query (lastEvents limit)

/-- The defaults.  A missing row is noticed in a transaction that only reads, and supplied
in a second one, which has a deadline of its own. -/
def readDefaultsWithin (first second : Deadline) (l : Ledger) : Except Failure Defaults × Ledger :=
  match loadDefaults.commit first l with
  | (.ok (some defaults), l) => (.ok defaults, l)
  | (.ok none, l) => seedDefaults.commit second l
  | (.error e, l) => (.error e, l)

/-- The defaults, where both transactions have the same deadline. -/
def readDefaults (d : Deadline) (l : Ledger) : Except Failure Defaults × Ledger :=
  readDefaultsWithin d d l

end Ledger
end PacketPolicy
