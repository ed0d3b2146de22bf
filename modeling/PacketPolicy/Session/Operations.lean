import PacketPolicy.Policy.Acceptance
import PacketPolicy.Policy.Document
import PacketPolicy.Policy.Script
import PacketPolicy.Session.Site

namespace PacketPolicy
namespace Client

/-!
# What clients can do

The operations on a policy as a client sees them.  An operation that changes something asks
first whether the user may do it, then whether what it is given is acceptable; then it takes
the lock, and only then does it write, and puts an event into the journal.  That event is
best effort: if it cannot be written, the change stands all the same.  An operation that
only reads takes no lock and is open to everybody.

* `addRule`, `deleteRule`, `setDefaults`, `importPolicy`, `apply` -- changes;
* `role`, `rules`, `defaults`, `exportPolicy`, `renderScript`, `check`, `trail` -- the rest.
-/

/-- What not everybody may do. -/
inductive Deed where
  | addRules
  | deleteRules
  | applyRuleset
  | changeDefaults
  | importPolicies
deriving DecidableEq, Repr, Inhabited

/-- The least role that may do it. -/
def Deed.required : Deed → Role
  | addRules | deleteRules | applyRuleset => .operator
  | changeDefaults | importPolicies => .admin

/-- How refusals call it. -/
def Deed.wording : Deed → String
  | addRules => "add rules"
  | deleteRules => "delete rules"
  | applyRuleset => "apply the ruleset"
  | changeDefaults => "change default policies"
  | importPolicies => "import snapshots"

/-! ## Who may do what -/

/-- The role of the user; `deed` is what a stranger is told that he may not do. -/
def roleFor (c : Client) (deed : String) : Operation Site Role := do
  match ← c.consult fun _ => Ledger.lookUpRole c.actor with
  | none => throw (.forbidden c.actor deed)
  | some name =>
      match Named.ofName? name with
      | some role => return role
      | none => throw (.internal ("user " ++ c.actor ++ " has unknown role '" ++ name ++ "'"))

/-- The role of the user. -/
def role (c : Client) : Operation Site Role :=
  c.roleFor "act on the firewall policy"

/-- Fails unless the user may do it. -/
def authorize (c : Client) (deed : Deed) : Operation Site Unit := do
  let role ← c.roleFor deed.wording
  if role.covers deed.required then return ()
  else throw (.forbidden c.actor deed.wording)

/-! ## What is acceptable -/

/-- An interface that a rule names has to exist, if anybody looks. -/
def admitInterface (c : Client) (field : Field) : Option String → Except Failure Unit
  | none => .ok ()
  | some name =>
      match c.interfaces with
      | none => .ok ()
      | some (.error words) =>
          .error (.internal ("Failed to list network interfaces: " ++ words))
      | some (.ok present) =>
          if present.contains name then .ok ()
          else .error (.refused (.of field (.interfaceAbsent name)))

/-- The rule of a draft, if it is acceptable and its interfaces exist. -/
def admitRule (c : Client) (d : Rule.Draft) : Except Failure Rule := do
  let r ← d.accept.mapError .refused
  c.admitInterface .inInterface r.inInterface
  c.admitInterface .outInterface r.outInterface
  return r

/-- The rules of drafts that stand in a list from some place on, counted from zero. -/
def admitRules (c : Client) (place : Nat) : List Rule.Draft → Except Failure (List Rule)
  | [] => .ok []
  | d :: rest =>
      match c.admitRule d with
      | .error e => .error (e.inRule (place + 1))
      | .ok r => do
          let rules ← c.admitRules (place + 1) rest
          return r :: rules

/-- The policy of a draft: the defaults first, then the rules in order. -/
def admitPolicy (c : Client) (d : Policy.Draft) : Except Failure Policy := do
  let defaults ← d.defaults.accept.mapError .refused
  let rules ← c.admitRules 0 d.rules
  return { defaults, rules }

/-- What is not acceptable ends the operation. -/
def admitted {α : Type} : Except Failure α → Operation Site α
  | .ok a => return a
  | .error e => throw e

/-! ## Changes -/

/-- Puts an event into the journal, if that is possible. -/
def note (c : Client) (kind : Event.Kind) (object : String) (details : Json.Value) :
    Operation Site Unit :=
  tryCatch
    (c.transact fun s =>
      Ledger.append { timestamp := s.now, actor := c.actor, kind, object, details })
    fun _ => return ()

/-- Adds a rule; its number. -/
def addRule (c : Client) (d : Rule.Draft) : Operation Site Int64 := do
  c.authorize .addRules
  let r ← admitted (c.admitRule d)
  Operation.underLock c.lock do
    let id ← c.transact fun _ => Ledger.create r
    c.note .addRule (ruleObject id) (.ofMembers (r.withId id).members)
    return id

/-- Deletes a rule; whether there was one. -/
def deleteRule (c : Client) (id : Int64) : Operation Site Bool := do
  c.authorize .deleteRules
  Operation.underLock c.lock do
    let found ← c.transact fun _ => Ledger.delete id
    if found then c.note .deleteRule (ruleObject id) (.object [])
    return found

/-- Sets the defaults. -/
def setDefaults (c : Client) (d : Defaults.Draft) : Operation Site Defaults := do
  c.authorize .changeDefaults
  let defaults ← admitted (d.accept.mapError .refused)
  Operation.underLock c.lock do
    c.transact fun _ => Ledger.setDefaults defaults
    c.note .setDefaults defaultsObject (.ofMembers defaults.members)
  return defaults

/-- Puts a whole policy in the place of the present one; the number of its rules. -/
def importPolicy (c : Client) (d : Policy.Draft) : Operation Site Nat := do
  c.authorize .importPolicies
  let p ← admitted (c.admitPolicy d)
  Operation.underLock c.lock do
    let ids ← c.transact fun _ => Ledger.replaceAll p.defaults p.rules
    c.note .importSnapshot rulesetObject (.ofMembers [("rules", .ofNat ids.length)])
    return ids.length

/-! ## Reading -/

/-- All rules, or the enabled ones. -/
def rules (c : Client) (onlyEnabled : Bool) : Operation Site (List Rule) :=
  c.consult fun _ => Ledger.list onlyEnabled

/-- The defaults; a missing row is supplied in a step of its own. -/
def defaults (c : Client) : Operation Site Defaults := do
  match ← c.consult fun _ => Ledger.loadDefaults with
  | some d => return d
  | none => c.transact fun _ => Ledger.seedDefaults

/-- The whole policy. -/
def exportPolicy (c : Client) : Operation Site Policy := do
  let defaults ← c.defaults
  let rules ← c.rules false
  return { defaults, rules }

/-- The script of the policy. -/
def renderScript (c : Client) : Operation Site String := do
  let defaults ← c.defaults
  let rules ← c.rules true
  return script defaults rules

/-- Has the loader look at the script of the policy without loading it. -/
def check (c : Client) : Operation Site Unit := do
  let s ← c.renderScript
  c.handOff .check s

/-- The last entries of the journal, newest first. -/
def trail (c : Client) (limit : Nat) : Operation Site (List Event) :=
  c.consult fun _ => Ledger.recent limit

/-- What was loaded. -/
structure Loaded where
  rules : Nat
  /-- The number of bytes of the script. -/
  bytes : Nat
deriving DecidableEq, Repr, Inhabited

/-- Loads the script of the policy. -/
def apply (c : Client) : Operation Site Loaded := do
  c.authorize .applyRuleset
  Operation.underLock c.lock do
    let defaults ← c.defaults
    let rules ← c.rules true
    let s := script defaults rules
    c.handOff .load s
    let loaded : Loaded := { rules := rules.length, bytes := s.utf8ByteSize }
    c.note .applyRules rulesetObject
      (.ofMembers [("rules", .ofNat loaded.rules), ("bytes", .ofNat loaded.bytes)])
    return loaded

end Client
end PacketPolicy
