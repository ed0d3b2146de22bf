import PacketPolicy.Policy.Vocabulary

namespace PacketPolicy

/-!
# Complaints about drafts

Why a draft is not acceptable: a `Refusal` names the field at fault and carries the
`Complaint` about it.

* `Complaint.message` -- the wording of a complaint;
* `Refusal.inRule` -- the refusal of a draft that is one of a list.
-/

/-- The fields of rules and of defaults that a complaint can be about. -/
inductive Field where
  | chain
  | protocol
  | action
  | ports
  | sources
  | destinations
  | icmpTypes
  | inInterface
  | outInterface
  | inputPolicy
  | forwardPolicy
  | outputPolicy
  | logPrefix
deriving DecidableEq, Repr, Inhabited

instance : Named Field where
  all := [.chain, .protocol, .action, .ports, .sources, .destinations, .icmpTypes, .inInterface,
    .outInterface, .inputPolicy, .forwardPolicy, .outputPolicy, .logPrefix]
  name
    | .chain => "chain"
    | .protocol => "protocol"
    | .action => "action"
    | .ports => "ports"
    | .sources => "sources"
    | .destinations => "destinations"
    | .icmpTypes => "icmp_types"
    | .inInterface => "in_iface"
    | .outInterface => "out_iface"
    | .inputPolicy => "input_policy"
    | .forwardPolicy => "forward_policy"
    | .outputPolicy => "output_policy"
    | .logPrefix => "log_prefix"
  mem_all a := by cases a <;> simp
  name_injective a b := by cases a <;> cases b <;> simp

/-- What is wrong with the value of a field. -/
inductive Complaint where
  | unknownChain (given : String)
  | unknownProtocol (given : String)
  | unknownAction (given : String)
  | portOutside (given : Int64)
  | icmpTypeOutside (given : Int64)
  /-- A prefix without a slash. -/
  | noPrefixLength (given : String)
  | notPrefix (given : String)
  | interfaceBlank
  | interfaceLong
  /-- One of the two names that directories use for themselves. -/
  | interfaceReserved
  | interfaceCharacters
  /-- This host has no interface of the name. -/
  | interfaceAbsent (given : String)
  | notPolicy (given : String)
  | logPrefixLong
  | logPrefixCharacters
  /-- A complaint about the rule at a place, counted from one, of a list. -/
  | inRule (place : Nat) (complaint : Complaint)
  /-- A complaint in somebody else's words. -/
  | reported (text : String)
deriving DecidableEq, Repr, Inhabited

/-- The greatest number of bytes of an interface's name. -/
def interfaceLimit : Nat := 15

/-- The greatest number of bytes of a log prefix. -/
def logPrefixLimit : Nat := 64

/-- The wording of a complaint. -/
def Complaint.message : Complaint → String
  | .unknownChain given => "unknown chain '" ++ given ++ "'"
  | .unknownProtocol given => "unknown protocol '" ++ given ++ "'"
  | .unknownAction given => "unknown action '" ++ given ++ "'"
  | .portOutside given => "port " ++ toString given.toInt ++ " is outside 1-65535"
  | .icmpTypeOutside given => "ICMP type " ++ toString given.toInt ++ " is outside 0-255"
  | .noPrefixLength given => "'" ++ given ++ "' has no prefix length"
  | .notPrefix given => "'" ++ given ++ "' is not a valid prefix: invalid address: " ++ given
  | .interfaceBlank => "interface name is empty"
  | .interfaceLong =>
      "interface name too long (max " ++ toString interfaceLimit ++ " characters)"
  | .interfaceReserved => "invalid interface name"
  | .interfaceCharacters => "interface name contains invalid characters"
  | .interfaceAbsent given => "interface '" ++ given ++ "' does not exist"
  | .notPolicy given => "policy must be accept or drop, got '" ++ given ++ "'"
  | .logPrefixLong => "log prefix too long (max " ++ toString logPrefixLimit ++ " characters)"
  | .logPrefixCharacters => "log prefix contains quotes or control characters"
  | .inRule place complaint => "rule " ++ toString place ++ ": " ++ complaint.message
  | .reported text => text

/-- A field and what is wrong with it. -/
structure Refusal where
  field : String
  complaint : Complaint
deriving DecidableEq, Repr, Inhabited

/-- The refusal of a known field. -/
def Refusal.of (field : Field) (complaint : Complaint) : Refusal :=
  ⟨Named.name field, complaint⟩

/-- The refusal of the rule at a place, counted from one, of a list. -/
def Refusal.inRule (place : Nat) (r : Refusal) : Refusal :=
  ⟨r.field, .inRule place r.complaint⟩

end PacketPolicy
