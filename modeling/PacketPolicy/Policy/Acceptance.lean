import PacketPolicy.Network.Block
import PacketPolicy.Policy.Complaint
import PacketPolicy.Policy.Rule
import PacketPolicy.Text.Blank
import PacketPolicy.Text.Clip

namespace PacketPolicy

/-!
# Accepting drafts

A draft becomes a rule, or defaults, when each of its fields is acceptable.  Fields are
looked at in a fixed order, a list from its front, and the first that is not acceptable
is the reason for refusing the draft.

* `Rule.Draft.accept` -- chain, protocol, action, ports, sources, destinations, message
  types, the interface packets come in by, the one they go out by;
* `Defaults.Draft.accept` -- the three policies in the order of the chains, the log prefix.

No condition joins two fields: ports of a protocol without ports are acceptable, and so
are message types of a protocol other than the one that has them.
-/

/-- A port is a number from 1 to 65535. -/
def acceptPort (n : Int64) : Except Refusal UInt16 :=
  if 1 ≤ n.toInt ∧ n.toInt ≤ 65535 then .ok n.toInt.toNat.toUInt16
  else .error (.of .ports (.portOutside n))

/-- A message type is a number from 0 to 255. -/
def acceptIcmpType (n : Int64) : Except Refusal UInt8 :=
  if 0 ≤ n.toInt ∧ n.toInt ≤ 255 then .ok n.toInt.toNat.toUInt8
  else .error (.of .icmpTypes (.icmpTypeOutside n))

/-- A prefix is a block of addresses written with its number of bits. -/
def acceptPrefix (field : String) (s : String) : Except Refusal Network.Block :=
  if !s.toList.contains '/' then .error ⟨field, .noPrefixLength s⟩
  else
    match Network.Block.parse? s with
    | some block => .ok block
    | none => .error ⟨field, .notPrefix s⟩

/-- The characters of an interface's name. -/
def isInterfaceChar (c : Char) : Bool :=
  c.isAlphanum || c == '.' || c == '-' || c == '_'

/-- An interface's name is short, of plain characters, and not a name that directories
use for themselves. -/
def acceptInterface (field : String) (s : String) : Except Refusal String :=
  if Text.isBlankText s then .error ⟨field, .interfaceBlank⟩
  else if interfaceLimit < Text.byteLength s.toList then .error ⟨field, .interfaceLong⟩
  else if s = "." ∨ s = ".." then .error ⟨field, .interfaceReserved⟩
  else if s.toList.all isInterfaceChar then .ok s
  else .error ⟨field, .interfaceCharacters⟩

/-- An interface may be left out. -/
def acceptInterface? (field : Field) : Option String → Except Refusal (Option String)
  | none => .ok none
  | some s => (acceptInterface (Named.name field) s).map some

/-- A log prefix is short and has neither quotes nor control characters; it may be empty. -/
def acceptLogPrefix (s : String) : Except Refusal String :=
  if logPrefixLimit < Text.byteLength s.toList then .error (.of .logPrefix .logPrefixLong)
  else if s.toList.any fun c => Text.isControl c || c == '"' then
    .error (.of .logPrefix .logPrefixCharacters)
  else .ok s

/-- A text with its ASCII capitals made small. -/
def loweredAscii (s : String) : String :=
  String.ofList (s.toList.map Char.toLower)

/-- A policy is the name of an action in letters of either case. -/
def acceptPolicy (field : Field) (s : String) : Except Refusal Action :=
  match Named.ofName? (loweredAscii s) with
  | some action => .ok action
  | none => .error (.of field (.notPolicy s))

/-- The member of a name, or the complaint about it. -/
def acceptName {α : Type} [Named α] (field : Field) (complaint : String → Complaint)
    (s : String) : Except Refusal α :=
  match Named.ofName? s with
  | some a => .ok a
  | none => .error (.of field (complaint s))

/-- The rule that a draft describes, or why there is none. -/
def Rule.Draft.accept (d : Rule.Draft) : Except Refusal Rule := do
  let chain ← acceptName .chain .unknownChain d.chain
  let protocol ← acceptName .protocol .unknownProtocol d.protocol
  let action ← acceptName .action .unknownAction d.action
  let ports ← d.ports.mapM acceptPort
  let _ ← d.sources.mapM (acceptPrefix (Named.name Field.sources))
  let _ ← d.destinations.mapM (acceptPrefix (Named.name Field.destinations))
  let icmpTypes ← d.icmpTypes.mapM acceptIcmpType
  let inInterface ← acceptInterface? .inInterface d.inInterface
  let outInterface ← acceptInterface? .outInterface d.outInterface
  return {
    id := Rule.unassigned
    chain, protocol, action, inInterface, outInterface, ports
    sources := d.sources
    destinations := d.destinations
    icmpTypes
    comment := d.comment
    enabled := d.enabled }

/-- The defaults that a draft describes, or why there are none. -/
def Defaults.Draft.accept (d : Defaults.Draft) : Except Refusal Defaults := do
  let input ← acceptPolicy .inputPolicy d.input
  let forward ← acceptPolicy .forwardPolicy d.forward
  let output ← acceptPolicy .outputPolicy d.output
  let logPrefix ← acceptLogPrefix d.logPrefix
  return { input, forward, output, logPrefix }

end PacketPolicy
