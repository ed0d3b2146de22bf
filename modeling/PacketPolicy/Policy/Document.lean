import PacketPolicy.Json.Decode
import PacketPolicy.Policy.Rule

namespace PacketPolicy

/-!
# Policy documents

Policies as JSON documents: rules, defaults and whole policies as objects whose members
are in the order of the fields.

* `Rule.record`, `Defaults.record`, `Policy.record` -- reading what was exported;
* `Rule.Draft.record`, `Defaults.Draft.record`, `Policy.Draft.record` -- reading what
  somebody wrote: names and numbers are taken as they are, the number of a rule is passed
  over, and the protocol may go by a shorter name;
* `Rule.members`, `Policy.document` and others -- writing.
-/

namespace Rule

open Json Reader Record in
/-- The fields of a rule. -/
def record : Record Rule :=
  Rule.mk <$> required "id" signed64 <*> required "chain" named <*> required "protocol" named
    <*> required "action" named
    <*> defaulted "in_iface" (optional text) none <*> defaulted "out_iface" (optional text) none
    <*> defaulted "ports" (list word16) [] <*> defaulted "sources" (list text) []
    <*> defaulted "destinations" (list text) [] <*> defaulted "icmp_types" (list word8) []
    <*> defaulted "comment" (optional text) none <*> defaulted "enabled" boolean true

/-- Reads a rule. -/
def reader : Json.Reader Rule :=
  record.reader "struct Rule"

open Json Reader Record in
/-- The fields of a rule that somebody wrote. -/
def Draft.record : Record Draft :=
  Draft.mk <$> required "chain" text <*> requiredAs "protocol" "proto" text
    <*> required "action" text
    <*> defaulted "in_iface" (optional text) none <*> defaulted "out_iface" (optional text) none
    <*> defaulted "ports" (list signed64) [] <*> defaulted "sources" (list text) []
    <*> defaulted "destinations" (list text) [] <*> defaulted "icmp_types" (list signed64) []
    <*> defaulted "comment" (optional text) none <*> defaulted "enabled" boolean true

/-- Reads a rule that somebody wrote. -/
def Draft.reader : Json.Reader Draft :=
  Draft.record.reader "struct RuleDraft"

/-- A list of texts as a value. -/
def textItems (items : List String) : Json.Value :=
  .array (items.map .string)

/-- The members of a rule's object. -/
def members (r : Rule) : List (String × Json.Value) :=
  [("id", .ofInt r.id.toInt),
    ("chain", .string (Named.name r.chain)),
    ("protocol", .string (Named.name r.protocol)),
    ("action", .string (Named.name r.action)),
    ("in_iface", .ofString? r.inInterface),
    ("out_iface", .ofString? r.outInterface),
    ("ports", .array (r.ports.map fun p => .ofNat p.toNat)),
    ("sources", textItems r.sources),
    ("destinations", textItems r.destinations),
    ("icmp_types", .array (r.icmpTypes.map fun t => .ofNat t.toNat)),
    ("comment", .ofString? r.comment),
    ("enabled", .bool r.enabled)]

/-- The rule as an object. -/
def value (r : Rule) : Json.Value :=
  .object r.members

/-- The members of the object of a rule that somebody wrote. -/
def Draft.members (d : Draft) : List (String × Json.Value) :=
  [("chain", .string d.chain),
    ("protocol", .string d.protocol),
    ("action", .string d.action),
    ("in_iface", .ofString? d.inInterface),
    ("out_iface", .ofString? d.outInterface),
    ("ports", .array (d.ports.map fun p => .ofInt p.toInt)),
    ("sources", textItems d.sources),
    ("destinations", textItems d.destinations),
    ("icmp_types", .array (d.icmpTypes.map fun t => .ofInt t.toInt)),
    ("comment", .ofString? d.comment),
    ("enabled", .bool d.enabled)]

/-- The rule that somebody wrote as an object. -/
def Draft.value (d : Draft) : Json.Value :=
  .object d.members

end Rule

namespace Defaults

open Json Reader Record in
/-- The fields of the defaults. -/
def record : Record Defaults :=
  Defaults.mk <$> required "input_policy" named <*> required "forward_policy" named
    <*> required "output_policy" named <*> defaulted "log_prefix" text ""

/-- Reads defaults. -/
def reader : Json.Reader Defaults :=
  record.reader "struct Defaults"

open Json Reader Record in
/-- The fields of the defaults that somebody wrote. -/
def Draft.record : Record Draft :=
  Draft.mk <$> required "input_policy" text <*> required "forward_policy" text
    <*> required "output_policy" text <*> defaulted "log_prefix" text ""

/-- Reads defaults that somebody wrote. -/
def Draft.reader : Json.Reader Draft :=
  Draft.record.reader "struct DefaultsDraft"

/-- The members of the object of the defaults. -/
def members (d : Defaults) : List (String × Json.Value) :=
  [("input_policy", .string (Named.name d.input)),
    ("forward_policy", .string (Named.name d.forward)),
    ("output_policy", .string (Named.name d.output)),
    ("log_prefix", .string d.logPrefix)]

/-- The defaults as an object. -/
def value (d : Defaults) : Json.Value :=
  .object d.members

/-- The defaults that somebody wrote as an object. -/
def Draft.value (d : Draft) : Json.Value :=
  .object
    [("input_policy", .string d.input), ("forward_policy", .string d.forward),
      ("output_policy", .string d.output), ("log_prefix", .string d.logPrefix)]

end Defaults

namespace Policy

open Json Reader Record in
/-- The fields of a policy. -/
def record : Record Policy :=
  Policy.mk <$> required "defaults" Defaults.reader <*> required "rules" (list Rule.reader)

/-- Reads a policy. -/
def reader : Json.Reader Policy :=
  record.reader "struct Snapshot"

open Json Reader Record in
/-- The fields of a policy that somebody wrote. -/
def Draft.record : Record Draft :=
  Draft.mk <$> required "defaults" Defaults.Draft.reader
    <*> defaulted "rules" (list Rule.Draft.reader) []

/-- Reads a policy that somebody wrote. -/
def Draft.reader : Json.Reader Draft :=
  Draft.record.reader "struct SnapshotDraft"

/-- The policy that a text describes. -/
def Draft.ofText (s : String) : Except Json.Problem Draft :=
  Json.Reader.ofText Draft.reader s

/-- The policy as an object. -/
def value (p : Policy) : Json.Value :=
  .object [("defaults", p.defaults.value), ("rules", .array (p.rules.map Rule.value))]

/-- The policy that somebody wrote as an object. -/
def Draft.value (d : Draft) : Json.Value :=
  .object [("defaults", d.defaults.value), ("rules", .array (d.rules.map Rule.Draft.value))]

/-- The document of a policy: its object in lines, with a line feed at the end. -/
def document (p : Policy) : String :=
  p.value.indented ++ "\n"

end Policy
end PacketPolicy
