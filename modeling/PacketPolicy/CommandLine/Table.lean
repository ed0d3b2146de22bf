import PacketPolicy.Journal.Event
import PacketPolicy.Policy.Rule
import PacketPolicy.Text.Clip

namespace PacketPolicy
namespace CommandLine

/-!
# Tables

How the command line shows defaults, rules and the journal: a line for each, with columns
of fixed width.

* `defaultsTable`, `rulesTable`, `journalTable` -- the lines.

Widths of columns are counted in characters; what is too wide for its column is clipped
where a width is given for it, counted in bytes, and pushes the others aside elsewhere.
-/

/-- A text with blanks behind it up to a width. -/
def padRight (width : Nat) (s : String) : String :=
  s ++ String.ofList (List.replicate (width - s.length) ' ')

/-- A text with blanks in front of it up to a width. -/
def padLeft (width : Nat) (s : String) : String :=
  String.ofList (List.replicate (width - s.length) ' ') ++ s

/-- The widest list of ports or prefixes. -/
def listWidth : Nat := 18

/-- The widest list of message types. -/
def icmpWidth : Nat := 6

/-- The widest comment. -/
def commentWidth : Nat := 32

/-- Items with commas between them, or a dash where there are none. -/
def joined (items : List String) : String :=
  if items.isEmpty then "-" else ",".intercalate items

/-- Three columns and what follows them. -/
def defaultsLine (input forward output rest : String) : String :=
  padRight 8 input ++ " " ++ padRight 8 forward ++ " " ++ padRight 8 output ++ " " ++ rest

/-- The defaults below their headings. -/
def defaultsTable (d : Defaults) : List String :=
  [defaultsLine "INPUT" "FORWARD" "OUTPUT" "LOG PREFIX",
    defaultsLine (Named.name d.input) (Named.name d.forward) (Named.name d.output) d.logPrefix]

/-- The columns of a line about a rule. -/
structure RuleLine where
  id : String
  chain : String
  protocol : String
  action : String
  inInterface : String
  outInterface : String
  ports : String
  sources : String
  destinations : String
  icmpTypes : String
  enabled : String
  comment : String

/-- The columns in one line. -/
def RuleLine.text (l : RuleLine) : String :=
  padLeft 5 l.id ++ "  " ++
    " ".intercalate
      [padRight 8 l.chain, padRight 6 l.protocol, padRight 7 l.action, padRight 8 l.inInterface,
        padRight 8 l.outInterface, padRight 18 l.ports, padRight 18 l.sources,
        padRight 18 l.destinations, padRight 6 l.icmpTypes, padRight 3 l.enabled, l.comment]

/-- The headings of the columns. -/
def RuleLine.headings : RuleLine where
  id := "ID"
  chain := "CHAIN"
  protocol := "PROTO"
  action := "ACTION"
  inInterface := "IN"
  outInterface := "OUT"
  ports := "PORTS"
  sources := "SRC"
  destinations := "DST"
  icmpTypes := "ICMP"
  enabled := "ON"
  comment := "COMMENT"

/-- The columns of a rule. -/
def RuleLine.ofRule (r : Rule) : RuleLine where
  id := toString r.id.toInt
  chain := Named.name r.chain
  protocol := Named.name r.protocol
  action := Named.name r.action
  inInterface := r.inInterface.getD "-"
  outInterface := r.outInterface.getD "-"
  ports := Text.clip listWidth (joined (r.ports.map fun p => toString p.toNat))
  sources := Text.clip listWidth (joined r.sources)
  destinations := Text.clip listWidth (joined r.destinations)
  icmpTypes := Text.clip icmpWidth (joined (r.icmpTypes.map fun t => toString t.toNat))
  enabled := if r.enabled then "yes" else "no"
  comment := Text.clip commentWidth (r.comment.getD "")

/-- The rules below their headings, or that there are none. -/
def rulesTable (rules : List Rule) : List String :=
  if rules.isEmpty then ["No rules."]
  else RuleLine.headings.text :: rules.map fun r => (RuleLine.ofRule r).text

/-- The line of an event. -/
def journalLine (e : Event) : String :=
  e.timestamp.plainText ++ "  " ++
    " ".intercalate
      [padRight 8 e.actor, padRight 16 (Named.name e.kind), padRight 10 e.object, e.details.compact]

/-- The events, a line each. -/
def journalTable (events : List Event) : List String :=
  events.map journalLine

end CommandLine
end PacketPolicy
