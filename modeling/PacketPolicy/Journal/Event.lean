import PacketPolicy.Json.Decode
import PacketPolicy.Time.Timestamp

namespace PacketPolicy

/-!
# Events of the journal

The journal has an event for every change of the policy: when it happened, as whom, what
was done to what, and details in the form of a document.

* `Event` -- an entry of the journal; `Event.Kind` -- what was done;
* `Event.record`, `Event.value` -- an event as a document;
* `ruleObject`, `defaultsObject`, `rulesetObject` -- what events are about.
-/

/-- What was done. -/
inductive Event.Kind where
  | addRule
  | deleteRule
  | setDefaults
  | importSnapshot
  | applyRules
deriving DecidableEq, Repr, Inhabited

instance : Named Event.Kind where
  all := [.addRule, .deleteRule, .setDefaults, .importSnapshot, .applyRules]
  name
    | .addRule => "add_rule"
    | .deleteRule => "delete_rule"
    | .setDefaults => "set_defaults"
    | .importSnapshot => "import_snapshot"
    | .applyRules => "apply_rules"
  mem_all a := by cases a <;> simp
  name_injective a b := by cases a <;> cases b <;> simp

/-- An entry of the journal. -/
structure Event where
  timestamp : Timestamp
  /-- The user as whom it was done. -/
  actor : String
  kind : Event.Kind
  /-- What it was done to. -/
  object : String
  details : Json.Value
deriving Inhabited, Repr

/-- What an event about one rule is about. -/
def ruleObject (id : Int64) : String :=
  "rule:" ++ toString id.toInt

/-- What an event about the defaults is about. -/
def defaultsObject : String := "defaults"

/-- What an event about the whole policy is about. -/
def rulesetObject : String := "ruleset"

namespace Event

open Json Reader Record in
/-- The fields of an event; none may be left out. -/
def record : Record Event :=
  Event.mk <$> required "timestamp" Reader.timestamp <*> required "actor" Reader.text
    <*> required "event_type" named <*> required "object" Reader.text
    <*> required "details" (anyValue 1)

/-- Reads an event. -/
def reader : Json.Reader Event :=
  record.reader "struct AuditEvent"

/-- The event as an object. -/
def value (e : Event) : Json.Value :=
  .object
    [("timestamp", .string e.timestamp.text), ("actor", .string e.actor),
      ("event_type", .string (Named.name e.kind)), ("object", .string e.object),
      ("details", e.details)]

end Event
end PacketPolicy
