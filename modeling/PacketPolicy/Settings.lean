import PacketPolicy.Json.Decode
import PacketPolicy.Text.Blank
import PacketPolicy.Time.Span

namespace PacketPolicy

/-!
# Settings

Where the policy is kept and how commands behave.  A settings document may leave out any
field; variables of the environment override some of them.

* `Settings.standard` -- what holds without a document;
* `Settings.override` -- the settings under an environment;
* `Settings.budget`, `Settings.patience` -- the times that follow from the settings.
-/

/-- Where the policy is kept and how commands behave. -/
structure Settings where
  /-- The file of the ledger. -/
  ledger : String
  /-- The file of the change lock. -/
  lock : String
  /-- The seconds that a transaction may take. -/
  budgetSeconds : UInt64
  /-- The seconds to wait for the lock; without a number there is no limit. -/
  patienceSeconds : Option UInt64
  /-- The command line that reaches the packet filter. -/
  loader : String
  /-- Whether the interfaces that rules name have to exist. -/
  checkInterfaces : Bool
deriving DecidableEq, Repr, Inhabited

namespace Settings

/-- What holds where a settings document says nothing. -/
def standard : Settings where
  ledger := "/etc/netfence/firewall.db"
  lock := "/var/lock/netfence.lock"
  budgetSeconds := 5
  patienceSeconds := none
  loader := "nft"
  checkInterfaces := true

open Json Reader Record in
/-- The fields of a settings document. -/
def record : Record Settings :=
  Settings.mk <$> defaulted "db_path" path standard.ledger
    <*> defaulted "lock_path" path standard.lock
    <*> defaulted "tx_timeout_secs" word64 standard.budgetSeconds
    <*> defaulted "lock_timeout_secs" (optional word64) standard.patienceSeconds
    <*> defaulted "nft_command" text standard.loader
    <*> defaulted "check_interfaces" boolean standard.checkInterfaces

/-- Reads a settings document. -/
def reader : Json.Reader Settings :=
  record.reader "struct AppConfig"

/-- The settings as an object. -/
def value (s : Settings) : Json.Value :=
  .object
    [("db_path", .string s.ledger), ("lock_path", .string s.lock),
      ("tx_timeout_secs", .ofNat s.budgetSeconds.toNat),
      ("lock_timeout_secs",
        match s.patienceSeconds with
        | some n => .ofNat n.toNat
        | none => .null),
      ("nft_command", .string s.loader), ("check_interfaces", .bool s.checkInterfaces)]

/-- The longest time that a transaction may ever take, in seconds. -/
def budgetLimit : Nat := 3600

/-- The time that a transaction may take. -/
def budget (s : Settings) : Span :=
  .ofSeconds (min s.budgetSeconds.toNat budgetLimit)

/-- The time to wait for the lock. -/
def patience (s : Settings) : Option Span :=
  s.patienceSeconds.map fun n => .ofSeconds n.toNat

/-- The variables of an environment. -/
abbrev Environment := List (String × String)

/-- The value of a variable, unless it is blank. -/
def nonBlank? (env : Environment) (name : String) : Option String :=
  ((env.find? fun v => v.1 == name).map Prod.snd).filter fun s => !Text.isBlankText s

/-- The settings under an environment. -/
def override (env : Environment) (s : Settings) : Settings :=
  { s with
    ledger := (nonBlank? env "NETFENCE_DB").getD s.ledger
    lock := (nonBlank? env "NETFENCE_LOCK").getD s.lock
    loader := (nonBlank? env "NETFENCE_NFT_COMMAND").getD s.loader }

end Settings
end PacketPolicy
