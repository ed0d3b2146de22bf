import PacketPolicy.Text.Folded

namespace PacketPolicy

/-!
# Advice about a loader that failed

What to tell a user whose script the packet filter did not take.  The known causes are
looked for in a fixed order by phrases of the loader's message, in letters of either case.

* `Advice.about` -- the advice about a message.
-/

/-- An explanation and what can be done. -/
structure Advice where
  explanation : String
  suggestions : List String
deriving DecidableEq, Repr, Inhabited

/-- A known cause: any of its phrases tells it. -/
structure KnownCause where
  phrases : List String
  advice : Advice

/-- The known causes in the order in which they are looked for. -/
def knownCauses : List KnownCause :=
  [{ phrases := ["operation not permitted", "permission denied"]
     advice :=
      { explanation := "nft lacks the privileges to load a ruleset"
        suggestions :=
          ["Run apply as root, or set nft_command to \"sudo nft\"",
            "Loading rules needs CAP_NET_ADMIN"] } },
    { phrases := ["could not process rule", "syntax error", "unexpected"]
      advice :=
      { explanation := "nft rejected the generated script"
        suggestions :=
          ["Inspect the script with: netfence render",
            "A rule naming an interface that is absent on this host cannot load",
            "Rules with several source or destination prefixes never match"] } },
    { phrases := ["command not found", "no such file"]
      advice :=
      { explanation := "The nft program could not be found"
        suggestions :=
          ["Install the nftables package for your distribution",
            "Or point NETFENCE_NFT_COMMAND at the nft binary",
            "Check the configured command with: netfence check"] } },
    { phrases := ["netlink", "nf_tables"]
      advice :=
      { explanation := "The kernel's nf_tables interface did not respond"
        suggestions :=
          ["Make sure the module is loaded: modprobe nf_tables",
            "Containers may need --cap-add NET_ADMIN"] } },
    { phrases := ["resource busy"]
      advice :=
      { explanation := "Another program is changing the ruleset"
        suggestions := ["Stop other firewall managers (firewalld, ufw) before applying"] } }]

/-- What can be done about an unknown cause. -/
def generalSuggestions : List String :=
  ["Run with -v for the full nft output", "Check that nft works at all: nft list ruleset"]

/-- The advice about a message: that of the first known cause with a phrase in it, or the
message itself with what can always be done. -/
def Advice.about (message : String) : Advice :=
  match knownCauses.find? fun cause => cause.phrases.any (Text.mentions message) with
  | some cause => cause.advice
  | none => { explanation := "nft failed: " ++ message, suggestions := generalSuggestions }

end PacketPolicy
