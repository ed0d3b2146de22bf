import PacketPolicy.Proofs.CommandLine.Tables
import PacketPolicy.Proofs.Host.Files
import PacketPolicy.Proofs.Session.Timely
import PacketPolicy.Proofs.Session.Transfer

/-!
# Commands that show rules

What the command line shows of a policy that clients have made.

* `seated_reseat`, `seated_openLock`, `seated_withSite` -- a client that comes back to a ledger
  finds it as it was left;
* `perform_rules`, `perform_defaults` -- what a client that is in time reads;
* `carryOut_list`, `carryOut_dryRun` -- what is printed then;
* `tables_show_entries` -- the lines of it;
* `comments_add_lines` -- they can be more than one for each rule.
-/

namespace PacketPolicy
namespace Machine

variable {m m' : Machine} {seat : Seat} {name path : String} {l : Ledger} {p : Host.Location}
  {c : OpenClient} {s s' : Site}

/-! ## What clients leave behind -/

/-- Whoever has put a ledger into its seat finds it there. -/
theorem seated_reseat (h : m.seated name seat = .ok l) (new : Ledger) :
    (m.reseat seat new).seated name seat = .ok new := by
  cases seat with
  | file p =>
      have hp : p ≠ [] := by
        rintro rfl
        cases h
      unfold seated reseat
      dsimp only
      rw [Host.Tree.find?_put _ hp, if_pos rfl]
      rfl
  | own number => simp [seated, reseat]
  | shared key => simp [seated, reseat]

/-- Opening the file of a lock leaves the ledgers where they are; where there was no file of a
ledger, a file without bytes holds the same ledger. -/
theorem seated_openLock (h : m.openLock path = .ok (p, m')) :
    m'.seated name seat = m.seated name seat := by
  unfold openLock at h
  cases hopen : m.files.openable m.directory path Host.privateFile (.bytes .empty) with
  | error fault =>
      rw [hopen] at h
      cases h
  | ok opened =>
      obtain ⟨q, files⟩ := opened
      rw [hopen] at h
      cases h
      cases seat with
      | file r =>
          unfold seated
          dsimp only
          rw [Host.Tree.find?_openable hopen]
          cases hfind : m.files.find? r with
          | some n => rfl
          | none =>
              rw [Option.none_or]
              by_cases hplace : r = p
              · rw [if_pos hplace]
                rfl
              · rw [if_neg hplace]
      | own number => rfl
      | shared key => rfl

/-- A site has the ledger that is in the seat of the client, and nothing is said of its clock. -/
theorem seated_of_site (h : m.site c = .ok s) :
    m.seated c.ledgerName c.seat = .ok s.ledger ∧ s.clock = [] := by
  obtain ⟨ledger, hseated, rfl⟩ := map_eq_ok_iff.mp h
  exact ⟨hseated, rfl⟩

theorem exists_site (h : m.seated c.ledgerName c.seat = .ok l) :
    ∃ s, m.site c = .ok s ∧ s.ledger = l :=
  ⟨_, map_eq_ok_iff.mpr ⟨l, h, rfl⟩, rfl⟩

/-- A client finds the ledger as it left it. -/
theorem seated_withSite (h : m.site c = .ok s) (hledger : s'.ledger = s.ledger) :
    (m.withSite c s').seated c.ledgerName c.seat = .ok s.ledger := by
  have hseated := (seated_of_site h).1
  unfold withSite
  generalize hput : { (if c.mayWrite then m.reseat c.seat s'.ledger else m) with
    handOffs := s'.handOffs } = put
  have hafter : put.seated c.ledgerName c.seat = .ok s.ledger := by
    rw [← hput, hledger]
    show (if c.mayWrite then m.reseat c.seat s.ledger else m).seated _ _ = _
    split
    · exact seated_reseat hseated _
    · exact hseated
  dsimp only
  split
  · cases hopen : put.openLock c.client.lock.path with
    | error fault => exact hafter
    | ok opened => exact (seated_openLock hopen).trans hafter
  · exact hafter

end Machine

namespace CommandLine

open Client

variable {m : Machine} {o : OpenClient} {s : Site} {p : Policy}

/-- A client of a machine that has time for its transactions is in time there. -/
theorem inTime_of_site (hsite : m.site o = .ok s) (hbudget : o.client.budget ≠ .zero) :
    o.client.InTime s :=
  ⟨hbudget, by simp [(Machine.seated_of_site hsite).2]⟩

/-- What a client that is in time reads is what the policy says. -/
theorem perform_rules (hsite : m.site o = .ok s) (hbudget : o.client.budget ≠ .zero)
    (hp : s.ledger.Holds p) (onlyEnabled : Bool) :
    (m.perform o (o.client.rules onlyEnabled)).1 = .ok (p.selected onlyEnabled) := by
  unfold Machine.perform
  rw [hsite]
  dsimp only
  rw [run_rules onlyEnabled (inTime_of_site hsite hbudget) hp]

theorem perform_defaults (hsite : m.site o = .ok s) (hbudget : o.client.budget ≠ .zero)
    (hp : s.ledger.Holds p) :
    m.perform o o.client.defaults = (.ok p.defaults, m.withSite o s.later) := by
  unfold Machine.perform
  rw [hsite]
  dsimp only
  rw [run_defaults (inTime_of_site hsite hbudget) hp]

theorem shown_of_ok {α : Type} {view : α → String} {r : Except Failure α × Machine} {a : α}
    (h : r.1 = .ok a) : (shown view r).1 = .ofOutput (view a) := by
  obtain ⟨answer, after⟩ := r
  obtain rfl : answer = .ok a := h
  rfl

/-- What is shown of the rules that are asked for. -/
theorem carryOut_list (hsite : m.site o = .ok s) (hbudget : o.client.budget ≠ .zero)
    (hp : s.ledger.Holds p) (onlyEnabled : Bool) :
    (carryOut m o (.list onlyEnabled)).1 =
      .ofOutput (lines (rulesTable (p.selected onlyEnabled))) := by
  show (shown _ (m.perform o (o.client.rules onlyEnabled))).1 = _
  rw [shown_of_ok (perform_rules hsite hbudget hp onlyEnabled)]

/-- What is shown before a policy is applied: the defaults, and the rules that count. -/
theorem carryOut_dryRun (hsite : m.site o = .ok s) (hbudget : o.client.budget ≠ .zero)
    (hp : s.ledger.Holds p) :
    (carryOut m o .dryRun).1 =
      .ofOutput (lines (defaultsTable p.defaults) ++ line "" ++
        lines (rulesTable (p.selected true))) := by
  -- the rules are read from the ledger that the defaults have been read from
  obtain ⟨next, hnext, hledger⟩ := Machine.exists_site
    (Machine.seated_withSite hsite (rfl : s.later.ledger = s.ledger))
  have hrules := perform_rules hnext hbudget (hledger ▸ hp) true
  unfold carryOut
  rw [perform_defaults hsite hbudget hp]
  dsimp only
  generalize (m.withSite o s.later).perform o (o.client.rules true) = r at hrules
  obtain ⟨answer, after⟩ := r
  obtain rfl : answer = _ := hrules
  rfl

/-- Whatever clients have made of a policy, its rules are listed one after another in the order of
their numbers, below one line of headings.  The columns of a rule stand on one line, its number
first, and have nothing in them but printable ASCII; only the comment comes as it is.  So there is
one line for each rule, unless the shown part of a comment has a line feed in it. -/
theorem tables_show_entries (hsite : m.site o = .ok s) (hs : s.Reachable)
    (hbudget : o.client.budget ≠ .zero) :
    ∃ p, s.ledger.Holds p ∧
      (∀ onlyEnabled, ∃ out, (carryOut m o (.list onlyEnabled)).1 = .ofOutput out ∧
        linesOf out = tableLines (p.selected onlyEnabled)) ∧
      (∃ out, (carryOut m o .dryRun).1 = .ofOutput out ∧
        linesOf out = defaultsTable p.defaults ++ "" :: tableLines (p.selected true)) ∧
      (∀ onlyEnabled, (p.selected onlyEnabled).Pairwise (fun r r' => r.id < r'.id) ∧
        (p.selected onlyEnabled ≠ [] →
          ((tableLines (p.selected onlyEnabled)).length = (p.selected onlyEnabled).length + 1 ↔
            ∀ r ∈ p.selected onlyEnabled, '\n' ∉ (shownComment r).toList))) ∧
      ∀ r ∈ p.rules, Plain (RuleLine.ofRule r).row := by
  obtain ⟨p, hp, hadmissible⟩ := hs.kept
  obtain ⟨highest, -, hnumbered⟩ := hp.eq_withTables
  have hselected (onlyEnabled : Bool) : ∀ r ∈ p.selected onlyEnabled, r.Admissible := fun r hr =>
    hadmissible.rules r (Ledger.PolicyTables.mem_of_mem_selected hr)
  refine ⟨p, hp, fun onlyEnabled => ⟨_, carryOut_list hsite hbudget hp onlyEnabled, ?_⟩,
    ⟨_, carryOut_dryRun hsite hbudget hp, ?_⟩, fun onlyEnabled => ⟨?_, length_tableLines_iff⟩,
    fun r hr => plain_row (hadmissible.rules r hr)⟩
  · exact linesOf_rulesTable (hselected onlyEnabled)
  · rw [String.append_assoc, linesOf_lines_append, linesOf_line_append,
      flatMap_defaultsTable hadmissible.defaults, linesOf_rulesTable (hselected true)]
    rfl
  · exact Ledger.PolicyTables.pairwise_selected onlyEnabled hnumbered.ascending

/-- A comment that goes on like another rule on a second line. -/
def twoLineComment : String := "ssh\n    2  forward  all    drop"

def commentedDraft : Rule.Draft :=
  { Rule.Draft.blank with comment := some twoLineComment }

/-- A machine with a ledger in memory, to which a rule with this comment has been added. -/
def commentedMachine : Machine :=
  { (default : Machine) with memory := [(.own 0, (ruledSite commentedDraft).ledger)] }

/-- The client of this ledger. -/
def ledgerClient : OpenClient where
  client := rootClient
  seat := .own 0
  ledgerName := ":memory:"
  mayWrite := true

theorem commentedMachine_site : ∃ s, commentedMachine.site ledgerClient = .ok s ∧ s.Reachable :=
  ⟨_, rfl, .surroundings (ruledSite_reachable commentedDraft) rfl⟩

/-- The rule as it is stored. -/
def commentedRule : Rule :=
  { (default : Rule) with id := 1, enabled := true, comment := some twoLineComment }

theorem rules_of_commentedMachine (hsite : commentedMachine.site ledgerClient = .ok s)
    (hp : s.ledger.Holds p) : p.rules = [commentedRule] := by
  have hstored : (commentedMachine.perform ledgerClient (rootClient.rules false)).1.toOption =
      some [commentedRule] := by
    decide +kernel
  have hrules := perform_rules hsite (by decide) hp false
  rw [show ledgerClient.client = rootClient from rfl] at hrules
  rw [hrules] at hstored
  exact Option.some.inj hstored

/-- The table of one rule has three lines. -/
theorem commentedMachine_shown :
    ∃ s p out, commentedMachine.site ledgerClient = .ok s ∧ s.Reachable ∧
      ledgerClient.client.budget ≠ .zero ∧ s.ledger.Holds p ∧
      (carryOut commentedMachine ledgerClient (.list false)).1 = .ofOutput out ∧
      linesOf out = RuleLine.headings.text :: entry commentedRule ∧
      (entry commentedRule).length = 2 := by
  obtain ⟨s, hsite, hs⟩ := commentedMachine_site
  have hbudget : ledgerClient.client.budget ≠ .zero := by decide
  obtain ⟨p, hp, hlist, -⟩ := tables_show_entries hsite hs hbudget
  obtain ⟨out, hout, hlines⟩ := hlist false
  refine ⟨s, p, out, hsite, hs, hbudget, hp, hout, ?_, by decide +kernel⟩
  rw [hlines, show p.selected false = p.rules from rfl, rules_of_commentedMachine hsite hp]
  exact congrArg _ (List.flatMap_singleton entry commentedRule)

/-- A table can have more lines than one for each rule. -/
theorem comments_add_lines :
    ¬ ∀ (m : Machine) (o : OpenClient) (s : Site) (p : Policy) (out : String),
      m.site o = .ok s → s.Reachable → o.client.budget ≠ .zero → s.ledger.Holds p →
      p.rules ≠ [] → (carryOut m o (.list false)).1 = .ofOutput out →
      (linesOf out).length = p.rules.length + 1 := by
  intro hone
  obtain ⟨s, hsite, hs⟩ := commentedMachine_site
  obtain ⟨p, hp, hadmissible⟩ := hs.kept
  have hrules := rules_of_commentedMachine hsite hp
  have hbudget : ledgerClient.client.budget ≠ .zero := by decide
  have hlength := hone _ _ s p _ hsite hs hbudget hp (by simp [hrules])
    (carryOut_list hsite hbudget hp false)
  change (linesOf (lines (rulesTable p.rules))).length = _ at hlength
  rw [linesOf_rulesTable hadmissible.rules, length_tableLines_iff (by simp [hrules])] at hlength
  exact hlength commentedRule (by simp [hrules]) (by decide +kernel)

end CommandLine
end PacketPolicy
