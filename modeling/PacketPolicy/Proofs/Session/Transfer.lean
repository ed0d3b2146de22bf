import PacketPolicy.Proofs.Ledger.Numbers
import PacketPolicy.Proofs.Policy.Contents
import PacketPolicy.Proofs.Policy.Documents
import PacketPolicy.Proofs.Session.Changes
import PacketPolicy.Proofs.Session.Reachable
import PacketPolicy.Proofs.Session.Timely

/-!
# Carrying a policy from one site to another

A policy that is exported at one site and imported at another is the same policy there, apart
from the numbers of its rules, whatever the other site held before.

* `Client.Ready`, `Client.Knows` -- what a client needs in order to import a policy;
* `admitPolicy_draft` -- what has been accepted once is accepted again;
* `run_importPolicy_noted`, `run_importPolicy_fresh`, `run_importPolicy` -- an import that has enough
  numbers left;
* `import_reproduces_export` -- the document of one site's policy, imported at another site;
* `import_needs_numbers` -- where too few numbers are left, it cannot be imported.
-/

namespace PacketPolicy

/-- Nothing keeps the client from changing the site in any way: it acts as an admin, nobody holds
the lock, and there is time enough. -/
structure Client.Ready (c : Client) (s : Site) : Prop where
  inTime : c.InTime s
  admin : Ledger.roleOf c.actor s.ledger = .ok (some (Named.name Role.admin))
  mayWrite : s.mayWrite = true
  openable : s.lock.fault = none
  free : s.lock.held = false

/-- The interfaces that the rule names exist, as far as the client looks. -/
def Client.Knows (c : Client) (r : Rule) : Prop :=
  ∀ listing ∈ c.interfaces, ∀ name, r.inInterface = some name ∨ r.outInterface = some name →
    ∃ present, listing = .ok present ∧ name ∈ present

/-- There are numbers left for so many rules. -/
def Ledger.HasNumbers (l : Ledger) (count : Nat) : Prop :=
  ∀ rules ∈ l.rules, rules.greatest + count ≤ Ledger.greatestId

namespace Client

open Operation

variable {c : Client} {s : Site} {p : Policy}

/-! ## Accepting again -/

theorem admitInterface_of_present {field : Field} {name : Option String}
    (h : ∀ listing ∈ c.interfaces, ∀ n ∈ name, ∃ present, listing = .ok present ∧ n ∈ present) :
    c.admitInterface field name = .ok () := by
  cases name with
  | none => rfl
  | some n =>
      unfold admitInterface
      cases hlisting : c.interfaces with
      | none => rfl
      | some listing =>
          obtain ⟨present, rfl, hn⟩ := h listing hlisting n rfl
          simp [hn]

theorem admitRule_draft {r : Rule} (hr : r.Admissible) (hknown : c.Knows r) :
    c.admitRule r.draft = .ok r.contents := by
  have hin : c.admitInterface .inInterface r.contents.inInterface = .ok () :=
    admitInterface_of_present fun listing hlisting n hn => hknown listing hlisting n (Or.inl hn)
  have hout : c.admitInterface .outInterface r.contents.outInterface = .ok () :=
    admitInterface_of_present fun listing hlisting n hn => hknown listing hlisting n (Or.inr hn)
  unfold admitRule
  rw [Rule.accept_draft hr]
  show (c.admitInterface .inInterface r.contents.inInterface >>= fun _ =>
    c.admitInterface .outInterface r.contents.outInterface >>= fun _ => .ok r.contents) = _
  rw [hin, hout]
  rfl

theorem admitRules_drafts {rules : List Rule} (hrules : ∀ r ∈ rules, r.Admissible)
    (hknown : ∀ r ∈ rules, c.Knows r) (place : Nat) :
    c.admitRules place (rules.map Rule.draft) = .ok (rules.map Rule.contents) := by
  induction rules generalizing place with
  | nil => rfl
  | cons r rest ih =>
      obtain ⟨hr, hrest⟩ := List.forall_mem_cons.mp hrules
      obtain ⟨hfirst, hothers⟩ := List.forall_mem_cons.mp hknown
      simp only [List.map_cons, admitRules]
      rw [admitRule_draft hr hfirst, ih hrest hothers]
      rfl

/-- A policy that has been accepted is accepted again, without its numbers. -/
theorem admitPolicy_draft (hp : p.Admissible) (hknown : ∀ r ∈ p.rules, c.Knows r) :
    c.admitPolicy p.draft = .ok { p with rules := p.rules.map Rule.contents } := by
  unfold admitPolicy Policy.draft
  dsimp only
  rw [Defaults.accept_draft hp.defaults, admitRules_drafts hp.rules hknown]
  rfl

/-! ## Importing -/

/-- The site after an import, apart from what the import does to the ledger. -/
def imported (s : Site) : Site :=
  { s.later.later.later with lock := { s.lock with held := false, present := true } }

theorem Ready.imported {l : Ledger} (h : c.Ready s) (husers : l.users = s.ledger.users) :
    c.Ready { imported s with ledger := l } where
  inTime := h.inTime.later.later.later.of_clock fun _ hlooks => hlooks
  admin := by
    rw [← h.admin]
    show Ledger.roleOf c.actor l = _
    unfold Ledger.roleOf
    rw [husers]
  mayWrite := h.mayWrite
  openable := h.openable
  free := rfl

/-- Once a policy is accepted, an import is no more than a replacement under the lock. -/
theorem run_importPolicy_eq {d : Policy.Draft} {q : Policy} (h : c.Ready s)
    (haccepted : c.admitPolicy d = .ok q) :
    Operation.run (c.importPolicy d) s =
      ((Operation.run (c.replacement q) s.later.locked).1,
        Lockable.release c.lock (Operation.run (c.replacement q) s.later.locked).2) := by
  have hmay : Operation.run (c.authorize .importPolicies) s = (.ok (), s.later) :=
    run_authorize h.inTime h.admin rfl
  unfold Client.importPolicy
  rw [run_bind_ok hmay, haccepted]
  -- what is left of the import after the checks is its part under the lock
  show Operation.run (underLock c.lock (c.replacement q)) s.later = _
  rw [run_underLock, Site.acquire_free (s := s.later) h.openable h.free]

/-- An import puts the rules that were accepted in the place of all others, under numbers that have
not been given yet; what is left of it then is its entry of the journal. -/
theorem run_importPolicy_noted {d : Policy.Draft} {q : Policy} {highest : Int} (h : c.Ready s)
    (htables : s.ledger.tables? = some (.ofPolicy p highest)) (hnumbered : p.Numbered highest)
    (haccepted : c.admitPolicy d = .ok q)
    (hroom : highest + q.rules.length ≤ Ledger.greatestId) :
    ∃ ids : List Int64,
      ids.length = q.rules.length ∧ (∀ id ∈ ids, highest < id.toInt) ∧
      Policy.Numbered { q with rules := List.zipWith Rule.withId q.rules ids }
        (highest + q.rules.length) ∧
      Operation.run (c.importPolicy d) s =
        (.ok q.rules.length,
          Lockable.release c.lock
            (Operation.run
              (c.note .importSnapshot rulesetObject (.ofMembers [("rules", .ofNat ids.length)]))
              { s.later.locked.later with
                ledger := s.ledger.withTables (.ofPolicy
                  { q with rules := List.zipWith Rule.withId q.rules ids }
                  (highest + q.rules.length)) }).2) := by
  have hq := admissible_of_admitPolicy c haccepted
  obtain ⟨ids, hlength, habove, hafter, hyields⟩ :=
    Ledger.PolicyTables.yields_replaceAll_ofPolicy htables hnumbered q.defaults
      (fun r hr hzero => (hq.rules r hr).ports 0 hzero rfl) hroom
  have htime : c.InTime s.later.locked := h.inTime.later.of_clock fun _ hlooks => hlooks
  -- the lock that has been taken is no part of what the transaction sees
  have hreplaced := run_transact (t := fun _ => Ledger.replaceAll q.defaults q.rules) htime
    h.mayWrite hyields
  obtain ⟨journal, hnoted⟩ := run_note (c := c)
    (s := { s.later.locked.later with
      ledger := s.ledger.withTables (.ofPolicy
        { q with rules := List.zipWith Rule.withId q.rules ids } (highest + q.rules.length)) })
    h.mayWrite .importSnapshot rulesetObject (.ofMembers [("rules", .ofNat ids.length)])
  refine ⟨ids, hlength, habove, hafter, ?_⟩
  rw [run_importPolicy_eq h haccepted]
  unfold replacement
  rw [run_bind_ok hreplaced, run_bind_ok hnoted, hnoted, hlength]
  rfl

/-- An import leaves everything else but the journal as it is. -/
theorem run_importPolicy_fresh {d : Policy.Draft} {q : Policy} {highest : Int} (h : c.Ready s)
    (htables : s.ledger.tables? = some (.ofPolicy p highest)) (hnumbered : p.Numbered highest)
    (haccepted : c.admitPolicy d = .ok q)
    (hroom : highest + q.rules.length ≤ Ledger.greatestId) :
    ∃ (ids : List Int64) (journal : Option Ledger.JournalTable),
      ids.length = q.rules.length ∧ (∀ id ∈ ids, highest < id.toInt) ∧
      Policy.Numbered { q with rules := List.zipWith Rule.withId q.rules ids }
        (highest + q.rules.length) ∧
      Operation.run (c.importPolicy d) s =
        (.ok q.rules.length,
          { imported s with
            ledger :=
              { s.ledger.withTables (.ofPolicy
                  { q with rules := List.zipWith Rule.withId q.rules ids }
                  (highest + q.rules.length)) with
                journal } }) := by
  obtain ⟨ids, hlength, habove, hafter, hrun⟩ :=
    run_importPolicy_noted h htables hnumbered haccepted hroom
  obtain ⟨journal, hnoted⟩ := run_note (c := c)
    (s := { s.later.locked.later with
      ledger := s.ledger.withTables (.ofPolicy
        { q with rules := List.zipWith Rule.withId q.rules ids } (highest + q.rules.length)) })
    h.mayWrite .importSnapshot rulesetObject (.ofMembers [("rules", .ofNat ids.length)])
  refine ⟨ids, journal, hlength, habove, hafter, ?_⟩
  rw [hrun, hnoted]
  rfl

/-- How an import ends, where it does not matter that the numbers are new. -/
theorem run_importPolicy {d : Policy.Draft} {q : Policy} {highest : Int} (h : c.Ready s)
    (htables : s.ledger.tables? = some (.ofPolicy p highest)) (hnumbered : p.Numbered highest)
    (haccepted : c.admitPolicy d = .ok q)
    (hroom : highest + q.rules.length ≤ Ledger.greatestId) :
    ∃ (ids : List Int64) (journal : Option Ledger.JournalTable),
      ids.length = q.rules.length ∧
      Policy.Numbered { q with rules := List.zipWith Rule.withId q.rules ids }
        (highest + q.rules.length) ∧
      Operation.run (c.importPolicy d) s =
        (.ok q.rules.length,
          { imported s with
            ledger :=
              { s.ledger.withTables (.ofPolicy
                  { q with rules := List.zipWith Rule.withId q.rules ids }
                  (highest + q.rules.length)) with
                journal } }) := by
  obtain ⟨ids, journal, hlength, -, hafter, hrun⟩ :=
    run_importPolicy_fresh h htables hnumbered haccepted hroom
  exact ⟨ids, journal, hlength, hafter, hrun⟩

/-- Without a number left in the journal, it is not told there. -/
theorem journal_importPolicy_spent {d : Policy.Draft} {q : Policy} {highest : Int} (h : c.Ready s)
    (htables : s.ledger.tables? = some (.ofPolicy p highest)) (hnumbered : p.Numbered highest)
    (haccepted : c.admitPolicy d = .ok q)
    (hroom : highest + q.rules.length ≤ Ledger.greatestId) (hspent : ¬ s.ledger.HasEntry) :
    (Operation.run (c.importPolicy d) s).2.ledger.journal = s.ledger.journal := by
  obtain ⟨ids, -, -, -, hrun⟩ := run_importPolicy_noted h htables hnumbered haccepted hroom
  have hnoted := run_note_full (c := c)
    (s := { s.later.locked.later with
      ledger := s.ledger.withTables (.ofPolicy
        { q with rules := List.zipWith Rule.withId q.rules ids } (highest + q.rules.length)) })
    (h.inTime.later.later.of_clock fun _ hlooks => hlooks) h.mayWrite hspent .importSnapshot
    rulesetObject (.ofMembers [("rules", .ofNat ids.length)])
  rw [hrun, hnoted]
  rfl

/-- Where too few numbers are left, the import fails. -/
theorem run_importPolicy_fault {d : Policy.Draft} {q : Policy} {highest : Int} (h : c.Ready s)
    (htables : s.ledger.tables? = some (.ofPolicy p highest)) (hnumbered : p.Numbered highest)
    (haccepted : c.admitPolicy d = .ok q)
    (hroom : ¬ highest + q.rules.length ≤ Ledger.greatestId) :
    ∃ e, (Operation.run (c.importPolicy d) s).1 = .error e := by
  obtain ⟨fault, hyields⟩ :=
    Ledger.PolicyTables.yields_replaceAll_ofPolicy_fault htables hnumbered q.defaults hroom
  have htime : c.InTime s.later.locked := h.inTime.later.of_clock fun _ hlooks => hlooks
  have hreplaced := run_transact_fault (t := fun _ => Ledger.replaceAll q.defaults q.rules) htime
    h.mayWrite hyields
  refine ⟨.ledger fault, ?_⟩
  rw [run_importPolicy_eq h haccepted]
  unfold replacement
  rw [run_bind_error hreplaced]

end Client

theorem Ledger.hasNumbers_iff {l : Ledger} {p : Policy} {highest : Int}
    (htables : l.tables? = some (.ofPolicy p highest)) (hnumbered : p.Numbered highest)
    (count : Nat) : l.HasNumbers count ↔ highest + count ≤ Ledger.greatestId := by
  have hrules : l.rules = some (PolicyTables.ofPolicy p highest).rules := by
    rw [Ledger.eq_withTables_of_tables? htables]
    rfl
  unfold HasNumbers
  rw [hrules]
  simp [Ledger.PolicyTables.greatest_ofPolicy hnumbered]

/-- Two policies with the same defaults and the same rules apart from the numbers make the same
script. -/
theorem script_selected_of_contents {p q : Policy}
    (hp : p.rules.Pairwise fun a b => a.id < b.id)
    (hq : q.rules.Pairwise fun a b => a.id < b.id)
    (hdefaults : q.defaults = p.defaults)
    (hcontents : q.rules.map Rule.contents = p.rules.map Rule.contents) :
    script q.defaults (q.selected true) = script p.defaults (p.selected true) := by
  have henabled : ∀ r : Rule, r.contents.enabled = r.enabled := fun _ => rfl
  rw [hdefaults]
  refine script_of_contents _ (hq.filter _) (hp.filter _) ?_
  show (q.rules.filter Rule.enabled).map Rule.contents =
    (p.rules.filter Rule.enabled).map Rule.contents
  rw [map_contents_filter henabled, hcontents, ← map_contents_filter henabled]

/-- A policy that clients have made at one site can be exported there, and its document can be
read.  A client that may change another site, where the interfaces that the policy names exist and
enough numbers are left, then imports it there; and whatever was there before, what is exported
there afterwards has the same defaults and the same rules in the same order apart from their
numbers, and makes the same script. -/
theorem import_reproduces_export {source target : Site} {reader writer viewer : Client}
    (hsource : source.Reachable) (htarget : target.Reachable) (hreader : reader.InTime source)
    (hwriter : writer.Ready target) (hviewer : viewer.InTime target) :
    ∃ p draft text,
      (Operation.run reader.exportPolicy source).1 = .ok p ∧
      (Operation.run reader.renderScript source).1 = .ok text ∧
      Policy.Draft.ofText p.document = .ok draft ∧
      ((∀ r ∈ p.rules, writer.Knows r) → target.ledger.HasNumbers p.rules.length →
        ∃ after q,
          Operation.run (writer.importPolicy draft) target = (.ok p.rules.length, after) ∧
          (Operation.run viewer.exportPolicy after).1 = .ok q ∧
          q.defaults = p.defaults ∧
          q.rules.map Rule.contents = p.rules.map Rule.contents ∧
          (Operation.run viewer.renderScript after).1 = .ok text) := by
  -- the invariant of the source gives the policy, that of the target what the import replaces
  obtain ⟨p, hp, hadmissible⟩ := hsource.kept
  refine ⟨p, p.draft, script p.defaults (p.selected true), ?_, ?_,
    Policy.Draft.ofText_document p, ?_⟩
  · rw [Client.run_exportPolicy hreader hp]
  · rw [Client.run_renderScript hreader hp]
  intro hknown hroom
  obtain ⟨old, hold, -⟩ := htarget.kept
  obtain ⟨hversion, highest, htables, hnumbered⟩ := hold
  rw [Ledger.hasNumbers_iff htables hnumbered] at hroom
  have haccepted := Client.admitPolicy_draft hadmissible hknown
  obtain ⟨ids, journal, hlength, hafter, hrun⟩ :=
    Client.run_importPolicy hwriter htables hnumbered haccepted (by simpa using hroom)
  simp only [List.length_map] at hrun hafter
  -- the rules lost their numbers on the way in and got new ones
  let q : Policy := { p with rules := List.zipWith Rule.withId (p.rules.map Rule.contents) ids }
  have hcontents : q.rules.map Rule.contents = p.rules.map Rule.contents := by
    show (List.zipWith Rule.withId (p.rules.map Rule.contents) ids).map Rule.contents = _
    rw [contents_renumbered hlength, List.map_map]
    rfl
  refine ⟨_, q, hrun, ?_, rfl, hcontents, ?_⟩
  · rw [Client.run_exportPolicy (p := q)]
    · exact hviewer.later.later.later.of_clock fun _ hlooks => hlooks
    · exact ⟨hversion, _, rfl, hafter⟩
  · rw [Client.run_renderScript (p := q)]
    · rw [script_selected_of_contents hp.ascending hafter.ascending rfl hcontents]
    · exact hviewer.later.later.later.of_clock fun _ hlooks => hlooks
    · exact ⟨hversion, _, rfl, hafter⟩

/-- A client of the user whom a new ledger knows as an admin. -/
def rootClient : Client where
  actor := "root"
  budget := .ofSeconds 1
  lock := { path := "lock", patience := none }
  interfaces := none
  loader := default

/-- A site with a new ledger. -/
def newSite : Site where
  ledger := .openBlank
  mayWrite := true
  lock := { fault := none, present := false, held := false }
  programs := default
  handOffs := []
  now := default
  clock := []

/-- A site where one rule has been added. -/
def ruledSite (d : Rule.Draft) : Site :=
  (Operation.run ((Request.addRule d).operation rootClient) newSite).2

/-- A rule with values of every kind. -/
def sampleRule : Rule.Draft :=
  { Rule.Draft.blank with
    protocol := "tcp"
    inInterface := some "eth0"
    ports := [22, 80]
    sources := ["10.0.0.0/8"]
    comment := some "a \"quoted\" remark" }

theorem newSite_reachable : newSite.Reachable :=
  .new rfl

theorem ruledSite_reachable (d : Rule.Draft) : (ruledSite d).Reachable :=
  .request rootClient (.addRule d) newSite_reachable

theorem newSite_ready : rootClient.Ready newSite where
  inTime := ⟨by decide, fun _ hlooks => absurd hlooks List.not_mem_nil⟩
  admin := rfl
  mayWrite := rfl
  openable := rfl
  free := rfl

theorem ruledSite_ready : rootClient.Ready (ruledSite .blank) where
  inTime := ⟨by decide, fun _ hlooks => absurd hlooks List.not_mem_nil⟩
  admin := rfl
  mayWrite := rfl
  openable := rfl
  free := rfl

theorem rootClient_knows (r : Rule) : rootClient.Knows r := by
  intro listing hlisting
  cases hlisting

/-- The rule of one site takes the place of that of another. -/
theorem import_reproduces_sampleRule :
    (ruledSite sampleRule).Reachable ∧ (ruledSite .blank).Reachable ∧
      rootClient.InTime (ruledSite sampleRule) ∧ rootClient.Ready (ruledSite .blank) ∧
      ∃ p draft text after q,
        (Operation.run rootClient.exportPolicy (ruledSite sampleRule)).1 = .ok p ∧
        Policy.Draft.ofText p.document = .ok draft ∧
        Operation.run (rootClient.importPolicy draft) (ruledSite .blank) = (.ok 1, after) ∧
        (Operation.run rootClient.exportPolicy after).1 = .ok q ∧
        q.rules.map Rule.contents = p.rules.map Rule.contents ∧
        (Operation.run rootClient.renderScript (ruledSite sampleRule)).1 = .ok text ∧
        (Operation.run rootClient.renderScript after).1 = .ok text := by
  have hclock : (ruledSite sampleRule).clock = [] := by decide +kernel
  have htime : rootClient.InTime (ruledSite sampleRule) := by
    refine ⟨by decide, ?_⟩
    rw [hclock]
    exact fun _ hlooks => absurd hlooks List.not_mem_nil
  obtain ⟨p, draft, text, hexport, htext, hdraft, himport⟩ :=
    import_reproduces_export (ruledSite_reachable sampleRule) (ruledSite_reachable .blank) htime
      ruledSite_ready ruledSite_ready.inTime
  have hcount : ((Operation.run rootClient.exportPolicy (ruledSite sampleRule)).1.map
      fun p => p.rules.length).toOption = some 1 := by decide +kernel
  have hlength : p.rules.length = 1 := by
    rw [hexport] at hcount
    exact Option.some.inj hcount
  have hroom : (ruledSite .blank).ledger.HasNumbers p.rules.length := by
    rw [hlength]
    intro rules hrules
    cases hrules
    decide
  obtain ⟨after, q, hrun, hq, -, hcontents, hsame⟩ := himport (fun r _ => rootClient_knows r) hroom
  rw [hlength] at hrun
  exact ⟨ruledSite_reachable _, ruledSite_reachable _, htime, ruledSite_ready, p, draft, text,
    after, q, hexport, hdraft, hrun, hq, hcontents, htext, hsame⟩

/-! ## Where numbers run out -/

/-- A policy with one rule, as somebody wrote it down. -/
def oneRule : Policy.Draft where
  defaults := Defaults.initial.draft
  rules := [.blank]

/-- Imports lead to a site that has used any given number of numbers. -/
theorem exists_reachable_numbered (used : Nat) (h : (used : Int) ≤ Ledger.greatestId) :
    ∃ s p, s.Reachable ∧ rootClient.Ready s ∧
      s.ledger.tables? = some (.ofPolicy p used) ∧ p.Numbered used := by
  induction used with
  | zero =>
      exact ⟨newSite, .initial, newSite_reachable, newSite_ready, rfl, Ledger.initial_numbered⟩
  | succ used ih =>
      -- each import of a single rule uses up one number more
      obtain ⟨s, p, hreachable, hready, htables, hnumbered⟩ := ih (by omega)
      have haccepted : rootClient.admitPolicy oneRule =
          .ok ⟨.initial, [⟨0, .input, .all, .accept, none, none, [], [], [], [], none, true⟩]⟩ :=
        rfl
      obtain ⟨ids, journal, -, hafter, hrun⟩ :=
        Client.run_importPolicy hready htables hnumbered haccepted h
      have hnext : (Operation.run (rootClient.importPolicy oneRule) s).2.Reachable :=
        .request rootClient (.importPolicy oneRule) hreachable
      rw [hrun] at hnext
      exact ⟨_, _, hnext, hready.imported rfl, rfl, hafter⟩

/-- A site that has used all numbers can be reached, and no rule can be imported there. -/
theorem import_needs_numbers :
    ¬ ∀ (source target : Site) (reader writer : Client), source.Reachable → target.Reachable →
      reader.InTime source → writer.Ready target →
      ∃ p draft,
        (Operation.run reader.exportPolicy source).1 = .ok p ∧
        Policy.Draft.ofText p.document = .ok draft ∧
        ((∀ r ∈ p.rules, writer.Knows r) →
          ∃ after, Operation.run (writer.importPolicy draft) target =
            (.ok p.rules.length, after)) := by
  intro hcopies
  obtain ⟨target, old, htarget, hready, htables, hnumbered⟩ :=
    exists_reachable_numbered 9223372036854775807 (by decide)
  have htime := ruledSite_ready.inTime
  obtain ⟨p, draft, hexport, hdraft, himport⟩ :=
    hcopies (ruledSite .blank) target rootClient rootClient (ruledSite_reachable _) htarget htime
      hready
  obtain ⟨q, hq, hadmissible⟩ := (ruledSite_reachable .blank).kept
  rw [Client.run_exportPolicy htime hq] at hexport
  obtain rfl : q = p := Except.ok.inj hexport
  obtain rfl : q.draft = draft := Except.ok.inj ((Policy.Draft.ofText_document q).symm.trans hdraft)
  have hcount : ((Operation.run rootClient.exportPolicy (ruledSite .blank)).1.map
      fun p => p.rules.length).toOption = some 1 := by decide +kernel
  have hlength : q.rules.length = 1 := by
    rw [Client.run_exportPolicy htime hq] at hcount
    exact Option.some.inj hcount
  have hknown : ∀ r ∈ q.rules, rootClient.Knows r := fun r _ => rootClient_knows r
  obtain ⟨after, hrun⟩ := himport hknown
  obtain ⟨e, hfault⟩ := Client.run_importPolicy_fault hready htables hnumbered
    (Client.admitPolicy_draft hadmissible hknown) (by
      simp only [List.length_map, hlength]
      decide)
  rw [hrun] at hfault
  cases hfault

end PacketPolicy
