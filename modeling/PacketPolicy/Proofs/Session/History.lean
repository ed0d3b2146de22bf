import PacketPolicy.Proofs.Session.Journal
import PacketPolicy.Proofs.Session.Transfer

/-!
# The journal as a history

The journal of a site is the list of the changes that clients have made there, oldest first.  Its
entries are best effort, so it tells all of them only where nothing keeps an entry from being made:
the ledger may be written to, there is a number left, and the present moment has a notation that
can be read back.

* `Request.told` -- what a request leaves in the journal;
* `Site.Chronicle` -- the sites that requests lead to, with the events of all requests so far;
* `Ledger.Tells`, `tells_request` -- the journal has certain events, and one request adds its own;
* `trail_is_history` -- reading the journal gives the last of these events, newest first, one for
  each request that takes effect;
* `history_needs_records` -- without any one of the three conditions it does not.
-/

namespace PacketPolicy

/-- What a request of the client at the site leaves in the journal. -/
def Request.told (c : Client) (s : Site) (r : Request) : Option Event :=
  let (answer, after) := Operation.run (r.operation c) s
  r.event? c s after answer

theorem Request.told_eq (c : Client) (s : Site) (r : Request) :
    r.told c s =
      r.event? c s (Operation.run (r.operation c) s).2 (Operation.run (r.operation c) s).1 :=
  rfl

/-- The sites that requests lead to, from one with a new ledger on, together with the events of all
these requests, oldest first.  Whatever is not the policy and not the journal may change in between
as it likes; only when there is an event to tell, the client may count on what is granted. -/
inductive Site.Chronicle (grants : Client → Site → Prop) : Site → List Event → Prop where
  | new {s : Site} (h : s.ledger = Ledger.openBlank) : Chronicle grants s []
  | request {s : Site} {events : List Event} (c : Client) (r : Request)
      (h : Chronicle grants s events) (hgrants : ∀ e ∈ r.told c s, grants c s) :
      Chronicle grants (Operation.run (r.operation c) s).2 (events ++ (r.told c s).toList)
  | reopened {s : Site} {events : List Event} (h : Chronicle grants s events) :
      Chronicle grants { s with ledger := s.ledger.bringUpToDate.2 } events
  | surroundings {s s' : Site} {events : List Event} (h : Chronicle grants s events)
      (hledger : s'.ledger = { s.ledger with users := s'.ledger.users }) :
      Chronicle grants s' events

/-- The journal of the ledger has just these events, and they can be read back. -/
def Ledger.Tells (l : Ledger) (events : List Event) : Prop :=
  (∃ highest, l.journal = some ⟨events.map JournalRow.ofEvent, highest⟩) ∧
    ∀ e ∈ events, e.Legible

theorem Ledger.JournalTable.record_ofEvents (events : List Event) (e : Event) (highest : Int) :
    record ⟨events.map JournalRow.ofEvent, highest⟩ e =
      ⟨(events ++ [e]).map JournalRow.ofEvent, highest + 1⟩ := by
  unfold record
  rw [List.map_append]
  rfl

namespace Client

variable {c : Client} {s : Site} {t : Ledger.JournalTable}

/-- Of a request that takes effect there is an event to tell, which is added to the journal if it can
be recorded; any other request leaves the journal as it was. -/
theorem told_cases (hkept : s.ledger.Kept) (ht : s.ledger.journal = some t) (r : Request) :
    (r.told c s = none ∧ r.takesEffect (Operation.run (r.operation c) s).1 = false ∧
      (Operation.run (r.operation c) s).2.ledger.journal = some t) ∨
    ∃ e, r.told c s = some e ∧ r.takesEffect (Operation.run (r.operation c) s).1 = true ∧
      (c.Records s → e.Legible ∧
        (Operation.run (r.operation c) s).2.ledger.journal = some (t.record e)) := by
  obtain ⟨p, hp, -⟩ := hkept
  have hlogged := journal_request (c := c) hp ht r
  unfold Request.Logged at hlogged
  rw [← Request.told_eq] at hlogged
  cases htold : r.told c s with
  | none =>
      rw [htold] at hlogged
      exact Or.inl ⟨rfl, hlogged⟩
  | some e =>
      rw [htold] at hlogged
      exact Or.inr ⟨e, rfl, hlogged⟩

/-- There is something to tell of the requests that take effect, and of no others. -/
theorem isSome_told (hkept : s.ledger.Kept) (ht : s.ledger.journal = some t) (r : Request) :
    (r.told c s).isSome = r.takesEffect (Operation.run (r.operation c) s).1 := by
  rcases told_cases (c := c) hkept ht r with ⟨htold, heffect, -⟩ | ⟨e, htold, heffect, -⟩
  · rw [htold, heffect]
    rfl
  · rw [htold, heffect]
    rfl

theorem journal_of_told (hkept : s.ledger.Kept) (ht : s.ledger.journal = some t) {r : Request}
    {e : Event} (h : r.told c s = some e) (hrecords : c.Records s) :
    (Operation.run (r.operation c) s).2.ledger.journal = some (t.record e) := by
  rcases told_cases (c := c) hkept ht r with ⟨htold, -⟩ | ⟨e', htold, -, hrecorded⟩
  · rw [htold] at h
    cases h
  · rw [htold] at h
    cases h
    exact (hrecorded hrecords).2

end Client

/-- One request adds what is told of it. -/
theorem Ledger.tells_request {c : Client} {s : Site} {events : List Event} (hkept : s.ledger.Kept)
    (h : s.ledger.Tells events) (r : Request) (hrecords : ∀ e ∈ r.told c s, c.Records s) :
    (Operation.run (r.operation c) s).2.ledger.Tells (events ++ (r.told c s).toList) := by
  obtain ⟨⟨highest, ht⟩, hlegible⟩ := h
  rcases Client.told_cases (c := c) hkept ht r with ⟨htold, -, hjournal⟩ | ⟨e, htold, -, hrecorded⟩
  · rw [htold, Option.toList_none, List.append_nil]
    exact ⟨⟨highest, hjournal⟩, hlegible⟩
  · obtain ⟨hnew, hjournal⟩ := hrecorded (hrecords e htold)
    rw [Ledger.JournalTable.record_ofEvents] at hjournal
    rw [htold, Option.toList_some]
    refine ⟨⟨highest + 1, hjournal⟩, fun e' he' => ?_⟩
    rcases List.mem_append.mp he' with hold | hlast
    · exact hlegible e' hold
    · rwa [List.mem_singleton.mp hlast]

/-- The ledger holds a policy, whatever is granted. -/
theorem Site.Chronicle.kept {grants : Client → Site → Prop} {s : Site} {events : List Event}
    (h : s.Chronicle grants events) : s.ledger.Kept := by
  induction h with
  | new hnew =>
      rw [hnew]
      exact Ledger.kept_openBlank
  | request c r _ _ ih => exact (Client.keeps_request c r).run ih
  | reopened _ ih =>
      obtain ⟨p, hholds, hp⟩ := ih
      exact ⟨p, by rwa [Ledger.bringUpToDate_of_upToDate hholds.1], hp⟩
  | surroundings _ hledger ih =>
      obtain ⟨p, ⟨hversion, highest, htables, hnumbered⟩, hp⟩ := ih
      rw [hledger]
      exact ⟨p, ⟨hversion, highest, htables, hnumbered⟩, hp⟩

/-- The journal of a site tells its history. -/
theorem Site.Chronicle.tells {s : Site} {events : List Event}
    (h : s.Chronicle Client.Records events) : s.ledger.Tells events := by
  induction h with
  | new hnew =>
      rw [hnew]
      exact ⟨⟨0, rfl⟩, fun _ he => absurd he List.not_mem_nil⟩
  | request c r hbefore hrecords ih => exact Ledger.tells_request hbefore.kept ih r hrecords
  | reopened hbefore ih =>
      obtain ⟨p, hholds, -⟩ := hbefore.kept
      rwa [Ledger.bringUpToDate_of_upToDate hholds.1]
  | surroundings _ hledger ih =>
      rw [hledger]
      exact ih

theorem Ledger.Tells.reads {l : Ledger} {events : List Event} (h : l.Tells events) (limit : Nat) :
    Transaction.Reads (recent limit) l (.ok (events.reverse.take limit)) := by
  obtain ⟨⟨highest, ht⟩, hlegible⟩ := h
  have hread : lastEvents limit l = .ok (events.reverse.take limit) := by
    unfold lastEvents
    rw [ht]
    show ((events.map JournalRow.ofEvent).reverse.take limit).mapM JournalRow.event? = _
    rw [← List.map_reverse, ← List.map_take]
    exact mapM_map_self fun e he =>
      event?_of_legible (hlegible e (List.mem_reverse.mp (List.mem_of_mem_take he)))
  rw [← hread]
  exact Transaction.reads_query _ _

theorem Client.run_trail {c : Client} {s : Site} {events : List Event} (htime : c.InTime s)
    (h : s.ledger.Tells events) (limit : Nat) :
    Operation.run (c.trail limit) s = (.ok (events.reverse.take limit), s.later) :=
  run_consult (t := fun _ => Ledger.recent limit) htime (h.reads limit)

/-- Whatever clients have asked for since the ledger was new, reading the journal gives the last
events of their requests, newest first: one for each request that changed or loaded something, and
none for any other. -/
theorem trail_is_history {s : Site} {events : List Event} (h : s.Chronicle Client.Records events)
    {c : Client} (htime : c.InTime s) (limit : Nat) :
    Operation.run (c.trail limit) s = (.ok (events.reverse.take limit), s.later) ∧
      ∀ (asker : Client) (r : Request),
        (r.told asker s).isSome = r.takesEffect (Operation.run (r.operation asker) s).1 := by
  obtain ⟨highest, ht⟩ := h.tells.1
  exact ⟨Client.run_trail htime h.tells limit, fun _ r => Client.isSome_told h.kept ht r⟩

/-- A site with a new ledger, on a certain day, where programs take whatever they are handed. -/
def datedSite : Site :=
  { newSite with
    now := ⟨⟨2024, 5, 17⟩, 3600, 0⟩
    programs := fun _ => .ok (.exited 0, .empty) }

/-- The site after a rule has been added there and loaded, one that does not exist has been deleted,
and the one that was added has been deleted as well. -/
def busySite : Site :=
  let added := (Operation.run ((Request.addRule sampleRule).operation rootClient) datedSite).2
  let loaded := (Operation.run (Request.apply.operation rootClient) added).2
  let kept := (Operation.run ((Request.deleteRule 7).operation rootClient) loaded).2
  (Operation.run ((Request.deleteRule 1).operation rootClient) kept).2

theorem rootClient_inTime {s : Site} (hclock : s.clock = []) : rootClient.InTime s where
  budget := by decide
  clock := by
    rw [hclock]
    exact fun _ hlooks => absurd hlooks List.not_mem_nil

theorem datedSite_usual : datedSite.now.Usual where
  year := by decide
  date := by decide
  second := by decide
  nanosecond := by decide
  leap := by decide

theorem rootClient_records {s : Site}
    (h : s.clock = [] ∧ s.mayWrite = true ∧ s.now = datedSite.now ∧ s.ledger.HasEntry) :
    rootClient.Records s where
  inTime := rootClient_inTime h.1
  mayWrite := h.2.1
  usual := h.2.2.1 ▸ datedSite_usual
  room := h.2.2.2

/-- Three of four requests are told of, the last one first. -/
theorem busySite_trail :
    rootClient.InTime busySite ∧ ∃ events, busySite.Chronicle Client.Records events ∧
      events.map (fun e => (e.kind, e.object)) =
        [(.addRule, "rule:1"), (.applyRules, "ruleset"), (.deleteRule, "rule:1")] ∧
      Operation.run (rootClient.trail 10) busySite = (.ok events.reverse, busySite.later) := by
  let added := (Operation.run ((Request.addRule sampleRule).operation rootClient) datedSite).2
  let loaded := (Operation.run (Request.apply.operation rootClient) added).2
  let kept := (Operation.run ((Request.deleteRule 7).operation rootClient) loaded).2
  have hadded : added.Chronicle Client.Records _ :=
    .request rootClient (.addRule sampleRule) (.new rfl) fun _ _ =>
      rootClient_records (by decide)
  have hloaded : loaded.Chronicle Client.Records _ :=
    .request rootClient .apply hadded fun _ _ => rootClient_records (by decide +kernel)
  have hkept : kept.Chronicle Client.Records _ :=
    .request rootClient (.deleteRule 7) hloaded fun _ _ => rootClient_records (by decide +kernel)
  have hbusy : busySite.Chronicle Client.Records _ :=
    .request rootClient (.deleteRule 1) hkept fun _ _ => rootClient_records (by decide +kernel)
  have htime : rootClient.InTime busySite := rootClient_inTime (by decide +kernel)
  refine ⟨htime, _, hbusy, by decide +kernel, ?_⟩
  rw [(trail_is_history hbusy htime 10).1, List.take_of_length_le]
  decide +kernel

/-! ## What entries of the journal need -/

/-- Whether reading the journal gives the history wherever requests that have something to tell may
count on what is granted. -/
def Site.AllTold (grants : Client → Site → Prop) : Prop :=
  ∀ (s : Site) (events : List Event) (c : Client) (limit : Nat), s.Chronicle grants events →
    c.InTime s → Operation.run (c.trail limit) s = (.ok (events.reverse.take limit), s.later)

theorem Site.Chronicle.mono {grants more : Client → Site → Prop} {s : Site} {events : List Event}
    (h : s.Chronicle grants events) (hmore : ∀ c s, grants c s → more c s) :
    s.Chronicle more events := by
  induction h with
  | new hnew => exact .new hnew
  | request c r _ hmores ih => exact .request c r ih fun e he => hmore c _ (hmores e he)
  | reopened _ ih => exact .reopened ih
  | surroundings _ hledger ih => exact .surroundings ih hledger

theorem Site.AllTold.mono {grants more : Client → Site → Prop} (h : AllTold grants)
    (hmore : ∀ c s, more c s → grants c s) : AllTold more :=
  fun s events c limit hchronicle => h s events c limit (hchronicle.mono hmore)

/-- Where something is told of a request that leaves the journal as it was, the history is one event
ahead of the journal. -/
theorem Site.not_allTold {grants : Client → Site → Prop} {s : Site} {events : List Event}
    {c : Client} {r : Request} (h : s.Chronicle grants events) (hgrants : grants c s)
    (htold : (r.told c s).isSome = true)
    (htells : (Operation.run (r.operation c) s).2.ledger.Tells events)
    (htime : c.InTime (Operation.run (r.operation c) s).2) : ¬ AllTold grants := by
  intro hall
  obtain ⟨e, he⟩ := Option.isSome_iff_exists.mp htold
  have hafter := Site.Chronicle.request c r h fun _ _ => hgrants
  rw [he] at hafter
  have hread := hall _ _ c (events.length + 1) hafter htime
  rw [Client.run_trail htime htells] at hread
  have hlength := congrArg List.length (Except.ok.inj (congrArg Prod.fst hread))
  simp at hlength

/-- The dated site, where nothing may be written any more. -/
def readOnlySite : Site :=
  { datedSite with mayWrite := false }

/-- The dated site in a year of five digits. -/
def distantSite : Site :=
  { datedSite with now := ⟨⟨12345, 1, 1⟩, 0, 0⟩ }

/-- A policy without rules. -/
def noRules : Policy.Draft where
  defaults := Defaults.initial.draft
  rules := []

theorem told_importPolicy {c : Client} {s after : Site} {d : Policy.Draft} {count : Nat}
    (h : Operation.run (c.importPolicy d) s = (.ok count, after)) :
    ∃ e, (Request.importPolicy d).told c s = some e := by
  unfold Request.told
  rw [show Operation.run ((Request.importPolicy d).operation c) s = (.ok count, after) from h]
  exact ⟨_, rfl⟩

/-- Imports lead to a site with a journal of any length for which there are numbers. -/
theorem exists_chronicle_of_length (count : Nat) (h : (count : Int) ≤ Ledger.greatestId) :
    ∃ s events p, s.Chronicle Client.Records events ∧ events.length = count ∧
      rootClient.Ready s ∧ s.now = datedSite.now ∧
      s.ledger.tables? = some (.ofPolicy p 0) ∧ p.Numbered 0 ∧
      s.ledger.journal = some ⟨events.map .ofEvent, count⟩ := by
  induction count with
  | zero =>
      exact ⟨datedSite, [], .initial, .new rfl, rfl, ⟨rootClient_inTime rfl, rfl, rfl, rfl, rfl⟩,
        rfl, rfl, Ledger.initial_numbered, rfl⟩
  | succ count ih =>
      -- an import of a policy without rules takes a number of the journal and none of the rules
      obtain ⟨s, events, p, hchronicle, hlength, hready, hnow, htables, hnumbered, hjournal⟩ :=
        ih (by omega)
      have hrecords : rootClient.Records s := {
        inTime := hready.inTime
        mayWrite := hready.mayWrite
        usual := hnow ▸ datedSite_usual
        room := by
          intro t ht
          rw [hjournal] at ht
          cases ht
          show (count : Int) < Ledger.greatestId
          omega }
      obtain ⟨ids, journal, -, hafter, hrun⟩ :=
        Client.run_importPolicy (d := noRules) (q := ⟨.initial, []⟩) hready htables hnumbered rfl
          (by decide)
      obtain ⟨e, he⟩ := told_importPolicy hrun
      have hnext := Site.Chronicle.request rootClient (.importPolicy noRules) hchronicle
        fun _ _ => hrecords
      have hrecorded := Client.journal_of_told hchronicle.kept hjournal he hrecords
      rw [he, Option.toList_some] at hnext
      rw [Ledger.JournalTable.record_ofEvents] at hrecorded
      change Operation.run ((Request.importPolicy noRules).operation rootClient) s = _ at hrun
      rw [hrun] at hnext hrecorded
      exact ⟨_, _, _, hnext, by simp [hlength], hready.imported rfl, hnow, rfl, hafter, hrecorded⟩

/-- Where nothing may be written, a policy can be loaded, and nothing is told of it. -/
theorem readOnlySite_tells :
    (Operation.run (Request.apply.operation rootClient) readOnlySite).2.ledger.Tells [] :=
  ⟨⟨0, by decide +kernel⟩, nofun⟩

theorem readOnlySite_inTime :
    rootClient.InTime (Operation.run (Request.apply.operation rootClient) readOnlySite).2 :=
  rootClient_inTime (by decide +kernel)

theorem not_allTold_readOnly :
    ¬ Site.AllTold fun c s => c.InTime s ∧ s.now.Usual ∧ s.ledger.HasEntry :=
  Site.not_allTold (s := readOnlySite) (.new rfl)
    ⟨rootClient_inTime rfl, datedSite_usual, by decide⟩ (by decide +kernel) readOnlySite_tells
    readOnlySite_inTime

/-- The event of a moment without a notation hides all others. -/
theorem not_allTold_distant :
    ¬ Site.AllTold fun c s => c.InTime s ∧ s.mayWrite = true ∧ s.ledger.HasEntry := by
  intro hall
  have hread := hall _ _ rootClient 1
    (.request (s := distantSite) rootClient (.addRule .blank) (.new rfl) fun _ _ =>
      ⟨rootClient_inTime rfl, rfl, by decide⟩)
    (rootClient_inTime (by decide +kernel))
  have hsome := congrArg (fun outcome => outcome.1.toOption.isSome) hread
  revert hsome
  decide +kernel

/-- When all numbers have been given, the journal tells of nothing more. -/
theorem not_allTold_spent :
    ¬ Site.AllTold fun c s => c.InTime s ∧ s.mayWrite = true ∧ s.now.Usual := by
  obtain ⟨s, events, p, hchronicle, -, hready, hnow, htables, hnumbered, hjournal⟩ :=
    exists_chronicle_of_length 9223372036854775807 (by decide)
  have hspent : ¬ s.ledger.HasEntry := by
    intro hroom
    have hbelow : ((9223372036854775807 : Nat) : Int) < Ledger.greatestId := hroom _ hjournal
    exact absurd hbelow (by decide)
  obtain ⟨ids, journal, -, -, hrun⟩ :=
    Client.run_importPolicy (d := noRules) (q := ⟨.initial, []⟩) hready htables hnumbered rfl
      (by decide)
  obtain ⟨e, he⟩ := told_importPolicy hrun
  have hsame := Client.journal_importPolicy_spent (d := noRules) (q := ⟨.initial, []⟩) hready
    htables hnumbered rfl (by decide) hspent
  refine Site.not_allTold (r := .importPolicy noRules)
    (hchronicle.mono fun _ _ h => ⟨h.inTime, h.mayWrite, h.usual⟩)
    ⟨hready.inTime, hready.mayWrite, hnow ▸ datedSite_usual⟩ (he ▸ rfl)
    ⟨⟨_, hsame.trans hjournal⟩, hchronicle.tells.2⟩ ?_
  change Operation.run ((Request.importPolicy noRules).operation rootClient) s = _ at hrun
  rw [hrun]
  exact hready.inTime.later.later.later.of_clock fun _ hlooks => hlooks

/-- An entry of the journal needs a ledger that may be written to, a moment that has a notation that
can be read back, and a number: without any one of the three a request can succeed and the journal
does not tell of it, or cannot be read any more.  So where nothing may be written, a policy is
loaded, and reading the journal gives nothing. -/
theorem history_needs_records :
    (∃ loaded after, Operation.run rootClient.apply readOnlySite = (.ok loaded, after) ∧
      after.handOffs.length = 1 ∧ ∀ limit,
        Operation.run (rootClient.trail limit) after = (.ok [], after.later)) ∧
    ¬ Site.AllTold Client.InTime ∧
    ¬ Site.AllTold (fun c s => c.InTime s ∧ s.now.Usual ∧ s.ledger.HasEntry) ∧
    ¬ Site.AllTold (fun c s => c.InTime s ∧ s.mayWrite = true ∧ s.ledger.HasEntry) ∧
    ¬ Site.AllTold (fun c s => c.InTime s ∧ s.mayWrite = true ∧ s.now.Usual) := by
  refine ⟨?_, fun hall => not_allTold_readOnly (hall.mono fun _ _ h => h.1), not_allTold_readOnly,
    not_allTold_distant, not_allTold_spent⟩
  have hloads : (Operation.run rootClient.apply readOnlySite).1.toOption.isSome = true := by
    decide +kernel
  cases hanswer : (Operation.run rootClient.apply readOnlySite).1 with
  | error failure =>
      rw [hanswer] at hloads
      cases hloads
  | ok loaded =>
      refine ⟨loaded, _, Prod.ext hanswer rfl, by decide +kernel, fun limit => ?_⟩
      have hread := Client.run_trail readOnlySite_inTime readOnlySite_tells limit
      rwa [List.reverse_nil, List.take_nil] at hread

end PacketPolicy
