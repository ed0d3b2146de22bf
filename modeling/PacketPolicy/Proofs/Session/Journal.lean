import PacketPolicy.Proofs.Json.Compact
import PacketPolicy.Proofs.Policy.Documents
import PacketPolicy.Proofs.Session.Changes

/-!
# What a request leaves in the journal

One request leaves one event in the journal, or none at all.

* `Event.Legible`, `event?_of_legible` -- events that are read back from their rows;
* `Ledger.policy` -- the policy as it is read from a ledger; `Site.loaded?` -- the script that was
  handed over between two sites;
* `Request.event?` -- what an answered request leaves in the journal, told from what is different
  afterwards: the rule that is stored now, the one that is gone, the script that was handed over;
* `Request.takesEffect` -- whether there is anything to tell of it;
* `journal_request` -- one request leaves this event, or leaves the journal as it was.
-/

namespace PacketPolicy

open Json Operation

/-! ## Events that can be read back -/

namespace Json.Value

/-- A value without parts of its own, and without a floating number. -/
def Flat (v : Value) : Prop :=
  v.Whole ∧ v.Ordered ∧ v.depth = 0

theorem flat_ofInt (n : Int) : (ofInt n).Flat := by
  unfold ofInt
  cases Integer.of? n <;> exact ⟨trivial, trivial, rfl⟩

theorem flat_ofString? (s : Option String) : (ofString? s).Flat := by
  cases s <;> exact ⟨trivial, trivial, rfl⟩

/-- A list of values without parts. -/
theorem array_of_flat {α : Type} {write : α → Value} (h : ∀ a, (write a).Flat) (as : List α) :
    (array (as.map write)).Whole ∧ (array (as.map write)).Ordered ∧
      (array (as.map write)).depth ≤ 1 := by
  refine ⟨wholeItems_map (fun a => (h a).1) as, ?_, ?_⟩
  · induction as with
    | nil => exact trivial
    | cons a rest ih => exact ⟨(h a).2.1, ih⟩
  · refine Nat.succ_le_succ ((depthOfItems_le_iff _ 0).mpr fun v hv => ?_)
    obtain ⟨a, -, rfl⟩ := List.mem_map.mp hv
    exact Nat.le_of_eq (h a).2.2

end Json.Value

theorem Rule.readable_members (r : Rule) : (Value.ofMembers r.members).Readable := by
  have hflat {v : Value} (h : v.Flat) : v.Whole ∧ v.Ordered ∧ v.depth < nestingLimit :=
    ⟨h.1, h.2.1, by rw [h.2.2]; decide⟩
  have hlist {α : Type} {write : α → Value} (h : ∀ a, (write a).Flat) (as : List α) :
      (Value.array (as.map write)).Whole ∧ (Value.array (as.map write)).Ordered ∧
        (Value.array (as.map write)).depth < nestingLimit := by
    obtain ⟨hwhole, hordered, hdepth⟩ := Value.array_of_flat h as
    exact ⟨hwhole, hordered, Nat.lt_of_le_of_lt hdepth (by decide)⟩
  have hstring (s : String) : (Value.string s).Flat := ⟨trivial, trivial, rfl⟩
  have hbool (b : Bool) : (Value.bool b).Flat := ⟨trivial, trivial, rfl⟩
  refine Value.readable_ofMembers ?_
  simp only [members, List.forall_mem_cons]
  exact ⟨hflat (Value.flat_ofInt _), hflat (hstring _), hflat (hstring _), hflat (hstring _),
    hflat (Value.flat_ofString? _), hflat (Value.flat_ofString? _),
    hlist (fun _ => Value.flat_ofInt _) _, hlist hstring _, hlist hstring _,
    hlist (fun _ => Value.flat_ofInt _) _, hflat (Value.flat_ofString? _), hflat (hbool _),
    fun _ h => absurd h List.not_mem_nil⟩

theorem Defaults.readable_members (d : Defaults) : (Value.ofMembers d.members).Readable := by
  have hstring (s : String) : (Value.string s).Whole ∧ (Value.string s).Ordered ∧
      (Value.string s).depth < nestingLimit :=
    ⟨trivial, trivial, Nat.zero_lt_succ _⟩
  refine Value.readable_ofMembers ?_
  simp only [members, List.forall_mem_cons]
  exact ⟨hstring _, hstring _, hstring _, hstring _, fun _ h => absurd h List.not_mem_nil⟩

/-- Counts under names. -/
theorem Json.Value.readable_counts (counts : List (String × Nat)) :
    (ofMembers (counts.map fun (name, n) => (name, ofNat n))).Readable := by
  refine readable_ofMembers fun m hm => ?_
  obtain ⟨count, -, rfl⟩ := List.mem_map.mp hm
  obtain ⟨hwhole, hordered, hdepth⟩ := flat_ofInt count.2
  exact ⟨hwhole, hordered, by
    show (ofInt count.2).depth < nestingLimit
    rw [hdepth]
    decide⟩

/-- An event that is read back from its row. -/
structure Event.Legible (e : Event) : Prop where
  timestamp : e.timestamp.Usual
  details : e.details.Readable

/-- Of an event that was written into a row, only the moment and the details have to be read. -/
theorem Ledger.event?_ofEvent (e : Event) :
    (JournalRow.ofEvent e).event? = do
      let timestamp ← parsed 0 (Timestamp.readStrict e.timestamp.offsetText)
      let details ← parsed 4 (Json.Value.ofText e.details.compact)
      return { e with timestamp, details } := by
  simp only [JournalRow.event?, JournalRow.ofEvent, textOfCell, nameOfColumn_name, bind,
    Except.bind]

theorem Ledger.event?_of_legible {e : Event} (h : e.Legible) :
    (JournalRow.ofEvent e).event? = .ok e := by
  rw [event?_ofEvent, Timestamp.readStrict_offsetText h.timestamp, ofText_compact h.details]
  rfl

/-! ## What a request leaves in the journal -/

/-- The policy as it is read from a ledger, when there is time. -/
def Ledger.policy (l : Ledger) : Policy where
  defaults := (readDefaults (.distant .zero) l).1.toOption.getD .initial
  rules := ((list false).commit (.distant .zero) l).1.toOption.getD []

theorem Ledger.Holds.policy_eq {l : Ledger} {p : Policy} (h : l.Holds p) : l.policy = p := by
  obtain ⟨highest, hl, hnumbered⟩ := h.eq_withTables
  rw [hl]
  have hdefaults := run_readDefaults_untimed (l := l) (PolicyTables.loaded_ofPolicy p highest)
    (Deadline.distant_untimed .zero) (.distant .zero)
  have hrules := run_list_untimed (l := l) (t := .ofPolicy p highest) false
    (Deadline.distant_untimed .zero) (.distant .zero)
  rw [PolicyTables.listed_ofPolicy false hnumbered] at hrules
  change readDefaults _ _ = _ at hdefaults
  change Transaction.commit (list false) _ _ = _ at hrules
  unfold policy
  rw [hdefaults, hrules]
  rfl

/-- The rule with a number. -/
def Policy.rule? (p : Policy) (id : Int64) : Option Rule :=
  p.rules.find? fun r => r.id == id

namespace Policy

variable {p : Policy} {id : Int64}

theorem rule?_eq_none_iff : p.rule? id = none ↔ ∀ r ∈ p.rules, r.id ≠ id := by
  unfold rule?
  simp [List.find?_eq_none]

/-- A rule under a number above all others was not there before. -/
theorem rule?_added {r : Rule} (h : ∀ q ∈ p.rules, q.id < r.id) :
    p.rule? r.id = none ∧ rule? { p with rules := p.rules ++ [r] } r.id = some r := by
  have hnone : p.rule? r.id = none :=
    rule?_eq_none_iff.mpr fun q hq => Int64.ne_of_lt (h q hq)
  refine ⟨hnone, ?_⟩
  unfold rule? at hnone ⊢
  rw [List.find?_append, hnone]
  simp

/-- A rule that is removed is there no longer. -/
theorem rule?_removed (h : (p.rules.any fun r => r.id == id) = true) :
    (∃ r, p.rule? id = some r) ∧
      rule? { p with rules := p.rules.filter fun r => r.id != id } id = none := by
  refine ⟨?_, rule?_eq_none_iff.mpr fun r hr => ?_⟩
  · obtain ⟨r, hr, hid⟩ := List.any_eq_true.mp h
    exact Option.isSome_iff_exists.mp (List.find?_isSome.mpr ⟨r, hr, hid⟩)
  · simpa using (List.mem_filter.mp hr).2

end Policy

/-- A script that the client's loader was to load, if it is all that was handed over between two
sites. -/
def Site.loaded? (c : Client) (before after : Site) : Option String :=
  match after.handOffs with
  | [] => none
  | h :: earlier =>
      if earlier = before.handOffs ∧
          h = ⟨c.loader.program, c.loader.arguments ++ Loader.Task.load.options, h.script⟩ then
        some h.script
      else none

/-- What an answered request of a client leaves in the journal: an event about what is different
afterwards, or nothing.  A rule that was added is one that was not there before, one that was
deleted is there no longer, and what was loaded is the script that was handed over. -/
def Request.event? (c : Client) (before after : Site) :
    (r : Request) → Except Failure r.Result → Option Event
  | .addRule _, .ok (id : Int64) =>
      match before.ledger.policy.rule? id, after.ledger.policy.rule? id with
      | none, some r =>
          some ⟨before.now, c.actor, .addRule, ruleObject id, .ofMembers r.members⟩
      | _, _ => none
  | .deleteRule id, .ok true =>
      match before.ledger.policy.rule? id, after.ledger.policy.rule? id with
      | some _, none => some ⟨before.now, c.actor, .deleteRule, ruleObject id, .object []⟩
      | _, _ => none
  | .setDefaults _, .ok _ =>
      some ⟨before.now, c.actor, .setDefaults, defaultsObject,
        .ofMembers after.ledger.policy.defaults.members⟩
  | .importPolicy _, .ok _ =>
      some ⟨before.now, c.actor, .importSnapshot, rulesetObject,
        .ofMembers [("rules", .ofNat after.ledger.policy.rules.length)]⟩
  | .apply, .ok _ =>
      (before.loaded? c after).map fun text =>
        ⟨before.now, c.actor, .applyRules, rulesetObject,
          .ofMembers [("rules", .ofNat (after.ledger.policy.selected true).length),
            ("bytes", .ofNat text.utf8ByteSize)]⟩
  | _, _ => none

/-- Whether a request has changed or loaded something, by its answer: that is so of all changes that
succeed, but not of the deletion of a rule that was not there. -/
def Request.takesEffect : (r : Request) → Except Failure r.Result → Bool
  | .deleteRule _, .ok (found : Bool) => found
  | .addRule _, .ok _ | .setDefaults _, .ok _ | .importPolicy _, .ok _ | .apply, .ok _ => true
  | _, _ => false

/-- The outcome of a request at a site whose journal is `t`: if there is nothing to tell of it, the
journal stays as it was, and otherwise it gets the event, as long as it can.  There is something to
tell of those requests, and only of those, that take effect. -/
def Request.Logged (c : Client) (s : Site) (t : Ledger.JournalTable) (r : Request)
    (outcome : Except Failure r.Result × Site) : Prop :=
  match r.event? c s outcome.2 outcome.1 with
  | none => r.takesEffect outcome.1 = false ∧ outcome.2.ledger.journal = some t
  | some e => r.takesEffect outcome.1 = true ∧
      (c.Records s → e.Legible ∧ outcome.2.ledger.journal = some (t.record e))

namespace Client

variable {c : Client} {s : Site} {t : Ledger.JournalTable} {p : Policy}

/-- A failure leaves nothing. -/
theorem logged_error {r : Request} {outcome : Except Failure r.Result × Site} {e : Failure}
    {after : Site} (hrun : outcome = (.error e, after)) (h : after.ledger.journal = some t) :
    r.Logged c s t outcome := by
  subst hrun
  cases r <;> exact ⟨rfl, h⟩

/-- Where there is nothing to tell, the journal stays as it was. -/
theorem logged_nothing {r : Request} {outcome : Except Failure r.Result × Site}
    {answer : Except Failure r.Result} {after : Site} (hrun : outcome = (answer, after))
    (hevent : r.event? c s after answer = none) (heffect : r.takesEffect answer = false)
    (h : after.ledger.journal = some t) : r.Logged c s t outcome := by
  subst hrun
  unfold Request.Logged
  rw [hevent]
  exact ⟨heffect, h⟩

/-- What is told of a request is what it was about to leave. -/
theorem logged_event {r : Request} {outcome : Except Failure r.Result × Site}
    {answer : Except Failure r.Result} {after : Site} (e : Event)
    (hrun : outcome = (answer, after)) (hevent : r.event? c s after answer = some e)
    (heffect : r.takesEffect answer = true) (htimestamp : e.timestamp = s.now) (hdetails : e.details.Readable)
    (h : c.Records s → after.ledger.journal = some (t.record e)) : r.Logged c s t outcome := by
  subst hrun
  unfold Request.Logged
  rw [hevent]
  exact ⟨heffect, fun hrecords => ⟨⟨htimestamp ▸ hrecords.usual, hdetails⟩, h hrecords⟩⟩

theorem event?_addRule {after : Site} {q : Policy} {id : Int64} {r : Rule}
    (hp : s.ledger.Holds p) (hq : after.ledger.Holds q) (d : Rule.Draft)
    (hnew : p.rule? id = none) (hfound : q.rule? id = some r) :
    (Request.addRule d).event? c s after (.ok id) =
      some ⟨s.now, c.actor, .addRule, ruleObject id, .ofMembers r.members⟩ := by
  unfold Request.event?
  rw [hp.policy_eq, hq.policy_eq]
  dsimp only
  rw [hnew, hfound]

theorem event?_deleteRule {after : Site} {q : Policy} {id : Int64} {r : Rule}
    (hp : s.ledger.Holds p) (hq : after.ledger.Holds q) (hthere : p.rule? id = some r)
    (hgone : q.rule? id = none) :
    (Request.deleteRule id).event? c s after (.ok true) =
      some ⟨s.now, c.actor, .deleteRule, ruleObject id, .object []⟩ := by
  unfold Request.event?
  rw [hp.policy_eq, hq.policy_eq]
  dsimp only
  rw [hthere, hgone]

theorem holds_journal {l : Ledger} (h : l.Holds p) (journal : Option Ledger.JournalTable) :
    Ledger.Holds { l with journal } p := by
  obtain ⟨hversion, highest, htables, hnumbered⟩ := h
  exact ⟨hversion, highest, htables, hnumbered⟩

/-! ## Tasks under the lock -/

/-- A change of the policy that fails leaves the ledger as it was.  One that succeeds makes of the
policy what the call makes of it, and leaves the journal alone. -/
theorem run_call_cases (call : Ledger.Call) {f : Ledger.Transaction call.Result}
    (hf : Ledger.Transaction.Footprint Table.ofPolicy f)
    (hcall : ∀ d l, call.run d d l = f.commit d l) (hp : s.ledger.Holds p) :
    (∃ e, Operation.run (c.transact fun _ => f) s = (.error e, s.later)) ∨
      ∃ a l, Operation.run (c.transact fun _ => f) s = (.ok a, { s.later with ledger := l }) ∧
        Ledger.Answered.Fits p ⟨call, .ok a⟩ ∧ l.Holds (Ledger.policyAfter p ⟨call, .ok a⟩) ∧
        l.journal = s.ledger.journal := by
  rcases run_transact_cases (c := c) (fun _ => f) s with hfail | ⟨-, a, l, hcommit, hdone⟩
  · exact Or.inl hfail
  · obtain ⟨hfits, hafter⟩ :=
      Ledger.holds_run hp call (s.deadline c.budget) (s.deadline c.budget)
    have hagree := Ledger.Transaction.agree_commit hf (s.deadline c.budget) s.ledger
    rw [hcall, hcommit] at hfits hafter
    rw [hcommit] at hagree
    exact Or.inr ⟨a, l, hdone, hfits, hafter, hagree.outside .journal (by decide)⟩

/-- The client can still record something after it has changed the policy. -/
theorem Records.changed {l : Ledger} (h : c.Records s)
    (hjournal : l.journal = s.ledger.journal) : c.Records { s.later with ledger := l } :=
  h.of_clock (fun _ hlooks => List.mem_of_mem_tail hlooks) rfl rfl hjournal

theorem logged_addition (hp : s.ledger.Holds p) (ht : s.ledger.journal = some t) (r : Rule)
    (d : Rule.Draft) :
    (Request.addRule d).Logged c s t (Operation.run (c.addition r) s) := by
  rcases run_call_cases (c := c) (.create r) (f := Ledger.create r)
    (Ledger.footprint_storeRule r) (fun _ _ => rfl) hp with
    ⟨e, hfail⟩ | ⟨(id : Int64), l, hdone, hfits, hafter, hjournal⟩
  · exact logged_error (run_bind_error hfail) ht
  obtain ⟨journal, hnote, hrecorded⟩ := run_note_cases (c := c) .addRule (ruleObject id)
    (.ofMembers (r.withId id).members) { s.later with ledger := l }
  have hrun : Operation.run (c.addition r) s =
      (.ok id, { s.later.later with ledger := { l with journal } }) :=
    (run_bind_ok hdone).trans (run_bind_ok hnote)
  -- the rule that is found under the new number is the one that was stored
  obtain ⟨hnew, hfound⟩ := Policy.rule?_added (r := r.withId id) hfits
  exact logged_event _ hrun (event?_addRule hp (holds_journal hafter journal) d hnew hfound) rfl
    rfl (Rule.readable_members (r.withId id)) fun hrecords =>
      hrecorded (hrecords.changed hjournal) t (hjournal.trans ht)

theorem logged_removal (hp : s.ledger.Holds p) (ht : s.ledger.journal = some t) (id : Int64) :
    (Request.deleteRule id).Logged c s t (Operation.run (c.removal id) s) := by
  rcases run_call_cases (c := c) (.delete id) (f := Ledger.delete id)
    (Ledger.footprint_delete id) (fun _ _ => rfl) hp with
    ⟨e, hfail⟩ | ⟨(found : Bool), l, hdone, hfits, hafter, hjournal⟩
  · exact logged_error (run_bind_error hfail) ht
  cases found with
  | false =>
      have hrun : Operation.run (c.removal id) s = (.ok false, { s.later with ledger := l }) :=
        run_bind_ok hdone
      exact logged_nothing hrun rfl rfl (hjournal.trans ht)
  | true =>
      obtain ⟨journal, hnote, hrecorded⟩ := run_note_cases (c := c) .deleteRule (ruleObject id)
        (.object []) { s.later with ledger := l }
      have hrun : Operation.run (c.removal id) s =
          (.ok true, { s.later.later with ledger := { l with journal } }) :=
        (run_bind_ok hdone).trans (run_bind_ok hnote)
      -- what was found is gone
      have hfound : (p.rules.any fun r => r.id == id) = true := hfits.symm
      obtain ⟨⟨r, hthere⟩, hgone⟩ := Policy.rule?_removed hfound
      exact logged_event _ hrun
        (event?_deleteRule hp (holds_journal hafter journal) hthere hgone) rfl rfl
        ⟨trivial, ⟨List.Pairwise.nil, trivial⟩, Nat.le_add_left 1 126⟩ fun hrecords =>
          hrecorded (hrecords.changed hjournal) t (hjournal.trans ht)

theorem logged_overwriting (hp : s.ledger.Holds p) (ht : s.ledger.journal = some t)
    (defaults : Defaults) (d : Defaults.Draft) :
    (Request.setDefaults d).Logged c s t (Operation.run (c.overwriting defaults) s) := by
  rcases run_call_cases (c := c) (.setDefaults defaults) (f := Ledger.setDefaults defaults)
    (Ledger.footprint_setDefaults defaults) (fun _ _ => rfl) hp with
    ⟨e, hfail⟩ | ⟨_, l, hdone, -, hafter, hjournal⟩
  · exact logged_error (run_bind_error hfail) ht
  obtain ⟨journal, hnote, hrecorded⟩ := run_note_cases (c := c) .setDefaults defaultsObject
    (.ofMembers defaults.members) { s.later with ledger := l }
  have hrun : Operation.run (c.overwriting defaults) s =
      (.ok defaults, { s.later.later with ledger := { l with journal } }) :=
    (run_bind_ok hdone).trans (run_bind_ok hnote)
  refine logged_event _ hrun ?_ rfl rfl (Defaults.readable_members defaults) fun hrecords =>
    hrecorded (hrecords.changed hjournal) t (hjournal.trans ht)
  unfold Request.event?
  rw [(holds_journal hafter journal).policy_eq]
  rfl

theorem logged_replacement (hp : s.ledger.Holds p) (ht : s.ledger.journal = some t) (q : Policy)
    (d : Policy.Draft) :
    (Request.importPolicy d).Logged c s t (Operation.run (c.replacement q) s) := by
  rcases run_call_cases (c := c) (.replaceAll q.defaults q.rules)
    (f := Ledger.replaceAll q.defaults q.rules)
    (Ledger.footprint_replaceAll q.defaults q.rules) (fun _ _ => rfl) hp with
    ⟨e, hfail⟩ | ⟨(ids : List Int64), l, hdone, hfits, hafter, hjournal⟩
  · exact logged_error (run_bind_error hfail) ht
  obtain ⟨journal, hnote, hrecorded⟩ := run_note_cases (c := c) .importSnapshot rulesetObject
    (.ofMembers [("rules", .ofNat ids.length)]) { s.later with ledger := l }
  have hrun : Operation.run (c.replacement q) s =
      (.ok ids.length, { s.later.later with ledger := { l with journal } }) :=
    (run_bind_ok hdone).trans (run_bind_ok hnote)
  refine logged_event _ hrun ?_ rfl rfl (Value.readable_counts [("rules", ids.length)])
    fun hrecords => hrecorded (hrecords.changed hjournal) t (hjournal.trans ht)
  -- there are as many rules afterwards as numbers were given
  have hcount : (List.zipWith Rule.withId q.rules ids).length = ids.length := by
    rw [List.length_zipWith, show ids.length = q.rules.length from hfits, Nat.min_self]
  unfold Request.event?
  rw [(holds_journal hafter journal).policy_eq]
  show some _ = some _
  rw [← hcount]
  rfl

theorem logged_loading (hp : s.ledger.Holds p) (ht : s.ledger.journal = some t) :
    Request.apply.Logged c s t (Operation.run c.loading s) := by
  rcases run_loading_cases (c := c) hp with ⟨e, after, hfail, hledger, -⟩ |
    ⟨journal, hrun, hrecorded⟩
  · exact logged_error hfail ((congrArg Ledger.journal hledger).trans ht)
  refine logged_event _ hrun ?_ rfl rfl (Value.readable_counts [("rules", _), ("bytes", _)])
    fun hrecords => hrecorded hrecords t ht
  -- the script of the policy is what was handed over, and nothing else was
  have hloaded : s.loaded? c { s.later.later.later with
      handOffs := c.delivery p :: s.handOffs, ledger := { s.ledger with journal } } =
      some (c.delivery p).script :=
    if_pos ⟨rfl, rfl⟩
  unfold Request.event?
  rw [(holds_journal hp journal).policy_eq]
  dsimp only
  rw [hloaded]
  rfl

/-! ## Requests -/

/-- The lock makes no difference to what is told of a request, nor does the time. -/
theorem event?_locked (r : Request) (answer : Except Failure r.Result) (after : Site) :
    r.event? c s (Lockable.release c.lock after) answer =
      r.event? c s.later.locked after answer := by
  cases r <;> rfl

/-- Nor do the checks in front of the lock. -/
theorem logged_guarded {r : Request} {deed : Deed}
    {task : Except Failure (Operation Site r.Result)} (ht : s.ledger.journal = some t)
    (hbody : ∀ body, task = .ok body →
      r.Logged c s.later.locked t (Operation.run body s.later.locked)) :
    r.Logged c s t (Operation.run (c.guarded deed task) s) := by
  rcases run_guarded (c := c) deed task s with ⟨e, hfail⟩ | ⟨body, htask, hrun⟩
  · exact logged_error hfail ht
  · rw [hrun]
    have hlogged := hbody body htask
    unfold Request.Logged at hlogged ⊢
    rw [event?_locked]
    split
    · rename_i hnone
      rw [hnone] at hlogged
      exact hlogged
    · rename_i e hsome
      rw [hsome] at hlogged
      refine ⟨hlogged.1, fun hrecords => hlogged.2 (hrecords.of_clock ?_ rfl rfl rfl)⟩
      exact fun _ hlooks => List.mem_of_mem_tail hlooks

/-- What is told of a request is what it leaves in the journal. -/
theorem journal_request (hp : s.ledger.Holds p) (ht : s.ledger.journal = some t) (r : Request) :
    r.Logged c s t (Operation.run (r.operation c) s) := by
  cases htask : r.task? c with
  | none =>
      have htable : Table.journal ∉ Table.ofPolicy := by decide
      have hjournal : (Operation.run (r.operation c) s).2.ledger.journal = some t :=
        Eq.trans (same_of_reading htask htable s) ht
      cases r with
      | addRule d => cases htask
      | deleteRule id => cases htask
      | setDefaults d => cases htask
      | importPolicy d => cases htask
      | apply => cases htask
      | _ => exact logged_nothing rfl rfl rfl hjournal
  | some guard =>
      obtain ⟨deed, task⟩ := guard
      rw [Request.operation_eq_guarded htask]
      refine logged_guarded ht fun body hbody => ?_
      have hheld : s.later.locked.ledger.Holds p := hp
      exact Request.forall_task
        (Q := fun r body => r.Logged c s.later.locked t (Operation.run body s.later.locked))
        (fun d r _ => logged_addition hheld ht r d) (fun id => logged_removal hheld ht id)
        (fun d defaults _ => logged_overwriting hheld ht defaults d)
        (fun d q _ => logged_replacement hheld ht q d) (logged_loading hheld ht) htask hbody

end Client
end PacketPolicy
