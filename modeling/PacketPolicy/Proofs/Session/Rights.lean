import PacketPolicy.Proofs.Session.Interleaving
import PacketPolicy.Proofs.Session.Obstacles
import PacketPolicy.Proofs.Session.Replay

/-!
# Who may do what

Several clients visit a site one after another, each for one request.  What a user is not entitled
to do is forbidden, and nothing else is; and what is forbidden has no influence on anybody: the
others get the answers that they would get if those visits had never happened.  What only reads is
open to everybody.

* `Ledger.UsersAllowed`, `Ledger.entitles` -- what the table of users may hold, and what it entitles
  a user to;
* `run_authorize_of_allowed` -- whether a user may do something is decided by that, in time;
* `Answer.Denied`, `denied_iff` -- just what a user is not entitled to is forbidden;
* `Visit`, `Lasting`, `session` -- visits one after another, and what lasts between them;
* `session_without_denied` -- the visits that are denied can be left out;
* `denied_visits_leave_no_trace` -- all of this together.
-/

namespace PacketPolicy

/-! ## Users -/

namespace Ledger

/-- What the table of users may hold: the names that there are differ, and every role is one. -/
def UsersAllowed (l : Ledger) : Prop :=
  ∃ rows, l.users = some rows ∧ (rows.filterMap UserRow.name).Nodup ∧
    ∀ row ∈ rows, ∃ role : Role, row.role = .text (Named.name role)

/-- The role of a row, if it is one. -/
def UserRow.role? (row : UserRow) : Option Role :=
  match row.role with
  | .text s => Named.ofName? s
  | _ => none

/-- Whether a user has a role, and one that covers what is required. -/
def entitles (l : Ledger) (actor : String) (required : Role) : Bool :=
  (l.users.getD []).any fun row =>
    row.name == some (.text actor) && row.role?.any (Role.covers · required)

/-- Where names differ, all rows of a name are the first one. -/
theorem any_eq_any_find? {rows : List UserRow} (h : (rows.filterMap UserRow.name).Nodup)
    (name : Cell) (p : UserRow → Bool) :
    (rows.any fun row => row.name == some name && p row) =
      (rows.find? fun row => row.name == some name).any p := by
  induction rows with
  | nil => rfl
  | cons row rest ih =>
      by_cases hname : row.name = some name
      · rw [List.filterMap_cons_some hname, List.nodup_cons] at h
        have hothers : (rest.any fun row => row.name == some name && p row) = false := by
          refine List.any_eq_false.mpr fun other hother hboth => ?_
          rw [Bool.and_eq_true, beq_iff_eq] at hboth
          exact h.1 (List.mem_filterMap.mpr ⟨other, hother, hboth.1⟩)
        simp [hname, hothers]
      · have hrest : (rest.filterMap UserRow.name).Nodup :=
          h.sublist (List.Sublist.filterMap _ (List.sublist_cons_self row rest))
        simp [hname, ih hrest]

/-- A user who is known has one role, which decides what he is entitled to. -/
theorem UsersAllowed.roleOf_cases {l : Ledger} (h : l.UsersAllowed) (actor : String) :
    (roleOf actor l = .ok none ∧ ∀ required, l.entitles actor required = false) ∨
      ∃ role : Role, roleOf actor l = .ok (some (Named.name role)) ∧
        ∀ required, l.entitles actor required = role.covers required := by
  obtain ⟨rows, husers, hnames, hroles⟩ := h
  have hentitles (required : Role) : l.entitles actor required =
      (rows.find? fun row => row.name == some (.text actor)).any fun row =>
        row.role?.any (Role.covers · required) := by
    unfold entitles
    rw [husers]
    exact any_eq_any_find? hnames (.text actor) _
  have hrole : roleOf actor l = (rows.find? fun row => row.name == some (.text actor)).mapM
      fun row => textOfCell 0 "role" row.role := by
    unfold roleOf
    rw [husers]
    rfl
  cases hfind : rows.find? fun row => row.name == some (.text actor) with
  | none =>
      rw [hfind] at hrole
      exact Or.inl ⟨hrole, fun required => by rw [hentitles, hfind]; rfl⟩
  | some row =>
      obtain ⟨role, hname⟩ := hroles row (List.mem_of_find?_eq_some hfind)
      have hread : row.role? = some role := by
        rw [UserRow.role?, hname]
        exact Named.ofName?_name role
      rw [hfind, Option.mapM_some, hname] at hrole
      refine Or.inr ⟨role, hrole, fun required => ?_⟩
      rw [hentitles, hfind, Option.any_some, hread, Option.any_some]

end Ledger

/-! ## Asking whether a user may do something -/

namespace Client

open Operation

variable {c : Client} {s : Site}

/-- Asking comes too late, or the user is told what he is entitled to. -/
theorem run_authorize_of_allowed (h : s.ledger.UsersAllowed) (deed : Deed) :
    (¬ (s.deadline c.budget).Untimed ∧
        ∃ e : Failure, e.OfLedger ∧ Operation.run (c.authorize deed) s = (.error e, s.later)) ∨
      Operation.run (c.authorize deed) s =
        (if s.ledger.entitles c.actor deed.required then .ok ()
          else .error (.forbidden c.actor deed.wording), s.later) := by
  have hreads := Ledger.Transaction.reads_query (Ledger.roleOf c.actor) s.ledger
  have hlook : (¬ (s.deadline c.budget).Untimed ∧
        Operation.run (c.consult fun _ => Ledger.lookUpRole c.actor) s =
          (.error (.overdue (s.deadline c.budget).budget), s.later)) ∨
      Operation.run (c.consult fun _ => Ledger.lookUpRole c.actor) s =
        ((Ledger.roleOf c.actor s.ledger).mapError .ledger, s.later) := by
    unfold consult Ledger.lookUpRole
    rw [run_step]
    by_cases htime : (s.deadline c.budget).Untimed
    · rw [Ledger.Transaction.commit_of_reads_untimed hreads htime]
      exact Or.inr rfl
    · refine (Ledger.Transaction.commit_of_reads hreads (s.deadline c.budget)).imp
        (fun hlate => ⟨htime, ?_⟩) fun hdone => ?_
      · rw [hlate]
        rfl
      · rw [hdone]
        rfl
  unfold authorize roleFor
  rw [Operation.bind_assoc]
  rcases hlook with ⟨htime, hlate⟩ | hdone
  · exact Or.inl ⟨htime, _, .late _, run_bind_error hlate⟩
  right
  rcases h.roleOf_cases c.actor with ⟨hnone, hno⟩ | ⟨role, hsome, hrole⟩
  · rw [hnone] at hdone
    rw [run_bind_ok (a := none) hdone, hno]
    rfl
  · rw [hsome] at hdone
    rw [run_bind_ok (a := some (Named.name role)) hdone, hrole]
    simp only [Named.ofName?_name]
    show Operation.run (if role.covers deed.required then pure ()
      else throw (.forbidden c.actor deed.wording) : Operation Site Unit) s.later = _
    cases role.covers deed.required <;> rfl

end Client

/-! ## What is denied -/

/-- The user may not do it. -/
def Failure.IsDenial (e : Failure) : Prop :=
  ∃ actor wording, e = .forbidden actor wording

/-- The answer is that the user may not do it. -/
def Answer.Denied (a : Answer) : Prop :=
  ∃ e, a.result = .error e ∧ e.IsDenial

/-- Requests that only read, for everybody. -/
def Request.isReading : Request → Bool
  | rules _ | defaults | exportPolicy | renderScript | check | trail _ => true
  | _ => false

theorem Failure.OfLedger.not_isDenial {e : Failure} (h : e.OfLedger) : ¬ e.IsDenial := by
  rintro ⟨actor, wording, rfl⟩
  cases h

theorem Failure.OfDraft.not_isDenial {e : Failure} (h : e.OfDraft) : ¬ e.IsDenial := by
  rintro ⟨actor, wording, rfl⟩
  cases h

theorem Request.Meets.not_isDenial {r : Request} {e : Failure} (h : r.Meets e) :
    ¬ e.IsDenial := by
  rintro ⟨actor, wording, rfl⟩
  rcases h with hledger | ⟨-, hloader⟩
  · cases hledger
  · cases hloader

namespace Client

open Operation

variable {c : Client} {s : Site} {r : Request} {deed : Deed}

/-- What the user is not entitled to fails, and nothing but time passes; in time, it is denied. -/
theorem run_of_not_entitled (h : s.ledger.UsersAllowed) (hdeed : r.deed? = some deed)
    (hno : s.ledger.entitles c.actor deed.required = false) :
    ∃ e, Operation.run (r.operation c) s = (.error e, s.later) ∧
      ((s.deadline c.budget).Untimed → e = .forbidden c.actor deed.wording) := by
  obtain ⟨task, htask⟩ := Request.exists_task_of_deed c hdeed
  rw [Request.operation_eq_guarded htask]
  unfold guarded
  rcases run_authorize_of_allowed (c := c) h deed with ⟨hlate, e, -, hfail⟩ | hdenied
  · exact ⟨e, run_bind_error hfail, fun htime => absurd htime hlate⟩
  · rw [hno] at hdenied
    exact ⟨_, run_bind_error hdenied, fun _ => rfl⟩

/-- Nothing that the user is entitled to is denied, whatever else becomes of it. -/
theorem not_denied_of_entitled (h : s.ledger.UsersAllowed) (hdeed : r.deed? = some deed)
    (hyes : s.ledger.entitles c.actor deed.required = true) {e : Failure}
    (he : (Operation.run (r.operation c) s).1 = .error e) : ¬ e.IsDenial := by
  obtain ⟨task, htask⟩ := Request.exists_task_of_deed c hdeed
  rw [Request.operation_eq_guarded htask] at he
  cases hobstacle : r.obstacle? c deed s with
  | none =>
      obtain ⟨body, hbody, -, hrun⟩ := run_guarded_of_none htask hobstacle
      rw [hrun] at he
      exact (failsOnly_task htask hbody _ e he).not_isDenial
  | some f =>
      rw [run_guarded_of_obstacle htask hobstacle] at he
      obtain rfl : f = e := Except.error.inj he
      rcases Request.obstacle?_eq_some hobstacle with hmay | hgiven | hlock
      · rcases run_authorize_of_allowed (c := c) h deed with ⟨-, g, hledger, hfail⟩ | hallowed
        · rw [hfail] at hmay
          obtain rfl : g = f := Except.error.inj hmay
          exact hledger.not_isDenial
        · rw [hallowed, hyes] at hmay
          cases hmay
      · exact hgiven.not_isDenial
      · rintro ⟨actor, wording, rfl⟩
        cases hlock

end Client

/-! ## Visits -/

/-- What the surroundings of a visit are like, apart from what lasts. -/
structure Scene where
  mayWrite : Bool
  lockFault : Option LockFault
  lockHeld : Bool
  programs : Programs
  now : Timestamp
  clock : List (Option Nat)

/-- What lasts from one visit to the next: the ledger, the scripts that were handed to programs, and
whether the lock's file is there. -/
structure Lasting where
  ledger : Ledger
  handOffs : List HandOff
  lockPresent : Bool

/-- One request of one client. -/
structure Visit where
  client : Client
  request : Request
  scene : Scene

/-- The site of a visit. -/
def Scene.site (scene : Scene) (l : Lasting) : Site where
  ledger := l.ledger
  mayWrite := scene.mayWrite
  lock := { fault := scene.lockFault, present := l.lockPresent, held := scene.lockHeld }
  programs := scene.programs
  handOffs := l.handOffs
  now := scene.now
  clock := scene.clock

/-- What lasts of a site. -/
def Site.lasting (s : Site) : Lasting :=
  ⟨s.ledger, s.handOffs, s.lock.present⟩

namespace Visit

/-- The answer that the visit gets, and what lasts after it. -/
def run (v : Visit) (l : Lasting) : Answer × Lasting :=
  let (result, s) := Operation.run (v.request.operation v.client) (v.scene.site l)
  (⟨v.request, result⟩, s.lasting)

/-- There is time enough to find out who the user is. -/
def Live (v : Visit) : Prop :=
  ∀ l, ((v.scene.site l).deadline v.client.budget).Untimed

/-- The same visit by another user. -/
def as (v : Visit) (actor : String) : Visit :=
  { v with client := { v.client with actor } }

/-- Whether the visit is for something that the user is not entitled to. -/
def isDenied (l : Ledger) (v : Visit) : Bool :=
  match v.request.deed? with
  | some deed => !l.entitles v.client.actor deed.required
  | none => false

end Visit

/-- The visits one after another, each with its answer, and what lasts after them. -/
def session (l : Lasting) : List Visit → List (Visit × Answer) × Lasting
  | [] => ([], l)
  | v :: rest =>
      let (answer, l) := v.run l
      let (answers, last) := session l rest
      ((v, answer) :: answers, last)

theorem session_cons (l : Lasting) (v : Visit) (rest : List Visit) :
    session l (v :: rest) =
      ((v, (v.run l).1) :: (session (v.run l).2 rest).1, (session (v.run l).2 rest).2) := rfl

/-! ## What denied visits leave behind -/

namespace Ledger

variable {l m : Ledger}

theorem UsersAllowed.congr (h : l.UsersAllowed) (husers : m.users = l.users) :
    m.UsersAllowed := by
  unfold UsersAllowed
  rwa [husers]

theorem entitles_congr (husers : m.users = l.users) (actor : String) (required : Role) :
    m.entitles actor required = l.entitles actor required := by
  unfold entitles
  rw [husers]

end Ledger

/-- No request touches the users. -/
theorem Client.users_request (c : Client) (r : Request) (s : Site) :
    (Operation.run (r.operation c) s).2.ledger.users = s.ledger.users := by
  have husers : Table.users ∉ Table.ofPolicy := by decide
  cases htask : r.task? c with
  | none => exact same_of_reading htask husers s
  | some guard =>
      obtain ⟨deed, task⟩ := guard
      rw [Request.operation_eq_guarded htask]
      rcases run_guarded deed task s with ⟨e, hfail⟩ | ⟨body, hbody, hrun⟩
      · rw [hfail]
        rfl
      · rw [hrun]
        exact ((keeps_around_task htask hbody).run (s := s.later.locked) ⟨rfl, rfl⟩).1

namespace Visit

variable {v : Visit} {l : Lasting}

theorem users_run (v : Visit) (l : Lasting) : (v.run l).2.ledger.users = l.ledger.users :=
  Client.users_request v.client v.request (v.scene.site l)

/-- Nothing lasts of a visit that is denied. -/
theorem run_of_isDenied (h : l.ledger.UsersAllowed) (hdenied : v.isDenied l.ledger = true) :
    (v.run l).2 = l := by
  unfold isDenied at hdenied
  split at hdenied
  · rename_i deed hdeed
    rw [Bool.not_eq_true'] at hdenied
    obtain ⟨e, hrun, -⟩ := Client.run_of_not_entitled (c := v.client) (s := v.scene.site l) h hdeed
      hdenied
    unfold run
    rw [hrun]
    rfl
  · cases hdenied

/-- In time, just what the user is not entitled to is denied. -/
theorem denied_iff (h : l.ledger.UsersAllowed) {deed : Client.Deed}
    (hdeed : v.request.deed? = some deed) (hlive : v.Live) :
    (v.run l).1.Denied ↔ l.ledger.entitles v.client.actor deed.required = false := by
  constructor
  · rintro ⟨e, he, hdenial⟩
    by_contra hyes
    rw [Bool.not_eq_false] at hyes
    exact Client.not_denied_of_entitled (s := v.scene.site l) h hdeed hyes he hdenial
  · intro hno
    obtain ⟨e, hrun, hforbidden⟩ := Client.run_of_not_entitled (c := v.client)
      (s := v.scene.site l) h hdeed hno
    refine ⟨e, ?_, _, _, hforbidden (hlive l)⟩
    unfold run
    rw [hrun]

/-- What only reads gives every user the same answer, and leaves the same. -/
theorem run_as_of_isReading (h : v.request.isReading = true) (actor : String) (l : Lasting) :
    (v.as actor).run l = v.run l := by
  obtain ⟨c, r, scene⟩ := v
  cases r with
  | rules onlyEnabled => rfl
  | defaults => rfl
  | exportPolicy => rfl
  | renderScript => rfl
  | check => rfl
  | trail limit => rfl
  | _ => cases h

end Visit

variable {l : Lasting} {known : Ledger}

/-- Each visit of a session gets the answer that it would get for itself, with the users that there
were in the beginning. -/
theorem exists_run_of_mem_session {visits : List Visit} {p : Visit × Answer}
    (hp : p ∈ (session l visits).1) :
    ∃ now : Lasting, now.ledger.users = l.ledger.users ∧ p.2 = (p.1.run now).1 := by
  induction visits generalizing l with
  | nil => cases hp
  | cons v rest ih =>
      rcases List.mem_cons.mp hp with rfl | hrest
      · exact ⟨l, rfl, rfl⟩
      · obtain ⟨now, husers, hanswer⟩ := ih hrest
        exact ⟨now, husers.trans (v.users_run l), hanswer⟩

/-- The visits that are denied can be left out. -/
theorem session_without_denied (h : known.UsersAllowed) (husers : l.ledger.users = known.users)
    (visits : List Visit) :
    session l (visits.filter fun v => !v.isDenied known) =
      ((session l visits).1.filter fun p => !p.1.isDenied known, (session l visits).2) := by
  induction visits generalizing l with
  | nil => rfl
  | cons v rest ih =>
      have hrest := ih ((v.users_run l).trans husers)
      cases hdenied : v.isDenied known with
      | true =>
          -- the rest begins with what there was before the visit
          have hsame : (v.run l).2 = l := by
            refine Visit.run_of_isDenied (h.congr husers) ?_
            rw [← hdenied]
            unfold Visit.isDenied
            simp only [Ledger.entitles_congr husers]
          rw [hsame] at hrest
          rw [List.filter_cons_of_neg (by simp [hdenied]), hrest, session_cons, hsame,
            List.filter_cons_of_neg (by simp [hdenied])]
      | false =>
          rw [List.filter_cons_of_pos (by simp [hdenied]), session_cons, hrest, session_cons,
            List.filter_cons_of_pos (by simp [hdenied])]

/-- In any session of visits, a request that changes something and is made in time is denied just if
the user is not known or has too low a role.  Without the visits for what their users are not
entitled to, all other visits get the same answers, and the same ledger and the same scripts last in
the end.  And what only reads is the same for everybody, known or not. -/
theorem denied_visits_leave_no_trace (l : Lasting) (h : l.ledger.UsersAllowed)
    (visits : List Visit) :
    (∀ p ∈ (session l visits).1, ∀ deed, p.1.request.deed? = some deed → p.1.Live →
      (p.2.Denied ↔ l.ledger.entitles p.1.client.actor deed.required = false)) ∧
    session l (visits.filter fun v => !v.isDenied l.ledger) =
      ((session l visits).1.filter fun p => !p.1.isDenied l.ledger, (session l visits).2) ∧
    ∀ (v : Visit) (actor : String) (now : Lasting), v.request.isReading = true →
      (v.as actor).run now = v.run now := by
  refine ⟨fun p hp deed hdeed hlive => ?_, session_without_denied h rfl visits,
    fun v actor now hreading => Visit.run_as_of_isReading hreading actor now⟩
  obtain ⟨now, husers, hanswer⟩ := exists_run_of_mem_session hp
  rw [hanswer, Visit.denied_iff (h.congr husers) hdeed hlive, Ledger.entitles_congr husers]

/-- A new ledger with users of every role, and a row that is about nobody. -/
def staffedLedger : Ledger :=
  { Ledger.openBlank with
    users := some [⟨some "root", "admin"⟩, ⟨some "operator", "operator"⟩, ⟨some "guest", "viewer"⟩,
      ⟨none, "admin"⟩] }

/-- What lasts from the beginning on. -/
def staffedStart : Lasting :=
  ⟨staffedLedger, [], false⟩

/-- A visit of a user on a site where nothing stands in the way. -/
def calmVisit (actor : String) (request : Request) : Visit where
  client := { rootClient with actor }
  request
  scene := ⟨true, none, false, fun _ => .ok (.exited 0, .empty), default, []⟩

/-- A guest and a stranger try what they may not do, before and after an operator adds a rule. -/
def mixedVisits : List Visit :=
  [calmVisit "guest" (.addRule sampleRule), calmVisit "operator" (.addRule sampleRule),
    calmVisit "" (.importPolicy ⟨Defaults.initial.draft, []⟩), calmVisit "nobody" .apply,
    calmVisit "guest" (.rules false)]

/-- The guest is denied, and the operator's rule and what the guest then reads are the same as if
the others had not come. -/
theorem mixedVisits_without_denied :
    staffedStart.ledger.UsersAllowed ∧
      ((calmVisit "guest" (.addRule sampleRule)).run staffedStart).1.Denied ∧
      session staffedStart
          [calmVisit "operator" (.addRule sampleRule), calmVisit "guest" (.rules false)] =
        ((session staffedStart mixedVisits).1.filter fun p => !p.1.isDenied staffedLedger,
          (session staffedStart mixedVisits).2) := by
  have husers : staffedStart.ledger.UsersAllowed := by
    refine ⟨_, rfl, by decide, fun row hrow => ?_⟩
    simp only [List.mem_cons, List.not_mem_nil, or_false] at hrow
    rcases hrow with rfl | rfl | rfl | rfl
    · exact ⟨.admin, rfl⟩
    · exact ⟨.operator, rfl⟩
    · exact ⟨.viewer, rfl⟩
    · exact ⟨.admin, rfl⟩
  obtain ⟨hdenied, hwithout, -⟩ := denied_visits_leave_no_trace staffedStart husers mixedVisits
  have hguest : (calmVisit "guest" (.addRule sampleRule)).isDenied staffedLedger = true := by
    decide
  have hoperator : (calmVisit "operator" (.addRule sampleRule)).isDenied staffedLedger = false := by
    decide
  have hnameless : (calmVisit "" (.importPolicy ⟨Defaults.initial.draft, []⟩)).isDenied
      staffedLedger = true := by
    decide
  have hnobody : (calmVisit "nobody" .apply).isDenied staffedLedger = true := by decide
  have hreader : (calmVisit "guest" (.rules false)).isDenied staffedLedger = false := rfl
  have hkept : (mixedVisits.filter fun v => !v.isDenied staffedLedger) =
      [calmVisit "operator" (.addRule sampleRule), calmVisit "guest" (.rules false)] := by
    simp [mixedVisits, hguest, hoperator, hnameless, hnobody, hreader]
  rw [← hkept]
  have hfirst : (calmVisit "guest" (.addRule sampleRule),
      ((calmVisit "guest" (.addRule sampleRule)).run staffedStart).1) ∈
        (session staffedStart mixedVisits).1 := by
    rw [mixedVisits, session_cons]
    exact List.mem_cons_self
  exact ⟨husers, (hdenied _ hfirst .addRules rfl fun _ => rfl).mpr (by decide), hwithout⟩

end PacketPolicy
