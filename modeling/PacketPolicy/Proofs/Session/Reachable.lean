import PacketPolicy.Proofs.Ledger.Refinement
import PacketPolicy.Proofs.Policy.Admission
import PacketPolicy.Proofs.Session.Runs
import PacketPolicy.Session.Operations

/-!
# Reachable sites

What clients can ask for, and the sites that their requests lead to.

* `Request` -- everything that a client can ask for; `Request.operation` -- what is done then;
* `Site.Reachable` -- a site with a new ledger, and what requests make of it, while whatever else
  there is around the policy may change as it likes;
* `Ledger.Kept` -- the ledger holds a policy all of whose parts have been accepted;
* `keeps_request` -- no step of any request destroys this;
* `Site.Reachable.kept` -- so it holds of every reachable site.
-/

namespace PacketPolicy

/-- What a client can ask for. -/
inductive Request where
  | role
  | rules (onlyEnabled : Bool)
  | defaults
  | exportPolicy
  | renderScript
  | check
  | trail (limit : Nat)
  | addRule (d : Rule.Draft)
  | deleteRule (id : Int64)
  | setDefaults (d : Defaults.Draft)
  | importPolicy (d : Policy.Draft)
  | apply
deriving Inhabited

namespace Request

/-- The results of a request. -/
def Result : Request → Type
  | role => Role
  | rules _ => List Rule
  | defaults => Defaults
  | exportPolicy => Policy
  | renderScript => String
  | check => Unit
  | trail _ => List Event
  | addRule _ => Int64
  | deleteRule _ => Bool
  | setDefaults _ => Defaults
  | importPolicy _ => Nat
  | apply => Client.Loaded

/-- What is done about a request of the client. -/
def operation (c : Client) : (r : Request) → Operation Site r.Result
  | role => c.role
  | rules onlyEnabled => c.rules onlyEnabled
  | defaults => c.defaults
  | exportPolicy => c.exportPolicy
  | renderScript => c.renderScript
  | check => c.check
  | trail limit => c.trail limit
  | addRule d => c.addRule d
  | deleteRule id => c.deleteRule id
  | setDefaults d => c.setDefaults d
  | importPolicy d => c.importPolicy d
  | apply => c.apply

end Request

/-- The sites that requests lead to, from one with a new ledger on.  In between the ledger may be
closed and opened again, and whatever is not the policy may change: the users, the lock, the
clock, the programs. -/
inductive Site.Reachable : Site → Prop where
  | new {s : Site} (h : s.ledger = Ledger.openBlank) : Reachable s
  | request {s : Site} (c : Client) (r : Request) :
      Reachable s → Reachable (Operation.run (r.operation c) s).2
  | reopened {s : Site} :
      Reachable s → Reachable { s with ledger := s.ledger.bringUpToDate.2 }
  | surroundings {s s' : Site} :
      Reachable s → s'.ledger = { s.ledger with users := s'.ledger.users } → Reachable s'

/-! ## Policies all of whose parts have been accepted -/

theorem Rule.Admissible.withId {r : Rule} (h : r.Admissible) (id : Int64) :
    (r.withId id).Admissible :=
  ⟨h.ports, h.sources, h.destinations, h.inInterface, h.outInterface⟩

theorem Rule.admissible_of_accept {d : Rule.Draft} {r : Rule} (h : d.accept = .ok r) :
    r.Admissible :=
  ((Rule.accept_eq_ok_iff d r).mp h).2.2

/-- Rules stay admissible under other numbers. -/
theorem Rule.admissible_renumbered {rules : List Rule} (h : ∀ r ∈ rules, r.Admissible)
    (ids : List Int64) : ∀ r ∈ List.zipWith Rule.withId rules ids, r.Admissible := by
  intro q hq
  rw [← List.map_uncurry_zip_eq_zipWith] at hq
  obtain ⟨⟨r, id⟩, hpair, rfl⟩ := List.mem_map.mp hq
  exact (h r (List.of_mem_zip hpair).1).withId id

namespace Ledger

/-- What a call is given has been accepted. -/
def Call.Admissible : Call → Prop
  | create r => r.Admissible
  | setDefaults d => d.Admissible
  | replaceAll d rules => d.Admissible ∧ ∀ r ∈ rules, r.Admissible
  | _ => True

theorem admissible_policyAfter {p : Policy} (hp : p.Admissible) {c : Call} (hc : c.Admissible)
    (answer : Except Failure c.Result) : (policyAfter p ⟨c, answer⟩).Admissible := by
  cases answer with
  | error e => cases c <;> exact hp
  | ok a =>
      -- only what a call brings in is new to the policy
      cases c with
      | create r =>
          refine ⟨hp.defaults, fun q hq => ?_⟩
          rcases List.mem_append.mp hq with hold | hnew
          · exact hp.rules q hold
          · rw [List.mem_singleton.mp hnew]
            exact Rule.Admissible.withId hc a
      | delete id => exact ⟨hp.defaults, fun q hq => hp.rules q (List.mem_filter.mp hq).1⟩
      | setDefaults d => exact ⟨hc, hp.rules⟩
      | replaceAll d rules => exact ⟨hc.1, Rule.admissible_renumbered hc.2 a⟩
      | _ => exact hp

/-- The ledger holds a policy all of whose parts have been accepted. -/
def Kept (l : Ledger) : Prop :=
  ∃ p, l.Holds p ∧ p.Admissible

theorem kept_openBlank : openBlank.Kept := by
  refine ⟨.initial, openBlank_holds, ⟨?_, ?_⟩, ?_⟩
  · exact Nat.zero_le _
  · rfl
  · exact fun r hr => absurd hr List.not_mem_nil

theorem kept_run {l : Ledger} (hl : l.Kept) {c : Call} (hc : c.Admissible)
    (first second : Deadline) : (c.run first second l).2.Kept := by
  obtain ⟨p, hholds, hp⟩ := hl
  exact ⟨_, (holds_run hholds c first second).2, admissible_policyAfter hp hc _⟩

theorem kept_seedDefaults {l : Ledger} (hl : l.Kept) (d : Deadline) :
    (Transaction.commit seedDefaults d l).2.Kept := by
  obtain ⟨p, hholds, hp⟩ := hl
  obtain ⟨highest, heq, -⟩ := hholds.eq_withTables
  have hseed := yields_seedDefaults_some (l := l) (PolicyTables.loaded_ofPolicy p highest)
  -- the row of the defaults is there, so nothing is stored
  rw [← heq] at hseed
  rcases commit_ok_cases hseed d with ⟨e, hfail⟩ | hdone
  · rw [hfail]
    exact ⟨p, hholds, hp⟩
  · rw [hdone]
    exact ⟨p, hholds, hp⟩

end Ledger

/-! ## Steps of clients -/

namespace Client

open Operation

variable {P : Ledger → Prop} {α : Type} (c : Client)

theorem keeps_consult (t : Site → Ledger.Transaction α) :
    Keeps (fun s : Site => P s.ledger) (c.consult t) :=
  keeps_step fun _ hs => hs

theorem keeps_transact {t : Site → Ledger.Transaction α}
    (h : ∀ s l d, P l → P ((t s).commit d l).2) :
    Keeps (fun s : Site => P s.ledger) (c.transact t) := by
  refine keeps_step fun s hs => ?_
  show P (if s.mayWrite then _ else _ : Except Failure α × Site).2.ledger
  cases s.mayWrite with
  | true => exact h s s.ledger _ hs
  | false => exact hs

theorem keeps_handOff (task : Loader.Task) (text : String) :
    Keeps (fun s : Site => P s.ledger) (c.handOff task text) := by
  refine keeps_step fun s hs => ?_
  dsimp only
  split
  · exact hs
  · split
    · exact hs
    · exact hs

theorem keeps_lock {lock : ChangeLock} {body : Operation Site α}
    (hbody : Keeps (fun s : Site => P s.ledger) body) :
    Keeps (fun s : Site => P s.ledger) (underLock lock body) := by
  refine keeps_underLock ?_ (fun _ hs => hs) hbody
  intro s s' hs hacquire
  have hledger : s'.ledger = s.ledger := by
    change Site.acquire lock s = .ok s' at hacquire
    unfold Site.acquire at hacquire
    split at hacquire
    · cases hacquire
    split at hacquire
    · cases hacquire
    · cases hacquire
      rfl
  rw [hledger]
  exact hs

theorem keeps_roleFor (deed : String) : Keeps (fun s : Site => P s.ledger) (c.roleFor deed) := by
  refine keeps_bind (keeps_consult c _) fun found => ?_
  cases found with
  | none => exact keeps_throw _
  | some name =>
      dsimp only
      split
      · exact keeps_pure _
      · exact keeps_throw _

theorem keeps_authorize (deed : Deed) : Keeps (fun s : Site => P s.ledger) (c.authorize deed) := by
  refine keeps_bind (keeps_roleFor c _) fun role => ?_
  split
  · exact keeps_pure _
  · exact keeps_throw _

theorem keeps_admitted {x : Except Failure α} {β : Type} {k : α → Operation Site β}
    (hk : ∀ a, x = .ok a → Keeps (fun s : Site => P s.ledger) (k a)) :
    Keeps (fun s : Site => P s.ledger) (admitted x >>= k) := by
  cases x with
  | error refusal => exact trivial
  | ok a => exact hk a rfl

/-! ## Requests -/

theorem keeps_defaults : Keeps (fun s : Site => s.ledger.Kept) c.defaults := by
  refine keeps_bind (keeps_consult c _) fun found => ?_
  cases found with
  | some d => exact keeps_pure _
  | none => exact keeps_transact c fun _ l d hl => Ledger.kept_seedDefaults hl d

theorem keeps_renderScript : Keeps (fun s : Site => s.ledger.Kept) c.renderScript :=
  keeps_bind (keeps_defaults c) fun _ => keeps_bind (keeps_consult c _) fun _ => keeps_pure _

/-- A call that is given what has been accepted, as a step of the client. -/
theorem keeps_call (call : Ledger.Call) (hcall : call.Admissible)
    {t : Site → Ledger.Transaction call.Result}
    (hrun : ∀ s l d, (t s).commit d l = call.run d d l) :
    Keeps (fun s : Site => s.ledger.Kept) (c.transact t) := by
  refine keeps_transact c fun s l d hl => ?_
  rw [hrun]
  exact Ledger.kept_run hl hcall d d

theorem keeps_note (kind : Event.Kind) (object : String) (details : Json.Value) :
    Keeps (fun s : Site => s.ledger.Kept) (c.note kind object details) := by
  refine keeps_catch ?_ fun _ => keeps_pure _
  refine keeps_transact c fun s l d hl => ?_
  exact Ledger.kept_run (c := .append _) hl trivial d d

theorem admissible_of_admitRule {d : Rule.Draft} {r : Rule} (h : c.admitRule d = .ok r) :
    r.Admissible := by
  unfold admitRule at h
  simp only [bind_eq_ok_iff] at h
  obtain ⟨made, haccept, -, -, -, -, heq⟩ := h
  obtain rfl := Except.ok.inj heq
  exact Rule.admissible_of_accept (mapError_eq_ok_iff.mp haccept)

theorem admissible_of_admitRules {drafts : List Rule.Draft} {place : Nat} {rules : List Rule}
    (h : c.admitRules place drafts = .ok rules) : ∀ r ∈ rules, r.Admissible := by
  induction drafts generalizing place rules with
  | nil =>
      obtain rfl := Except.ok.inj h
      exact fun r hr => absurd hr List.not_mem_nil
  | cons d rest ih =>
      unfold admitRules at h
      cases hfirst : c.admitRule d with
      | error refusal =>
          rw [hfirst] at h
          cases h
      | ok r =>
          rw [hfirst] at h
          obtain ⟨others, hothers, heq⟩ := bind_eq_ok_iff.mp h
          obtain rfl := Except.ok.inj heq
          exact List.forall_mem_cons.mpr ⟨admissible_of_admitRule c hfirst, ih hothers⟩

theorem admissible_of_admitPolicy {d : Policy.Draft} {p : Policy} (h : c.admitPolicy d = .ok p) :
    p.Admissible := by
  unfold admitPolicy at h
  simp only [bind_eq_ok_iff] at h
  obtain ⟨defaults, hdefaults, rules, hrules, heq⟩ := h
  obtain rfl := Except.ok.inj heq
  exact ⟨Defaults.admissible_of_accept (mapError_eq_ok_iff.mp hdefaults),
    admissible_of_admitRules c hrules⟩

/-- Whatever a client asks for, the ledger keeps a policy all of whose parts have been accepted,
step by step. -/
theorem keeps_request (r : Request) :
    Keeps (fun s : Site => s.ledger.Kept) (r.operation c) := by
  cases r with
  | role => exact keeps_roleFor c _
  | rules onlyEnabled => exact keeps_consult c _
  | defaults => exact keeps_defaults c
  | exportPolicy =>
      exact keeps_bind (keeps_defaults c) fun _ => keeps_bind (keeps_consult c _) fun _ =>
        keeps_pure _
  | renderScript => exact keeps_renderScript c
  | check => exact keeps_bind (keeps_renderScript c) fun _ => keeps_handOff c _ _
  | trail limit => exact keeps_consult c _
  | addRule d =>
      -- what is stored under the lock has been accepted before
      refine keeps_bind (keeps_authorize c _) fun _ => keeps_admitted fun r hr => ?_
      refine keeps_lock (keeps_bind ?_ fun id => ?_)
      · exact keeps_call c (.create r) (admissible_of_admitRule c hr) fun _ _ _ => rfl
      · exact keeps_bind (keeps_note c _ _ _) fun _ => keeps_pure _
  | deleteRule id =>
      refine keeps_bind (keeps_authorize c _) fun _ => keeps_lock (keeps_bind ?_ fun found => ?_)
      · exact keeps_call c (.delete id) trivial fun _ _ _ => rfl
      · dsimp only
        split
        · exact keeps_bind (keeps_note c _ _ _) fun _ => keeps_pure _
        · exact keeps_pure _
  | setDefaults d =>
      refine keeps_bind (keeps_authorize c _) fun _ => keeps_admitted fun defaults hdefaults => ?_
      refine keeps_bind (keeps_lock (keeps_bind ?_ fun _ => keeps_note c _ _ _)) fun _ =>
        keeps_pure _
      exact keeps_call c (.setDefaults defaults)
        (Defaults.admissible_of_accept (mapError_eq_ok_iff.mp hdefaults)) fun _ _ _ => rfl
  | importPolicy d =>
      refine keeps_bind (keeps_authorize c _) fun _ => keeps_admitted fun p hp => ?_
      refine keeps_lock (keeps_bind ?_ fun ids => ?_)
      · have hadmissible := admissible_of_admitPolicy c hp
        exact keeps_call c (.replaceAll p.defaults p.rules)
          ⟨hadmissible.defaults, hadmissible.rules⟩ fun _ _ _ => rfl
      · exact keeps_bind (keeps_note c _ _ _) fun _ => keeps_pure _
  | apply =>
      refine keeps_bind (keeps_authorize c _) fun _ => keeps_lock ?_
      refine keeps_bind (keeps_defaults c) fun _ => keeps_bind (keeps_consult c _) fun _ => ?_
      refine keeps_bind (keeps_handOff c _ _) fun _ => ?_
      exact keeps_bind (keeps_note c _ _ _) fun _ => keeps_pure _

end Client

/-- The ledger of a reachable site holds a policy all of whose parts have been accepted. -/
theorem Site.Reachable.kept {s : Site} (h : s.Reachable) : s.ledger.Kept := by
  induction h with
  | new hnew =>
      rw [hnew]
      exact Ledger.kept_openBlank
  | request c r _ ih => exact (Client.keeps_request c r).run ih
  | reopened _ ih =>
      obtain ⟨p, hholds, hp⟩ := ih
      exact ⟨p, by rwa [Ledger.bringUpToDate_of_upToDate hholds.1], hp⟩
  | surroundings _ heq ih =>
      obtain ⟨p, ⟨hversion, highest, htables, hnumbered⟩, hp⟩ := ih
      rw [heq]
      exact ⟨p, ⟨hversion, highest, htables, hnumbered⟩, hp⟩

end PacketPolicy
