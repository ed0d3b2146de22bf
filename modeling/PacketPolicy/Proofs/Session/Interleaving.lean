import Mathlib.Logic.Function.Basic
import PacketPolicy.Proofs.Session.Changes

/-!
# Clients that work at the same time

Any number of errands are under way on one site, each of them a request of a client; a client that
asks for several things has several errands.  At any time one of them takes its next step, or time
passes.

* `Errand`, `Errand.process` -- a request of a client, and what is to be done about it;
* `World` -- the site, what is left to do of each errand, and who has had the lock;
* `World.advance` -- the next step of an errand; `advance_cases` -- all that such a step can do;
* `World.Step`, `World.Run` -- steps in whatever order, and what has gone before;
* `World.play` -- steps in a given order;
* `Run.keeps` -- what every step of every errand keeps is kept.
-/

namespace PacketPolicy

/-- A request of a client. -/
structure Errand where
  client : Client
  request : Request

/-- What was asked for and what was answered. -/
structure Answer where
  request : Request
  result : Except Failure request.Result

namespace Errand

/-- What is done about the request. -/
def operation (e : Errand) : Operation Site e.request.Result :=
  e.request.operation e.client

/-- The end of it. -/
def tell (e : Errand) (result : Except Failure e.request.Result) : Process Site Answer :=
  .done ⟨e.request, result⟩

/-- What is done about the request until it is answered. -/
def process (e : Errand) : Process Site Answer :=
  (ExceptT.run e.operation).bind e.tell

end Errand

/-- A transaction that reads is a single step, which takes time and nothing else. -/
theorem Client.consult_bind {α β : Type} (c : Client) (t : Site → Ledger.Transaction α)
    (k : α → Operation Site β) :
    ExceptT.run (c.consult t >>= k) = .act Site.later fun s =>
      match ((t s).commit (s.deadline c.budget) s.ledger).1 with
      | .ok a => ExceptT.run (k a)
      | .error e => .done (.error e) := by
  refine congrArg (Process.act Site.later) (funext fun s => ?_)
  show Process.bind _ (Process.done _) = _
  cases ((t s).commit (s.deadline c.budget) s.ledger).1 <;> rfl

/-- The site at another time. -/
def Site.atTime (s : Site) (now : Timestamp) (clock : List (Option Nat)) : Site :=
  { s with now, clock }

/-- Errands on one site. -/
structure World (ι : Type) where
  site : Site
  /-- What is left to do of each errand. -/
  left : ι → Process Site Answer
  /-- Who has taken the lock and not given it back. -/
  holds : ι → Bool
  /-- Who has taken the lock so far, in this order. -/
  order : List ι

namespace World

variable {ι : Type}

/-- Errands of which nothing has been done yet. -/
def start (errands : ι → Errand) (s : Site) : World ι where
  site := s
  left i := (errands i).process
  holds _ := false
  order := []

variable [DecidableEq ι]

/-- The world with something else left to do of one errand, and another site. -/
def moved (w : World ι) (i : ι) (p : Process Site Answer) (s : Site) : World ι :=
  { w with site := s, left := Function.update w.left i p }

/-- The world in which an errand has just taken the lock. -/
def taken (w : World ι) (i : ι) : World ι :=
  { w with holds := Function.update w.holds i true, order := w.order ++ [i] }

/-- The world in which an errand has just given the lock back. -/
def returned (w : World ι) (i : ι) : World ι :=
  { w with holds := Function.update w.holds i false }

/-- The next step of an errand.  Where there is none left, nothing happens; nor does it where
somebody else holds the lock and the client waits for it for ever. -/
def advance (w : World ι) (i : ι) : World ι :=
  match w.left i with
  | .done _ => w
  | .act effect next => w.moved i (next w.site) (effect w.site)
  | .acquire lock next =>
      match Lockable.acquire lock w.site with
      | .ok s => (w.moved i (next (.ok ())) s).taken i
      | .error e =>
          if w.site.lock.fault.isNone && lock.patience.isNone then w
          else w.moved i (next (.error e)) w.site
  | .release lock next => (w.moved i next (Lockable.release lock w.site)).returned i

/-- An errand takes a step, or time passes. -/
inductive Step (w : World ι) : World ι → Prop where
  | advance (i : ι) : Step w (w.advance i)
  | passing (now : Timestamp) (clock : List (Option Nat)) :
      Step w { w with site := w.site.atTime now clock }

/-- What can become of a world, with all the worlds on the way there, the first one first. -/
inductive Run (first : World ι) : List (World ι) → World ι → Prop where
  | here : Run first [] first
  | step {past : List (World ι)} {w w' : World ι} (h : Run first past w) (hstep : w.Step w') :
      Run first (past ++ [w]) w'

/-- All that a step of an errand can do. -/
theorem advance_cases (w : World ι) (i : ι) :
    w.advance i = w ∨
    (∃ effect next, w.left i = .act effect next ∧
      w.advance i = w.moved i (next w.site) (effect w.site)) ∨
    (∃ lock next s, w.left i = .acquire lock next ∧ Lockable.acquire lock w.site = .ok s ∧
      w.advance i = (w.moved i (next (.ok ())) s).taken i) ∨
    (∃ lock next e, w.left i = .acquire lock next ∧ Lockable.acquire lock w.site = .error e ∧
      w.advance i = w.moved i (next (.error e)) w.site) ∨
    ∃ lock next, w.left i = .release lock next ∧
      w.advance i = (w.moved i next (Lockable.release lock w.site)).returned i := by
  unfold advance
  cases hleft : w.left i with
  | done a => exact Or.inl rfl
  | act effect next => exact Or.inr (Or.inl ⟨effect, next, rfl, rfl⟩)
  | acquire lock next =>
      cases hacquire : Lockable.acquire lock w.site with
      | ok s =>
          simp only [hacquire]
          exact Or.inr (Or.inr (Or.inl ⟨lock, next, s, rfl, hacquire, rfl⟩))
      | error e =>
          simp only [hacquire]
          split
          · exact Or.inl rfl
          · exact Or.inr (Or.inr (Or.inr (Or.inl ⟨lock, next, e, rfl, hacquire, rfl⟩)))
  | release lock next => exact Or.inr (Or.inr (Or.inr (Or.inr ⟨lock, next, rfl, rfl⟩)))

@[simp]
theorem moved_left (w : World ι) (i : ι) (p : Process Site Answer) (s : Site) :
    (w.moved i p s).left = Function.update w.left i p := rfl

@[simp]
theorem taken_left (w : World ι) (i : ι) : (w.taken i).left = w.left := rfl

@[simp]
theorem returned_left (w : World ι) (i : ι) : (w.returned i).left = w.left := rfl

theorem advance_done {w : World ι} {i : ι} {a : Answer} (h : w.left i = .done a) :
    w.advance i = w := by
  simp [advance, h]

theorem advance_act {w : World ι} {i : ι} {effect : Site → Site}
    {next : Site → Process Site Answer} (h : w.left i = .act effect next) :
    w.advance i = w.moved i (next w.site) (effect w.site) := by
  simp [advance, h]

/-- The step of an errand that reads next. -/
theorem advance_consult {α β : Type} {w : World ι} {i : ι} {c : Client}
    {t : Site → Ledger.Transaction α} {k : α → Operation Site β}
    {tell : Except Failure β → Process Site Answer}
    (h : w.left i = (ExceptT.run (c.consult t >>= k)).bind tell) :
    w.advance i = w.moved i
      ((match ((t w.site).commit (w.site.deadline c.budget) w.site.ledger).1 with
        | .ok a => ExceptT.run (k a)
        | .error e => .done (.error e)).bind tell)
      w.site.later := by
  rw [Client.consult_bind] at h
  exact advance_act h

/-- Only the errand that takes the step has anything else left to do afterwards. -/
theorem advance_left_of_ne (w : World ι) {i j : ι} (h : j ≠ i) :
    (w.advance i).left j = w.left j := by
  rcases w.advance_cases i with hsame | ⟨_, _, -, hmove⟩ | ⟨_, _, _, -, -, hmove⟩ |
    ⟨_, _, _, -, -, hmove⟩ | ⟨_, _, -, hmove⟩
  · rw [hsame]
  all_goals simp [hmove, h]

/-! ## Schedules -/

/-- The worlds on the way when some errands take one step each, in this order. -/
def along (w : World ι) : List ι → List (World ι)
  | [] => []
  | i :: rest => w :: (w.advance i).along rest

/-- The world after some errands have taken one step each, in this order. -/
def play (w : World ι) (schedule : List ι) : World ι :=
  schedule.foldl advance w

theorem Run.play {first : World ι} {past : List (World ι)} {w : World ι} (h : Run first past w)
    (schedule : List ι) : Run first (past ++ w.along schedule) (w.play schedule) := by
  induction schedule generalizing past w with
  | nil =>
      rw [along, List.append_nil]
      exact h
  | cons i rest ih =>
      have hrest := ih (h.step (.advance i))
      rwa [List.append_assoc] at hrest

/-! ## What all steps keep -/

variable {P : Site → Prop}

/-- A step of an errand keeps what each step of the errand keeps. -/
theorem advance_keeps {w : World ι} (hsite : P w.site) (hleft : ∀ i, (w.left i).Keeps P) (i : ι) :
    P (w.advance i).site ∧ ∀ j, ((w.advance i).left j).Keeps P := by
  have hown := hleft i
  have hall {p : Process Site Answer} (hp : p.Keeps P) :
      ∀ j, (Function.update w.left i p j).Keeps P :=
    (Function.forall_update_iff w.left fun _ p => p.Keeps P).mpr ⟨hp, fun j _ => hleft j⟩
  rcases w.advance_cases i with hsame | ⟨effect, next, hnext, hmove⟩ |
    ⟨lock, next, s, hnext, hacquire, hmove⟩ | ⟨lock, next, e, hnext, -, hmove⟩ |
    ⟨lock, next, hnext, hmove⟩
  · rw [hsame]
    exact ⟨hsite, hleft⟩
  all_goals
    rw [hnext] at hown
    rw [hmove]
  · exact ⟨hown.1 _ hsite, hall (hown.2 _ hsite)⟩
  · exact ⟨hown.1 _ _ hsite hacquire, hall (hown.2 _)⟩
  · exact ⟨hsite, hall (hown.2 _)⟩
  · exact ⟨hown.1 _ hsite, hall hown.2⟩

variable {errands : ι → Errand} {s : Site} {past : List (World ι)} {w : World ι}

/-- What every step of every errand keeps, and the time that passes as well, holds of all worlds of
a run if it holds of the first one. -/
theorem Run.keeps (htime : ∀ s now clock, P s → P (s.atTime now clock))
    (hall : ∀ i, (errands i).process.Keeps P) (hs : P s)
    (h : Run (start errands s) past w) :
    (∀ v ∈ past, P v.site) ∧ P w.site ∧ ∀ i, (w.left i).Keeps P := by
  induction h with
  | here => exact ⟨fun _ hv => absurd hv List.not_mem_nil, hs, hall⟩
  | @step past w w' _ hstep ih =>
      obtain ⟨hpast, hsite, hleft⟩ := ih
      refine ⟨fun v hv => ?_, ?_⟩
      · rcases List.mem_append.mp hv with hold | hlast
        · exact hpast v hold
        · rwa [List.mem_singleton.mp hlast]
      · cases hstep with
        | advance i => exact advance_keeps hsite hleft i
        | passing now clock => exact ⟨htime _ now clock hsite, hleft⟩

theorem keeps_process (e : Errand) : e.process.Keeps fun s => s.ledger.Kept :=
  (Client.keeps_request e.client e.request).bind fun _ => trivial

/-- From a reachable site on, all ledgers hold policies all of whose parts have been accepted. -/
theorem Run.kept (hs : s.Reachable) (h : Run (start errands s) past w) :
    (∀ v ∈ past, v.site.ledger.Kept) ∧ w.site.ledger.Kept := by
  obtain ⟨hpast, hsite, -⟩ := h.keeps (P := fun s => s.ledger.Kept) (fun _ _ _ hs => hs)
    (fun i => keeps_process (errands i)) hs.kept
  exact ⟨hpast, hsite⟩

end World
end PacketPolicy
