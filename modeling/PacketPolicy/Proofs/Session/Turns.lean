import PacketPolicy.Proofs.Session.Phases
import PacketPolicy.Proofs.Session.Transfer

/-!
# Changes take turns

Any number of clients change a policy at the same time.  Whoever has the lock has it alone, and all
comes out as if those who have had it had come one after another, each without interruption.

* `Turn` -- an errand that is done without interruption;
* `Site.InTurn` -- turns one after another, with nothing but time between them;
* `World.Free`, `World.Busy` -- nobody has the lock, or one errand has it;
* `World.Orderly` -- the invariant; `Orderly.advance`, `Orderly.passes` -- it is kept by all steps;
* `changes_take_turns` -- what it comes to in the end.
-/

namespace PacketPolicy

variable {ι : Type}

/-- An errand that is done without interruption: the site before and after it, and its result. -/
structure Turn (errands : ι → Errand) where
  who : ι
  before : Site
  result : Except Failure (errands who).request.Result
  after : Site
  uninterrupted : Operation.run (errands who).operation before = (result, after)

/-- What is answered at the end of a turn. -/
def Turn.answer {errands : ι → Errand} (t : Turn errands) : Answer :=
  ⟨(errands t.who).request, t.result⟩

namespace Site

/-- Turns that are taken one after another, with nothing but time between them. -/
def InTurn {errands : ι → Errand} (s : Site) : List (Turn errands) → Site → Prop
  | [], s' => s.Passes s'
  | t :: rest, s' => s.Passes t.before ∧ t.after.InTurn rest s'

variable {errands : ι → Errand} {s s' s'' : Site} {turns : List (Turn errands)}

theorem InTurn.passes (h : s.InTurn turns s') (htime : s'.Passes s'') : s.InTurn turns s'' := by
  induction turns generalizing s with
  | nil => exact Passes.trans h htime
  | cons t rest ih => exact ⟨h.1, ih h.2⟩

/-- One more turn. -/
theorem InTurn.append (h : s.InTurn turns s') {t : Turn errands} (hbefore : s'.Passes t.before)
    (hafter : t.after.Passes s'') : s.InTurn (turns ++ [t]) s'' := by
  induction turns generalizing s with
  | nil => exact ⟨Passes.trans h hbefore, hafter⟩
  | cons first rest ih => exact ⟨h.1, ih h.2⟩

/-- Turns that begin on a reachable site lead from reachable sites to reachable sites. -/
theorem InTurn.reachable (hs : s.Reachable) (h : s.InTurn turns s') :
    (∀ t ∈ turns, t.before.Reachable) ∧ s'.Reachable := by
  have htime {s s' : Site} (hs : s.Reachable) (h : s.Passes s') : s'.Reachable := by
    obtain ⟨now, clock, rfl⟩ := h
    exact .surroundings hs rfl
  induction turns generalizing s with
  | nil => exact ⟨fun _ ht => absurd ht List.not_mem_nil, htime hs h⟩
  | cons t rest ih =>
      have hbefore := htime hs h.1
      have hafter := Site.Reachable.request (errands t.who).client (errands t.who).request hbefore
      rw [show Operation.run ((errands t.who).request.operation (errands t.who).client) t.before =
        (t.result, t.after) from t.uninterrupted] at hafter
      obtain ⟨hothers, hend⟩ := ih hafter h.2
      exact ⟨List.forall_mem_cons.mpr ⟨hbefore, hothers⟩, hend⟩

end Site

namespace World

variable {users : Option (List Ledger.UserRow)} {errands : ι → Errand} {first : Site} {w : World ι}

/-- Nobody has the lock, and all who have had it have come to their end in turn. -/
structure Free (first : Site) (turns : List (Turn errands)) (w : World ι) : Prop where
  order : w.order = turns.map Turn.who
  holds : ∀ i, w.holds i = false
  inTurn : first.InTurn turns w.site

/-- One errand has the lock, which it took where the others before it had come to their end in
turn. -/
structure Busy (first : Site) (turns : List (Turn errands)) (w : World ι) (i : ι) : Prop where
  order : w.order = turns.map Turn.who ++ [i]
  holds : ∀ j, w.holds j = true ↔ j = i
  held : w.site.lock.held = true
  inTurn : ∃ free, first.InTurn turns free ∧
    Inside first.ledger.users (errands i) free w.site (w.left i)

/-- What holds of all worlds that errands make when they begin on the first site. -/
structure Orderly (errands : ι → Errand) (first : Site) (w : World ι) : Prop where
  users : w.site.ledger.users = first.ledger.users
  nodup : w.order.Nodup
  outside : ∀ i ∉ w.order, Outside first.ledger.users (errands i) (w.left i)
  turns : ∃ turns : List (Turn errands), (∀ t ∈ turns, w.left t.who = .done t.answer) ∧
    (Free first turns w ∨ ∃ i, Busy first turns w i)

theorem Busy.mem {turns : List (Turn errands)} {i : ι} (h : Busy first turns w i) :
    i ∈ w.order := by
  rw [h.order]
  exact List.mem_append_right _ List.mem_cons_self

theorem Busy.not_mem {turns : List (Turn errands)} {i : ι} (h : Busy first turns w i)
    (hnodup : w.order.Nodup) : i ∉ turns.map Turn.who := by
  rw [h.order, List.nodup_append] at hnodup
  exact fun hmem => hnodup.2.2 i hmem i List.mem_cons_self rfl

theorem orderly_start (errands : ι → Errand) (first : Site) :
    Orderly errands first (start errands first) where
  users := rfl
  nodup := List.nodup_nil
  outside _ _ := .begun
  turns := ⟨[], fun _ ht => absurd ht List.not_mem_nil,
    Or.inl ⟨rfl, fun _ => rfl, Site.Passes.refl first⟩⟩

/-- Time passes for all of them. -/
theorem Orderly.passes (h : Orderly errands first w) {s : Site} (htime : w.site.Passes s) :
    Orderly errands first { w with site := s } := by
  obtain ⟨turns, hdone, hstate⟩ := h.turns
  have husers : s.ledger.users = w.site.ledger.users := by
    obtain ⟨now, clock, rfl⟩ := htime
    rfl
  have hlock : s.lock = w.site.lock := by
    obtain ⟨now, clock, rfl⟩ := htime
    rfl
  refine ⟨husers.trans h.users, h.nodup, h.outside, turns, hdone, ?_⟩
  rcases hstate with hfree | ⟨i, hbusy⟩
  · exact Or.inl ⟨hfree.order, hfree.holds, hfree.inTurn.passes htime⟩
  · obtain ⟨free, hturns, hinside⟩ := hbusy.inTurn
    exact Or.inr ⟨i, hbusy.order, hbusy.holds, hlock ▸ hbusy.held, free, hturns,
      hinside.passes htime⟩

variable [DecidableEq ι]

/-- What is left to do of another errand does not matter to the turns that have been taken. -/
theorem done_update {turns : List (Turn errands)} {i : ι} {p : Process Site Answer}
    (hdone : ∀ t ∈ turns, w.left t.who = .done t.answer) (hi : i ∉ turns.map Turn.who) :
    ∀ t ∈ turns, Function.update w.left i p t.who = .done t.answer := by
  intro t ht
  rw [Function.update_of_ne]
  · exact hdone t ht
  · rintro rfl
    exact hi (List.mem_map_of_mem ht)

theorem outside_update {order : List ι} {i : ι} {p : Process Site Answer}
    (houtside : ∀ j ∉ order, Outside users (errands j) (w.left j))
    (hp : i ∉ order → Outside users (errands i) p) :
    ∀ j ∉ order, Outside users (errands j) (Function.update w.left i p j) := by
  intro j hj
  by_cases hij : j = i
  · subst hij
    rw [Function.update_self]
    exact hp hj
  · rw [Function.update_of_ne hij]
    exact houtside j hj

/-- A step of an errand that has not had the lock and does not get it. -/
theorem Orderly.moved_outside (h : Orderly errands first w) {i : ι} (hi : i ∉ w.order)
    {p : Process Site Answer} (hp : Outside first.ledger.users (errands i) p) {s : Site}
    (htime : w.site.Passes s) : Orderly errands first (w.moved i p s) := by
  obtain ⟨husers, hnodup, houtside, turns, hdone, hstate⟩ := h.passes htime
  refine ⟨husers, hnodup, outside_update houtside fun _ => hp, turns, ?_, ?_⟩
  · refine done_update hdone fun hmem => hi ?_
    rcases hstate with hfree | ⟨k, hbusy⟩
    · rw [show w.order = _ from hfree.order]
      exact hmem
    · rw [show w.order = _ from hbusy.order]
      exact List.mem_append_left _ hmem
  · rcases hstate with hfree | ⟨k, hbusy⟩
    · exact Or.inl ⟨hfree.order, hfree.holds, hfree.inTurn⟩
    · obtain ⟨free, hturns, hinside⟩ := hbusy.inTurn
      have hk : k ≠ i := by
        rintro rfl
        exact hi hbusy.mem
      refine Or.inr ⟨k, hbusy.order, hbusy.holds, hbusy.held, free, hturns, ?_⟩
      rw [moved_left, Function.update_of_ne hk]
      exact hinside

/-- An errand gets the lock only where nobody has it, and then is the one that has it. -/
theorem Orderly.taken (h : Orderly errands first w) {i : ι} (hi : i ∉ w.order)
    {lock : ChangeLock} {p : Process Site Answer} {s : Site}
    (hacquire : Lockable.acquire lock w.site = .ok s)
    (hp : Inside first.ledger.users (errands i) w.site s p) :
    Orderly errands first ((w.moved i p s).taken i) := by
  obtain ⟨husers, hnodup, houtside, turns, hdone, hstate⟩ := h
  obtain rfl := Site.eq_locked_of_acquire hacquire
  rcases hstate with hfree | ⟨k, hbusy⟩
  · have hnew : i ∉ turns.map Turn.who := hfree.order ▸ hi
    refine ⟨husers, ?_, ?_, turns, done_update hdone hnew, Or.inr ⟨i, ?_, ?_, rfl, w.site,
      hfree.inTurn, ?_⟩⟩
    · show (w.order ++ [i]).Nodup
      rw [List.nodup_append]
      refine ⟨hnodup, List.nodup_cons.mpr ⟨List.not_mem_nil, List.nodup_nil⟩, fun a ha b hb => ?_⟩
      rw [List.mem_singleton.mp hb]
      rintro rfl
      exact hi ha
    · refine outside_update (fun j hj => houtside j fun hmem => hj ?_) fun hmem => ?_
      · exact List.mem_append_left _ hmem
      · exact absurd (List.mem_append_right w.order List.mem_cons_self) hmem
    · exact congrArg (· ++ [i]) hfree.order
    · intro j
      show Function.update w.holds i true j = true ↔ j = i
      by_cases hj : j = i
      · simp [hj]
      · simp [hj, hfree.holds j]
    · rw [taken_left, moved_left, Function.update_self]
      exact hp
  · -- nobody gets a lock that somebody else has
    change Site.acquire lock w.site = _ at hacquire
    unfold Site.acquire at hacquire
    rw [hbusy.held] at hacquire
    split at hacquire <;> cases hacquire

/-- A step of the errand that has the lock. -/
theorem Orderly.moved_inside (h : Orderly errands first w) {turns : List (Turn errands)} {i : ι}
    (hdone : ∀ t ∈ turns, w.left t.who = .done t.answer) (hbusy : Busy first turns w i)
    {effect : Site → Site} {next : Site → Process Site Answer}
    (hleft : w.left i = .act effect next) :
    Orderly errands first (w.moved i (next w.site) (effect w.site)) := by
  obtain ⟨free, hturns, hinside⟩ := hbusy.inTurn
  rw [hleft] at hinside
  obtain ⟨⟨husers, hlock⟩, hnext⟩ := hinside.act h.users
  refine ⟨husers, h.nodup, outside_update h.outside fun hout => absurd hbusy.mem hout, turns,
    done_update hdone (hbusy.not_mem h.nodup),
    Or.inr ⟨i, hbusy.order, hbusy.holds, ?_, free, hturns, ?_⟩⟩
  · show (effect w.site).lock.held = true
    rw [hlock]
    exact hbusy.held
  · rw [moved_left, Function.update_self]
    exact hnext

/-- When the lock is given back, a turn has come to its end. -/
theorem Orderly.returned (h : Orderly errands first w) {turns : List (Turn errands)} {i : ι}
    (hdone : ∀ t ∈ turns, w.left t.who = .done t.answer) (hbusy : Busy first turns w i)
    {lock : ChangeLock} {next : Process Site Answer} (hleft : w.left i = .release lock next) :
    Orderly errands first ((w.moved i next (Lockable.release lock w.site)).returned i) := by
  obtain ⟨free, hturns, hinside⟩ := hbusy.inTurn
  rw [hleft] at hinside
  obtain ⟨result, now', clock', now, clock, rfl, hrun⟩ := hinside.release
  let turn : Turn errands := ⟨i, _, result, _, hrun⟩
  refine ⟨h.users, h.nodup, outside_update h.outside fun hout => absurd hbusy.mem hout,
    turns ++ [turn], ?_, Or.inl ⟨?_, ?_, ?_⟩⟩
  · intro t ht
    rcases List.mem_append.mp ht with hold | hlast
    · exact done_update hdone (hbusy.not_mem h.nodup) t hold
    · obtain rfl := List.mem_singleton.mp hlast
      exact Function.update_self _ _ _
  · show w.order = _
    rw [hbusy.order, List.map_append]
    rfl
  · intro j
    show Function.update w.holds i false j = false
    by_cases hj : j = i
    · simp [hj]
    · rw [Function.update_of_ne hj]
      exact Bool.eq_false_iff.mpr fun hholds => hj ((hbusy.holds j).mp hholds)
  · exact hturns.append ⟨now', clock', rfl⟩ ⟨w.site.now, w.site.clock, rfl⟩

/-- Every step keeps the order. -/
theorem Orderly.advance (hchanges : ∀ i, (errands i).request.isChange = true)
    (h : Orderly errands first w) (i : ι) : Orderly errands first (w.advance i) := by
  by_cases hi : i ∈ w.order
  · obtain ⟨turns, hdone, hstate⟩ := h.turns
    have hover (hmem : i ∈ turns.map Turn.who) : Orderly errands first (w.advance i) := by
      obtain ⟨t, ht, rfl⟩ := List.mem_map.mp hmem
      rwa [advance_done (hdone t ht)]
    rcases hstate with hfree | ⟨k, hbusy⟩
    · exact hover (hfree.order ▸ hi)
    · rw [hbusy.order] at hi
      rcases List.mem_append.mp hi with hmem | hlast
      · exact hover hmem
      · obtain rfl := List.mem_singleton.mp hlast
        obtain ⟨free, hturns, hinside⟩ := hbusy.inTurn
        rcases w.advance_cases i with hsame | ⟨effect, next, hleft, hmove⟩ |
          ⟨lock, next, s, hleft, -, -⟩ | ⟨lock, next, e, hleft, -, -⟩ | ⟨lock, next, hleft, hmove⟩
        · rwa [hsame]
        · rw [hmove]
          exact h.moved_inside hdone hbusy hleft
        · exact (Inside.acquire (hleft ▸ hinside)).elim
        · exact (Inside.acquire (hleft ▸ hinside)).elim
        · rw [hmove]
          exact h.returned hdone hbusy hleft
  · have houtside := h.outside i hi
    rcases w.advance_cases i with hsame | ⟨effect, next, hleft, hmove⟩ |
      ⟨lock, next, s, hleft, hacquire, hmove⟩ | ⟨lock, next, e, hleft, -, hmove⟩ |
      ⟨lock, next, hleft, -⟩
    · rwa [hsame]
    all_goals rw [hleft] at houtside
    · obtain ⟨heffect, hnext⟩ := houtside.act (hchanges i) h.users
      rw [hmove, heffect]
      exact h.moved_outside hi hnext ⟨w.site.now, w.site.clock.tail, rfl⟩
    · rw [hmove]
      exact h.taken hi hacquire ((houtside.acquire (hchanges i)).2 _ _ h.users hacquire).2
    · rw [hmove]
      exact h.moved_outside hi ((houtside.acquire (hchanges i)).1 e) (Site.Passes.refl _)
    · exact (houtside.release (hchanges i)).elim

theorem Run.orderly (hchanges : ∀ i, (errands i).request.isChange = true)
    {past : List (World ι)} (h : Run (start errands first) past w) :
    Orderly errands first w := by
  induction h with
  | here => exact orderly_start errands first
  | step _ hstep ih =>
      cases hstep with
      | advance i => exact ih.advance hchanges i
      | passing now clock => exact ih.passes ⟨now, clock, rfl⟩

end World

/-- Loading a policy hands over the script of the policy that the ledger holds at its beginning, or
nothing; and where it succeeds, it tells the size of this script. -/
theorem Client.run_apply_cases {c : Client} {s after : Site} {p : Policy}
    {result : Except Failure Loaded} (hp : s.ledger.Holds p)
    (hrun : Operation.run c.apply s = (result, after)) :
    (after.handOffs = s.handOffs ∨ after.handOffs = c.delivery p :: s.handOffs) ∧
      ∀ loaded, result = .ok loaded →
        loaded = .ofPolicy p ∧ after.handOffs = c.delivery p :: s.handOffs := by
  rcases run_guarded (c := c) .applyRuleset (.ok c.loading) s with ⟨e, hfail⟩ | ⟨body, hbody, hrun'⟩
  · obtain ⟨rfl, rfl⟩ := Prod.mk.inj (hrun.symm.trans hfail)
    exact ⟨Or.inl rfl, fun loaded hloaded => by cases hloaded⟩
  · obtain rfl := Except.ok.inj hbody
    obtain ⟨rfl, rfl⟩ := Prod.mk.inj (hrun.symm.trans hrun')
    rcases run_loading_cases (c := c) (s := s.later.locked) hp with
      ⟨e, after, hfail, -, hhanded⟩ | ⟨journal, hdone, -⟩
    · rw [hfail]
      exact ⟨hhanded, fun loaded hloaded => by cases hloaded⟩
    · rw [hdone]
      exact ⟨Or.inr rfl, fun loaded hloaded => ⟨(Except.ok.inj hloaded).symm, rfl⟩⟩

/-- In a turn in which a policy is loaded, what is handed over is the script of the policy that the
ledger holds at the beginning of the turn. -/
theorem Turn.handOffs_of_apply {errands : ι → Errand} (t : Turn errands)
    (hbefore : t.before.Reachable) {c : Client} (hload : errands t.who = ⟨c, .apply⟩) :
    ∃ p, t.before.ledger.Holds p ∧
      (t.after.handOffs = t.before.handOffs ∨
        t.after.handOffs = c.delivery p :: t.before.handOffs) ∧
      ∀ loaded : Client.Loaded, t.answer = ⟨.apply, .ok loaded⟩ →
        loaded = .ofPolicy p ∧ t.after.handOffs = c.delivery p :: t.before.handOffs := by
  obtain ⟨p, hp, -⟩ := hbefore.kept
  refine ⟨p, hp, ?_⟩
  clear hbefore
  obtain ⟨who, before, result, after, hrun⟩ := t
  unfold Turn.answer
  dsimp only at hload hp ⊢
  generalize errands who = e at hload result hrun
  subst hload
  obtain ⟨hhanded, hdone⟩ := Client.run_apply_cases hp hrun
  exact ⟨hhanded, fun loaded hloaded => hdone loaded (by cases hloaded; rfl)⟩

namespace World

variable [DecidableEq ι] {errands : ι → Errand} {first : Site} {past : List (World ι)} {w : World ι}

/-- Whenever any number of clients change a policy at the same time, one of them at most has the
lock; those who do not get it fail; and when nobody has it, the site and all answers are what they
are after those who have had it have taken turns, in the order in which they got it, each without
interruption.  What is loaded is the script of the policy that the ledger holds at the beginning of
the turn. -/
theorem changes_take_turns (hfirst : first.Reachable)
    (hchanges : ∀ i, (errands i).request.isChange = true)
    (h : Run (start errands first) past w) :
    (∀ i j, w.holds i = true → w.holds j = true → i = j) ∧
      w.order.Nodup ∧
      (∀ i a, w.left i = .done a → i ∈ w.order ∨ ∃ f, a = ⟨(errands i).request, .error f⟩) ∧
      ((∀ i, w.holds i = false) →
        ∃ turns : List (Turn errands),
          turns.map Turn.who = w.order ∧ first.InTurn turns w.site ∧
          ∀ t ∈ turns, w.left t.who = .done t.answer ∧
            ∀ c, errands t.who = ⟨c, .apply⟩ →
              ∃ p, t.before.ledger.Holds p ∧
                (t.after.handOffs = t.before.handOffs ∨
                  t.after.handOffs = c.delivery p :: t.before.handOffs) ∧
                ∀ loaded : Client.Loaded, t.answer = ⟨.apply, .ok loaded⟩ →
                  loaded = .ofPolicy p ∧
                    t.after.handOffs = c.delivery p :: t.before.handOffs) := by
  have horderly := h.orderly hchanges
  obtain ⟨turns, hdone, hstate⟩ := horderly.turns
  refine ⟨?_, horderly.nodup, ?_, ?_⟩
  · intro i j hi hj
    rcases hstate with hfree | ⟨k, hbusy⟩
    · rw [hfree.holds i] at hi
      cases hi
    · exact ((hbusy.holds i).mp hi).trans ((hbusy.holds j).mp hj).symm
  · intro i a ha
    by_cases hi : i ∈ w.order
    · exact Or.inl hi
    · exact Or.inr (Outside.done (hchanges i) (ha ▸ horderly.outside i hi))
  · intro hnobody
    rcases hstate with hfree | ⟨k, hbusy⟩
    · refine ⟨turns, hfree.order.symm, hfree.inTurn, fun t ht => ⟨hdone t ht, fun c hload => ?_⟩⟩
      exact t.handOffs_of_apply ((hfree.inTurn.reachable hfirst).1 t ht) hload
    · have hholds := (hbusy.holds k).mpr rfl
      rw [hnobody k] at hholds
      cases hholds

end World

/-- One client adds a rule, and another one deletes it. -/
def addAndDelete : Bool → Errand
  | false => ⟨rootClient, .addRule sampleRule⟩
  | true => ⟨rootClient, .deleteRule 1⟩

/-- Both have been found to be allowed what they do before either has the lock; the one that deletes
tries in vain to get it before the other one gives it back. -/
def addBeforeDelete : List Bool :=
  [true, false, false, true, false, false, false, true, true, true, true]

/-- The rule has been added when the turn of the other one comes. -/
theorem addAndDelete_turns :
    newSite.Reachable ∧ (∀ i, (addAndDelete i).request.isChange = true) ∧
      ∃ (past : List (World Bool)) (w : World Bool),
        World.Run (.start addAndDelete newSite) past w ∧ (∀ i, w.holds i = false) ∧
        ∃ turns : List (Turn addAndDelete),
          turns.map Turn.who = [false, true] ∧ newSite.InTurn turns w.site := by
  have hchanges : ∀ i, (addAndDelete i).request.isChange = true := by decide
  have hrun := (World.Run.here : World.Run (.start addAndDelete newSite) [] _).play addBeforeDelete
  have hnobody :
      ∀ i, ((World.start addAndDelete newSite).play addBeforeDelete).holds i = false := by
    decide +kernel
  have horder :
      ((World.start addAndDelete newSite).play addBeforeDelete).order = [false, true] := by
    decide +kernel
  obtain ⟨turns, hturns, hinTurn, -⟩ :=
    (World.changes_take_turns newSite_reachable hchanges hrun).2.2.2 hnobody
  exact ⟨newSite_reachable, hchanges, _, _, hrun, hnobody, turns, hturns.trans horder, hinTurn⟩

end PacketPolicy
