import PacketPolicy.Proofs.Session.Interleaving
import PacketPolicy.Proofs.Session.Journal
import PacketPolicy.Proofs.Session.Transfer

/-!
# Readers among writers

A client that exports a policy or renders its script reads the defaults in one step and the rules in
another, without the lock.  Others may change the policy in between.

* `Client.reading` -- what export and rendering have in common;
* `World.Progress` -- how far a reader has come, and what he knows from which world;
* `reads_two_policies` -- the defaults are those of one world of the run, and the rules those of a
  later one;
* `export_mixes_policies` -- the two need not be the same policy.
-/

namespace PacketPolicy

namespace Client

variable {α : Type} {c : Client}

/-- The defaults are read, then the rules, and something is made of both. -/
def reading (c : Client) (onlyEnabled : Bool) (make : Defaults → List Rule → α) :
    Operation Site α := do
  let defaults ← c.defaults
  let rules ← c.rules onlyEnabled
  return make defaults rules

/-- What is left to do once the defaults have been read. -/
def resumed (c : Client) (onlyEnabled : Bool) (make : Defaults → List Rule → α) (d : Defaults) :
    Operation Site α := do
  let rules ← c.rules onlyEnabled
  return make d rules

theorem reading_eq (onlyEnabled : Bool) (make : Defaults → List Rule → α) :
    c.reading onlyEnabled make = c.consult (fun _ => Ledger.loadDefaults) >>= fun found =>
      (match found with
        | some d => pure d
        | none => c.transact fun _ => Ledger.seedDefaults) >>= c.resumed onlyEnabled make := by
  unfold reading defaults
  rw [Operation.bind_assoc]
  rfl

end Client

namespace World

variable {ι : Type} {α : Type} {c : Client} {onlyEnabled : Bool}
  {make : Defaults → List Rule → α} {tell : Except Failure α → Answer}
  {past : List (World ι)} {w : World ι}

/-- How far a reader has come, and which worlds of the past what he knows is from. -/
inductive Progress (c : Client) (onlyEnabled : Bool) (make : Defaults → List Rule → α)
    (tell : Except Failure α → Answer) (past : List (World ι)) : Process Site Answer → Prop where
  | begun :
      Progress c onlyEnabled make tell past
        ((ExceptT.run (c.reading onlyEnabled make)).bind fun result => .done (tell result))
  | resumed {v : World ι} {p : Policy} (hv : v ∈ past) (hp : v.site.ledger.Holds p) :
      Progress c onlyEnabled make tell past
        ((ExceptT.run (c.resumed onlyEnabled make p.defaults)).bind fun result =>
          .done (tell result))
  | ended {v v' : World ι} {p p' : Policy} (hpast : [v, v'].Sublist past)
      (hp : v.site.ledger.Holds p) (hp' : v'.site.ledger.Holds p') :
      Progress c onlyEnabled make tell past
        (.done (tell (.ok (make p.defaults (p'.selected onlyEnabled)))))
  | failed (e : Failure) : Progress c onlyEnabled make tell past (.done (tell (.error e)))

/-- What the reader knows stays what it is while others take their steps. -/
theorem Progress.wait {process : Process Site Answer}
    (h : Progress c onlyEnabled make tell past process) (w : World ι) :
    Progress c onlyEnabled make tell (past ++ [w]) process := by
  cases h with
  | begun => exact .begun
  | resumed hv hp => exact .resumed (List.mem_append_left _ hv) hp
  | ended hpast hp hp' => exact .ended (hpast.trans (List.sublist_append_left past [w])) hp hp'
  | failed e => exact .failed e

/-- What a reader comes to know in the end. -/
theorem Progress.answer {a : α} (h : Progress c onlyEnabled make tell past (.done (tell (.ok a))))
    (htell : ∀ x y, tell x = tell y → x = y) :
    ∃ v v' p p', [v, v'].Sublist past ∧ v.site.ledger.Holds p ∧ v'.site.ledger.Holds p' ∧
      a = make p.defaults (p'.selected onlyEnabled) := by
  generalize hend : Process.done (tell (.ok a)) = process at h
  cases h with
  | begun =>
      rw [Client.reading_eq, Client.consult_bind] at hend
      cases hend
  | resumed hv hp =>
      unfold Client.resumed Client.rules at hend
      rw [Client.consult_bind] at hend
      cases hend
  | ended hpast hp hp' =>
      have hsame := htell _ _ (Process.done.inj hend)
      exact ⟨_, _, _, _, hpast, hp, hp', Except.ok.inj hsame⟩
  | failed e =>
      have hsame := htell _ _ (Process.done.inj hend)
      cases hsame

variable [DecidableEq ι]

/-- A step of the reader himself adds what he reads in the present world. -/
theorem Progress.advance {i : ι} (hw : w.site.ledger.Kept)
    (h : Progress c onlyEnabled make tell past (w.left i)) :
    Progress c onlyEnabled make tell (past ++ [w]) ((w.advance i).left i) := by
  obtain ⟨p, hp, -⟩ := hw
  generalize hleft : w.left i = process at h
  cases h with
  | begun =>
      rw [Client.reading_eq] at hleft
      rw [advance_consult hleft, moved_left, Function.update_self]
      -- the defaults that are found are those of the present policy
      rcases hp.commit_loadDefaults (w.site.deadline c.budget) with ⟨e, hlate⟩ | hdone
      · rw [hlate]
        exact .failed e
      · rw [hdone]
        exact .resumed (List.mem_append_right past List.mem_cons_self) hp
  | @resumed v q hv hq =>
      unfold Client.resumed Client.rules at hleft
      rw [advance_consult hleft, moved_left, Function.update_self]
      rcases hp.commit_list onlyEnabled (w.site.deadline c.budget) with ⟨e, hlate⟩ | hdone
      · rw [hlate]
        exact .failed e
      · rw [hdone]
        -- the world that the defaults are from has gone before the present one
        exact .ended ((List.singleton_sublist.mpr hv).append (List.Sublist.refl [w])) hq hp
  | ended hpast hq hq' =>
      rw [advance_done hleft, hleft]
      exact (Progress.ended hpast hq hq').wait w
  | failed e =>
      rw [advance_done hleft, hleft]
      exact .failed e

variable {errands : ι → Errand} {s : Site}

/-- In any run, what a reader knows is from worlds of the past. -/
theorem Run.progress {i : ι} (hs : s.Reachable)
    (hbegun : (errands i).process =
      (ExceptT.run (c.reading onlyEnabled make)).bind fun result => .done (tell result))
    (h : Run (start errands s) past w) : Progress c onlyEnabled make tell past (w.left i) := by
  induction h with
  | here =>
      show Progress c onlyEnabled make tell [] (errands i).process
      rw [hbegun]
      exact .begun
  | @step past w w' hrun hstep ih =>
      cases hstep with
      | advance j =>
          by_cases hj : i = j
          · subst hj
            exact ih.advance (hrun.kept hs).2
          · rw [advance_left_of_ne w hj]
            exact ih.wait w
      | passing now clock => exact ih.wait w

/-- Whatever others do in the meantime, a policy that is exported has the defaults of one world of
the run and the rules of a later one, and a script is made of two worlds in the same way. -/
theorem reads_two_policies (hs : s.Reachable) (h : Run (start errands s) past w) {i : ι} :
    (∀ q : Policy, errands i = ⟨c, .exportPolicy⟩ → w.left i = .done ⟨.exportPolicy, .ok q⟩ →
      ∃ v v' p p', [v, v'].Sublist past ∧ v.site.ledger.Holds p ∧ v'.site.ledger.Holds p' ∧
        q = ⟨p.defaults, p'.rules⟩) ∧
    (∀ text : String, errands i = ⟨c, .renderScript⟩ →
      w.left i = .done ⟨.renderScript, .ok text⟩ →
      ∃ v v' p p', [v, v'].Sublist past ∧ v.site.ledger.Holds p ∧ v'.site.ledger.Holds p' ∧
        text = script p.defaults (p'.selected true)) := by
  constructor
  · intro q hi hq
    have hbegun : (errands i).process = (ExceptT.run (c.reading false Policy.mk)).bind
        fun result => .done (Answer.mk .exportPolicy result) := by
      rw [hi]
      rfl
    have hprogress := h.progress hs hbegun
    rw [hq] at hprogress
    exact hprogress.answer fun x y hsame => by cases hsame; rfl
  · intro text hi htext
    have hbegun : (errands i).process = (ExceptT.run (c.reading true script)).bind
        fun result => .done (Answer.mk .renderScript result) := by
      rw [hi]
      rfl
    have hprogress := h.progress hs hbegun
    rw [htext] at hprogress
    exact hprogress.answer fun x y hsame => by cases hsame; rfl

end World

/-! ## A rule that appears in the middle of an export -/

/-- One who reads and one who writes. -/
inductive Party where
  | reader
  | writer
deriving DecidableEq, Repr

/-- A policy that accepts what comes in, apart from what one rule says. -/
def openPolicy : Policy.Draft where
  defaults := { Defaults.initial.draft with input := "accept" }
  rules := [.blank]

/-- The policy is exported while another one is imported. -/
def exportAndImport : Party → Errand
  | .reader => ⟨rootClient, .exportPolicy⟩
  | .writer => ⟨rootClient, .importPolicy openPolicy⟩

/-- The reader has read the defaults when the writer begins, and reads the rules when the writer has
come to his end. -/
def importInBetween : List Party :=
  [.reader, .writer, .writer, .writer, .writer, .writer, .reader]

/-- The policy that has been exported, once it has been. -/
def Answer.exported? : Answer → Option Policy
  | ⟨.exportPolicy, .ok q⟩ => some q
  | _ => none

/-- What is left to do of an errand whose answer is there. -/
def Process.answer? {σ α : Type} : Process σ α → Option α
  | .done a => some a
  | _ => none

theorem Process.eq_done_of_answer? {σ α : Type} {p : Process σ α} {a : α}
    (h : p.answer? = some a) : p = .done a := by
  cases p with
  | done b => exact congrArg done (Option.some.inj h)
  | _ => cases h

theorem Answer.eq_of_exported? {a : Answer} {q : Policy} (h : a.exported? = some q) :
    a = ⟨.exportPolicy, .ok q⟩ := by
  obtain ⟨request, result⟩ := a
  cases request with
  | exportPolicy =>
      cases result with
      | ok q' => cases h; rfl
      | error e => cases h
  | _ => cases h

/-- The defaults from before the import together with the rule that was imported. -/
def mixedPolicy : Policy where
  defaults := .initial
  rules := [⟨1, .input, .all, .accept, none, none, [], [], [], [], none, true⟩]

theorem mixedPolicy_exported :
    ((World.start exportAndImport newSite).play importInBetween).left .reader =
      .done ⟨.exportPolicy, .ok mixedPolicy⟩ := by
  have hexported : (((World.start exportAndImport newSite).play importInBetween).left
      .reader).answer?.bind Answer.exported? = some mixedPolicy := by decide +kernel
  obtain ⟨answer, hanswer, hpolicy⟩ := Option.bind_eq_some_iff.mp hexported
  rw [Answer.eq_of_exported? hpolicy] at hanswer
  exact Process.eq_done_of_answer? hanswer

/-- What is exported while another policy is imported may be the policy of no world at all. -/
theorem export_mixes_policies :
    newSite.Reachable ∧
      ∃ (past : List (World Party)) (w : World Party) (q : Policy),
        World.Run (.start exportAndImport newSite) past w ∧
        w.left .reader = .done ⟨.exportPolicy, .ok q⟩ ∧
        ∀ v ∈ past ++ [w], ¬ v.site.ledger.Holds q := by
  refine ⟨newSite_reachable, _, _, mixedPolicy, World.Run.here.play importInBetween,
    mixedPolicy_exported, ?_⟩
  have hnone : ∀ v ∈ ([] ++ (World.start exportAndImport newSite).along importInBetween) ++
      [(World.start exportAndImport newSite).play importInBetween],
      v.site.ledger.policy ≠ mixedPolicy := by decide +kernel
  exact fun v hv hholds => hnone v hv hholds.policy_eq

/-- The two worlds that the mixed policy is from. -/
theorem mixedPolicy_two_worlds :
    newSite.Reachable ∧
      ∃ (past : List (World Party)) (w : World Party),
        World.Run (.start exportAndImport newSite) past w ∧
        w.left .reader = .done ⟨.exportPolicy, .ok mixedPolicy⟩ ∧
        ∃ v v' p p', [v, v'].Sublist past ∧ v.site.ledger.Holds p ∧ v'.site.ledger.Holds p' ∧
          mixedPolicy = ⟨p.defaults, p'.rules⟩ := by
  have hrun := (World.Run.here : World.Run (.start exportAndImport newSite) [] _).play
    importInBetween
  exact ⟨newSite_reachable, _, _, hrun, mixedPolicy_exported,
    (World.reads_two_policies newSite_reachable hrun (i := .reader)).1 mixedPolicy rfl
      mixedPolicy_exported⟩

end PacketPolicy
