import PacketPolicy.Proofs.Ledger.Listing
import PacketPolicy.Proofs.Ledger.Soundness

/-!
# Bringing any ledger up to date

A migration is a script of statements, any of which may fail after others have changed tables.  It
takes effect as a whole or not at all, and the migrations that a ledger lacks are taken one after
another until one fails.  This holds of every ledger, half set up or edited by hand.

* `run_error` -- a script fails at one statement, after those in front of it have had their effect;
* `keepsVersions_script` -- no statement of a migration touches the record of versions;
* `Taken` -- migrations that were taken and recorded; `lacking` -- the ones that a ledger lacks;
* `takeSteps_ends` -- how any steps end;
* `readers_firstVersion` -- nobody who reads a policy notices that what belongs to no rule is gone;
* `migrations_taken_whole` -- all of this for the migrations that there are.
-/

namespace PacketPolicy
namespace Ledger

/-! ## Scripts -/

/-- A script that fails has come to a statement that fails, and the statements in front of it have
had their effect by then. -/
theorem run_error {script : Script} {l : Ledger} {fault : Fault} (h : script.run l = .error fault) :
    ∃ before statement behind partly, script = before ++ statement :: behind ∧
      Script.run before l = .ok partly ∧ statement partly = .error fault := by
  induction script generalizing l with
  | nil => cases h
  | cons statement rest ih =>
      rcases bind_eq_error_iff.mp h with hfirst | ⟨mid, hfirst, hrest⟩
      · exact ⟨[], statement, rest, l, rfl, rfl, hfirst⟩
      · obtain ⟨before, failed, behind, partly, rfl, hbefore, hfailed⟩ := ih hrest
        exact ⟨statement :: before, failed, behind, partly, rfl,
          bind_eq_ok_iff.mpr ⟨mid, hfirst, hbefore⟩, hfailed⟩

/-- The statement leaves the record of versions as it is. -/
def KeepsVersions (statement : Ledger → Except Fault Ledger) : Prop :=
  ∀ l m, statement l = .ok m → m.versions = l.versions

theorem keepsVersions_createTable (t : Table) : KeepsVersions (createTable t) := by
  intro l m h
  unfold createTable at h
  split at h
  · cases h
  · cases h
    cases t <;> rfl

theorem keepsVersions_createIndex (part : Part) : KeepsVersions (createIndex part) := by
  intro l m h
  unfold createIndex at h
  split at h
  · cases h
  · split at h
    · cases h
    · cases h
      rfl

theorem keepsVersions_insertDefaults : KeepsVersions insertDefaults := by
  intro l m h
  obtain ⟨rows, -, h⟩ := bind_eq_ok_iff.mp h
  split at h
  · cases h
  · cases h
    rfl

theorem keepsVersions_insertUsers : KeepsVersions insertUsers := by
  intro l m h
  obtain ⟨rows, -, h⟩ := bind_eq_ok_iff.mp h
  split at h
  · cases h
  · cases h
    rfl

theorem keepsVersions_purge (part : Part) : KeepsVersions (purge part) := by
  intro l m h
  obtain ⟨⟨_, after⟩, hchange, rfl⟩ := map_eq_ok_iff.mp h
  exact (changes_changePart hchange).agree.versions

theorem keepsVersions_script {m : Migration} (hm : m ∈ migrations) :
    ∀ statement ∈ m.script, KeepsVersions statement := by
  rcases hm with _ | ⟨_, _ | ⟨_, hnone⟩⟩
  · simp [setUpScript, Part.all, keepsVersions_createTable, keepsVersions_createIndex,
      keepsVersions_insertDefaults, keepsVersions_insertUsers]
  · simp [purgeScript, keepsVersions_purge]
  · cases hnone

/-- What all statements of a script leave as it is, the script does. -/
theorem versions_of_run {script : Script} (hscript : ∀ statement ∈ script, KeepsVersions statement)
    {l after : Ledger} (h : script.run l = .ok after) : after.versions = l.versions := by
  induction script generalizing l with
  | nil =>
      cases h
      rfl
  | cons statement rest ih =>
      obtain ⟨hfirst, hothers⟩ := List.forall_mem_cons.mp hscript
      obtain ⟨mid, hmid, hrest⟩ := bind_eq_ok_iff.mp h
      exact (ih hothers hrest).trans (hfirst l mid hmid)

/-! ## Steps -/

/-- The migrations were taken one after another, each as a whole, and recorded. -/
inductive Taken : Ledger → List Migration → Ledger → Prop where
  | nil {l : Ledger} : Taken l [] l
  | cons {l mid after : Ledger} {m : Migration} {rest : List Migration} :
      m.script.run l = .ok mid → Taken (record m.version mid) rest after → Taken l (m :: rest) after

/-- The steps above a version. -/
def lacking (v : Nat) (steps : List Migration) : List Migration :=
  steps.filter fun m => v < m.version

theorem lacking_cons_of_le {v : Nat} {m : Migration} (h : m.version ≤ v) (rest : List Migration) :
    lacking v (m :: rest) = lacking v rest :=
  List.filter_cons_of_neg (by simpa using h)

theorem lacking_eq_self {v : Nat} {steps : List Migration} (h : ∀ m ∈ steps, v < m.version) :
    lacking v steps = steps :=
  List.filter_eq_self.mpr fun m hm => decide_eq_true (h m hm)

theorem step_of_le {m : Migration} {l : Ledger} {v : Nat} (hv : l.version = .ok v)
    (h : m.version ≤ v) : m.step l = .ok (0, l) := by
  unfold Migration.step
  rw [hv]
  exact if_pos h

theorem step_of_lt {m : Migration} {l : Ledger} {v : Nat} (hv : l.version = .ok v)
    (h : v < m.version) :
    m.step l =
      match m.script.run l with
      | .ok mid => .ok (1, record m.version mid)
      | .error fault => .error (.migration m.version fault) := by
  unfold Migration.step
  rw [hv]
  exact if_neg (by omega)

/-- A migration touches no record of versions. -/
theorem version_of_run {m : Migration} (hm : m ∈ migrations) {l mid : Ledger}
    (h : m.script.run l = .ok mid) : mid.version = l.version := by
  unfold version
  rw [versions_of_run (keepsVersions_script hm) h]

theorem version_le_greatest : ∀ m ∈ migrations, m.version ≤ greatestVersion := by
  decide

/-- A step that the ledger has been through is passed over. -/
theorem takeSteps_cons_of_le {m : Migration} {l : Ledger} {v : Nat} (hv : l.version = .ok v)
    (h : m.version ≤ v) (rest : List Migration) : takeSteps l (m :: rest) = takeSteps l rest := by
  conv_lhs => unfold takeSteps
  rw [step_of_le hv h]
  dsimp only
  rcases takeSteps l rest with ⟨k | e, after⟩ <;> simp

theorem takeSteps_cons_of_ok {m : Migration} {l mid : Ledger} {v : Nat} (hv : l.version = .ok v)
    (h : v < m.version) (hrun : m.script.run l = .ok mid) (rest : List Migration) :
    takeSteps l (m :: rest) =
      ((takeSteps (record m.version mid) rest).1.map (1 + ·),
        (takeSteps (record m.version mid) rest).2) := by
  conv_lhs => unfold takeSteps
  rw [step_of_lt hv h, hrun]
  dsimp only
  rcases takeSteps (record m.version mid) rest with ⟨k | e, after⟩ <;> rfl

theorem takeSteps_cons_of_error {m : Migration} {l : Ledger} {v : Nat} {fault : Fault}
    (hv : l.version = .ok v) (h : v < m.version) (hrun : m.script.run l = .error fault)
    (rest : List Migration) :
    takeSteps l (m :: rest) = (.error (.migration m.version fault), l) := by
  unfold takeSteps
  rw [step_of_lt hv h, hrun]

theorem takeSteps_of_le {steps : List Migration} {l : Ledger} {v : Nat} (hv : l.version = .ok v)
    (h : ∀ m ∈ steps, m.version ≤ v) : takeSteps l steps = (.ok 0, l) := by
  induction steps with
  | nil => rfl
  | cons m rest ih =>
      obtain ⟨hm, hrest⟩ := List.forall_mem_cons.mp h
      rw [takeSteps_cons_of_le hv hm, ih hrest]

/-- The steps that a ledger lacked were taken, and none is lacking any more. -/
structure Completed (l : Ledger) (v : Nat) (steps : List Migration) (after : Ledger) : Prop where
  taken : Taken l (lacking v steps) after
  version : ∃ w, after.version = .ok w ∧ v ≤ w ∧ ∀ m ∈ steps, m.version ≤ w

/-- Of the steps that a ledger lacked some were taken, and the next one failed. -/
structure StoppedAt (l : Ledger) (v : Nat) (steps : List Migration) (m : Migration) (fault : Fault)
    (after : Ledger) : Prop where
  taken : ∃ before behind, lacking v steps = before ++ m :: behind ∧ Taken l before after
  fails : m.script.run after = .error fault

/-- Steps in ascending order are completed, or the first one that fails stops them and leaves
nothing behind. -/
theorem takeSteps_ends {steps : List Migration} (hsteps : steps ⊆ migrations)
    (hsorted : steps.Pairwise fun m n => m.version < n.version) {l : Ledger} {v : Nat}
    (hv : l.version = .ok v) :
    (∃ after, takeSteps l steps = (.ok (lacking v steps).length, after) ∧
        Completed l v steps after) ∨
      ∃ m fault after, takeSteps l steps = (.error (.migration m.version fault), after) ∧
        StoppedAt l v steps m fault after := by
  induction steps generalizing l v with
  | nil => exact Or.inl ⟨l, rfl, .nil, v, hv, Nat.le_refl v, nofun⟩
  | cons m rest ih =>
      obtain ⟨hm, hrest⟩ := List.cons_subset.mp hsteps
      obtain ⟨hbelow, hsorted⟩ := List.pairwise_cons.mp hsorted
      by_cases hle : m.version ≤ v
      · have hlacking := lacking_cons_of_le hle rest
        rw [takeSteps_cons_of_le hv hle, hlacking]
        rcases ih hrest hsorted hv with ⟨after, htake, htaken, w, hw, hvw, hall⟩ |
          ⟨n, fault, after, htake, htaken, hfails⟩
        · exact Or.inl ⟨after, htake, hlacking ▸ htaken, w, hw, hvw,
            List.forall_mem_cons.mpr ⟨by omega, hall⟩⟩
        · exact Or.inr ⟨n, fault, after, htake, hlacking ▸ htaken, hfails⟩
      · have hlt : v < m.version := by omega
        -- a version below the first of these steps is below all of them
        have hself : lacking v (m :: rest) = m :: rest := lacking_eq_self <|
          List.forall_mem_cons.mpr ⟨hlt, fun n hn => Nat.lt_trans hlt (hbelow n hn)⟩
        cases hrun : m.script.run l with
        | error fault =>
            exact Or.inr ⟨m, fault, l, takeSteps_cons_of_error hv hlt hrun rest,
              ⟨[], rest, hself, .nil⟩, hrun⟩
        | ok mid =>
            have hmid : (record m.version mid).version = .ok m.version :=
              version_record ((version_of_run hm hrun).trans hv) (Nat.le_of_lt hlt)
                (version_le_greatest m hm)
            have hothers : lacking m.version rest = rest := lacking_eq_self hbelow
            rw [takeSteps_cons_of_ok hv hlt hrun]
            rcases ih hrest hsorted hmid with ⟨after, htake, htaken, w, hw, hvw, hall⟩ |
              ⟨n, fault, after, htake, ⟨before, behind, hlacks, htaken⟩, hfails⟩
            · rw [hothers] at htake htaken
              refine Or.inl ⟨after, ?_, ?_, w, hw, by omega, List.forall_mem_cons.mpr ⟨hvw, hall⟩⟩
              · rw [htake, hself, List.length_cons, Nat.add_comm]
                rfl
              · rw [hself]
                exact .cons hrun htaken
            · rw [hothers] at hlacks
              refine Or.inr ⟨n, fault, after, by rw [htake]; rfl,
                ⟨m :: before, behind, by rw [hself, hlacks]; rfl, .cons hrun htaken⟩, hfails⟩

theorem migrations_ascending : migrations.Pairwise fun m n => m.version < n.version := by
  decide

/-! ## Ledgers of the first version -/

/-- What belongs to a rule that is there stays as it is. -/
theorem PolicyTables.share_withoutOrphans {t : PolicyTables} {id : Int64} (h : id ∈ t.ruleIds) :
    Share id t t.withoutOrphans := by
  have hkept (rows : List (ChildRow Cell)) :
      valuesOf id rows =
        valuesOf id (keepChildren (fun owner => owner ∈ t.ruleIds.map some) rows) := by
    unfold valuesOf keepChildren
    rw [List.filter_filter]
    congr 1
    refine List.filter_congr fun row _ => ?_
    by_cases howner : row.owner = some id
    · simp [howner, h]
    · simp [howner]
  exact ⟨hkept _, hkept _, hkept _, hkept _⟩

/-! ## Any ledger -/

/-- The greatest version that is recorded, or zero where none is. -/
def Reached (l : Ledger) (v : Nat) : Prop :=
  (∀ w ∈ l.recorded, w ≤ (v : Int)) ∧ ((v : Int) ∈ l.recorded ∨ l.recorded = [] ∧ v = 0)

/-- The steps are the migrations above the version that the ledger has reached, in ascending
order. -/
structure Lacks (l : Ledger) (steps : List Migration) : Prop where
  above : ∃ v, l.Reached v ∧ ∀ m, m ∈ steps ↔ m ∈ migrations ∧ v < m.version
  ascending : steps.Pairwise fun m n => m.version < n.version

theorem lacks_lacking {l : Ledger} {v : Nat} (hv : l.version = .ok v) :
    l.Lacks (lacking v migrations) where
  above := ⟨v, (version_eq_ok_iff.mp hv).2, fun m => by simp [lacking]⟩
  ascending := migrations_ascending.filter _

theorem bringUpToDate_of_completed {l after : Ledger} {v : Nat}
    (h : Completed l v migrations after) : after.bringUpToDate = (.ok 0, after) := by
  obtain ⟨w, hw, -, hall⟩ := h.version
  exact takeSteps_of_le hw hall

/-- Where the version of a ledger cannot be read, nothing is done. -/
theorem bringUpToDate_of_version_error {l : Ledger} {fault : Fault} (h : l.version = .error fault) :
    l.bringUpToDate = (.error (.ledger fault), l) := by
  simp [bringUpToDate, migrations, takeSteps, Migration.step, h]

theorem bringUpToDate_ends (l : Ledger) :
    (∃ fault, l.bringUpToDate = (.error (.ledger fault), l)) ∨
      ∃ v, l.version = .ok v ∧
        ((∃ after, l.bringUpToDate = (.ok (lacking v migrations).length, after) ∧
            Completed l v migrations after) ∨
          ∃ m fault after, l.bringUpToDate = (.error (.migration m.version fault), after) ∧
            StoppedAt l v migrations m fault after) := by
  cases hv : l.version with
  | error fault => exact Or.inl ⟨fault, bringUpToDate_of_version_error hv⟩
  | ok v =>
      exact Or.inr ⟨v, rfl, takeSteps_ends (List.Subset.refl _) migrations_ascending hv⟩

/-- Nobody who reads a policy notices that a ledger of the first version has been brought up to
date. -/
theorem readers_firstVersion {l : Ledger} {t : PolicyTables} (htables : l.tables? = some t) :
    (∀ onlyEnabled d, ((list onlyEnabled).commit d (record 2 (l.withTables t.withoutOrphans))).1 =
      ((list onlyEnabled).commit d l).1) ∧
    ∀ first second,
      (readDefaultsWithin first second (record 2 (l.withTables t.withoutOrphans))).1 =
        (readDefaultsWithin first second l).1 := by
  refine ⟨fun onlyEnabled d => ?_, fun first second => ?_⟩
  · have hafter : (record 2 (l.withTables t.withoutOrphans)).tables? = some t.withoutOrphans := rfl
    refine (list_alike_of_share htables hafter onlyEnabled d rfl fun row hrow _ => ?_).symm
    exact PolicyTables.share_withoutOrphans (List.mem_map_of_mem hrow)
  · refine (readDefaults_alike first second ?_).symm
    rw [eq_withTables_of_tables? htables]
    rfl

/-- Whatever tables and versions a ledger has, when it has been brought up to date, the migrations
that it lacked were taken, in ascending order and no others, and doing it again does nothing.  When
a migration fails, the ones before it were taken, and nothing is left of the statements of its
script that went well.  With any other failure nothing has been done.

A ledger of the first version that has all tables of a policy loses the rows that belong to no rule,
and nothing else: all other rows stay in their order, nobody who lists the rules or reads the
defaults notices, and nothing belongs to a rule that is not there. -/
theorem migrations_taken_whole (l : Ledger) :
    (∀ n after, l.bringUpToDate = (.ok n, after) →
      ∃ steps, l.Lacks steps ∧ n = steps.length ∧ Taken l steps after ∧
        after.bringUpToDate = (.ok 0, after)) ∧
    (∀ v fault after, l.bringUpToDate = (.error (.migration v fault), after) →
      ∃ before m behind, l.Lacks (before ++ m :: behind) ∧ m.version = v ∧ Taken l before after ∧
        ∃ first statement rest partly, m.script = first ++ statement :: rest ∧
          Script.run first after = .ok partly ∧ statement partly = .error fault) ∧
    (∀ e after, l.bringUpToDate = (.error e, after) → (∀ v fault, e ≠ .migration v fault) →
      after = l) ∧
    ∀ t, l.version = .ok 1 → l.tables? = some t →
      ∃ after, l.bringUpToDate = (.ok 1, after) ∧
        after = { l with
          versions := some (l.recorded ++ [2])
          ports := some (t.ports.filter fun row => row.owner ∈ t.ruleIds.map some)
          sources := some (t.sources.filter fun row => row.owner ∈ t.ruleIds.map some)
          destinations := some (t.destinations.filter fun row => row.owner ∈ t.ruleIds.map some)
          icmpTypes := some (t.icmpTypes.filter fun row => row.owner ∈ t.ruleIds.map some) } ∧
        (∀ onlyEnabled d,
          ((list onlyEnabled).commit d after).1 = ((list onlyEnabled).commit d l).1) ∧
        (∀ first second,
          (readDefaultsWithin first second after).1 = (readDefaultsWithin first second l).1) ∧
        ∀ u, after.tables? = some u → ∀ owner ∈ u.places, ∃ id ∈ u.ruleIds, owner = some id := by
  refine ⟨?_, ?_, ?_, ?_⟩
  · intro n after hends
    rcases bringUpToDate_ends l with ⟨fault, hfail⟩ | ⟨v, hv, ⟨after', hdone, hcompleted⟩ |
      ⟨m, fault, after', hstop, -⟩⟩
    · rw [hfail] at hends
      cases hends
    · rw [hdone] at hends
      cases hends
      exact ⟨_, lacks_lacking hv, rfl, hcompleted.taken, bringUpToDate_of_completed hcompleted⟩
    · rw [hstop] at hends
      cases hends
  · intro v fault after hends
    rcases bringUpToDate_ends l with ⟨fault', hfail⟩ | ⟨v', hv, ⟨after', hdone, -⟩ |
      ⟨m, fault', after', hstop, hstopped⟩⟩
    · rw [hfail] at hends
      cases hends
    · rw [hdone] at hends
      cases hends
    · rw [hstop] at hends
      cases hends
      obtain ⟨before, behind, hlacking, htaken⟩ := hstopped.taken
      exact ⟨before, m, behind, hlacking ▸ lacks_lacking hv, rfl, htaken,
        run_error hstopped.fails⟩
  · intro e after hends hother
    rcases bringUpToDate_ends l with ⟨fault', hfail⟩ | ⟨v', hv, ⟨after', hdone, -⟩ |
      ⟨m, fault', after', hstop, hstopped⟩⟩
    · rw [hfail] at hends
      cases hends
      rfl
    · rw [hdone] at hends
      cases hends
    · rw [hstop] at hends
      cases hends
      exact absurd rfl (hother _ _)
  · intro t hversion htables
    obtain ⟨hlist, hdefaults⟩ := readers_firstVersion htables
    refine ⟨_, bringUpToDate_firstVersion hversion htables, ?_, hlist, hdefaults, ?_⟩
    · conv_rhs => rw [eq_withTables_of_tables? htables]
      rfl
    · intro u hu owner howner
      obtain rfl : t.withoutOrphans = u := Option.some.inj hu
      exact PolicyTables.places_withoutOrphans (t := t) howner

/-- A ledger that somebody has begun to set up. -/
def halfSetUp : Ledger :=
  { blank with rules := some ⟨[], 0⟩ }

/-- In a ledger of the first version a port and a prefix go; setting up the other ledger fails after
its defaults have been stored, and these are gone again. -/
theorem halfSetUp_left_alone :
    (∃ after, strayLedger.bringUpToDate = (.ok 1, after) ∧
      after.ports = some [⟨some 1, .integer 22⟩] ∧ after.sources = some [] ∧
      ((list false).commit (.distant .zero) after).1 =
        ((list false).commit (.distant .zero) strayLedger).1) ∧
    halfSetUp.bringUpToDate = (.error (.migration 1 (.tableExists "rules")), halfSetUp) ∧
    ∃ before m behind, halfSetUp.Lacks (before ++ m :: behind) ∧ m.version = 1 ∧
      Taken halfSetUp before halfSetUp ∧
      ∃ first statement rest partly, m.script = first ++ statement :: rest ∧
        Script.run first halfSetUp = .ok partly ∧
        statement partly = .error (.tableExists "rules") := by
  obtain ⟨-, -, -, hfirst⟩ := migrations_taken_whole strayLedger
  obtain ⟨after, hends, rfl, hlist, -⟩ := hfirst strayTables rfl rfl
  exact ⟨⟨_, hends, by decide, by decide, hlist false (.distant .zero)⟩, rfl,
    (migrations_taken_whole halfSetUp).2.1 _ _ _ rfl⟩

end Ledger
end PacketPolicy
