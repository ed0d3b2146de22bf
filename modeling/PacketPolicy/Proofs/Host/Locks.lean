import Mathlib.Data.List.Nodup
import Mathlib.Data.List.Perm.Basic
import PacketPolicy.Host.Machine
import PacketPolicy.Proofs.Host.Files
import PacketPolicy.Proofs.Session.Runs

/-!
# Locks

Whoever takes the lock of a file gets a guard, and has the lock until the guard is dropped.  A body
that is run under a lock has a guard of its own, which is given back when the body is over, whatever
came of it.  Bodies may take and drop guards themselves, and run other bodies.

* `Machine.acquire_of_held`, `acquire_of_free`, `release_eq` -- the locks of a machine;
* `Keyring` -- a machine and the guards that there are; `Keyring.take`, `Keyring.drop` -- guards;
* `Uses` -- what takes and drops certain locks and runs bodies under them, and does nothing else;
* `Moves` -- what one step does; `Uses.keeps` -- what every step keeps, all of it keeps;
  `Uses.busy_run` -- the guard of a body is there until the body is over;
* `Sound` -- the locks that are held are those that there are guards of, one each;
  `Sound.moved` -- after one step; `Uses.keeps_sound` -- after any number of them;
* `Orderly` -- how locks behave; `Sound.orderly`, `locks_are_orderly` -- they do, at any time.
-/

namespace PacketPolicy

/-! ## The locks of a machine -/

namespace Machine

variable {m m' : Machine} {lock : ChangeLock} {path : String} {p : Host.Location}

/-- A lock can be opened where its path has a place for a file. -/
theorem exists_openLock_iff :
    (∃ m', m.openLock path = .ok (p, m')) ↔ m.files.FilePlace m.directory path p := by
  unfold openLock
  constructor
  · rintro ⟨m', h⟩
    cases hopen : m.files.openable m.directory path Host.privateFile (.bytes .empty) with
    | error fault =>
        rw [hopen] at h
        cases h
    | ok r =>
        rw [hopen] at h
        cases h
        exact (Host.Tree.openable_eq_ok_iff.mp hopen).1
  · intro h
    rw [Host.Tree.openable_eq_ok_iff.mpr ⟨h, rfl⟩]
    exact ⟨_, rfl⟩

/-- A lock that somebody has is not to be had. -/
theorem acquire_of_held (h : m.files.FilePlace m.directory lock.path p) (hheld : p ∈ m.held) :
    m.acquire lock = .error (.lockBusy lock.path (lock.patience.getD .zero)) := by
  obtain ⟨opened, hopen⟩ := exists_openLock_iff.mpr h
  unfold acquire
  rw [hopen]
  exact if_pos (List.contains_iff_mem.mpr hheld)

/-- A lock that nobody has is had, once its file has been opened. -/
theorem acquire_of_free (h : m.files.FilePlace m.directory lock.path p) (hfree : p ∉ m.held) :
    ∃ files, m.files.openable m.directory lock.path Host.privateFile (.bytes .empty) =
        .ok (p, files) ∧
      m.acquire lock = .ok { m with files, held := p :: m.held } := by
  obtain ⟨files, hopen⟩ : ∃ files, m.files.openable m.directory lock.path Host.privateFile
      (.bytes .empty) = .ok (p, files) := ⟨_, Host.Tree.openable_eq_ok_iff.mpr ⟨h, rfl⟩⟩
  refine ⟨files, hopen, ?_⟩
  unfold acquire openLock
  rw [hopen]
  exact if_neg fun hheld => hfree (List.contains_iff_mem.mp hheld)

/-- A lock whose file is there is free afterwards, and all others are as they were. -/
theorem release_eq (h : m.files.FilePlace m.directory lock.path p)
    (hthere : (m.files.find? p).isSome) :
    m.release lock = { m with held := m.held.filter (· != p) } := by
  obtain ⟨n, hn⟩ := Option.isSome_iff_exists.mp hthere
  unfold release
  rw [Host.Tree.lookUp_of_filePlace h hn]

end Machine

/-! ## Guards -/

/-- A machine and the guards of its locks. -/
structure Keyring where
  machine : Machine
  /-- Those that were taken to be kept, the last one first. -/
  kept : List ChangeLock
  /-- Those of the bodies that are not over yet, the innermost first. -/
  busy : List ChangeLock

namespace Keyring

/-- All guards. -/
def guards (k : Keyring) : List ChangeLock :=
  k.kept ++ k.busy

/-- Whether there is a guard of the lock on a path. -/
def Holds (k : Keyring) (path : String) : Prop :=
  ∃ lock ∈ k.guards, lock.path = path

/-- The guard of a body. -/
def acquire (lock : ChangeLock) (k : Keyring) : Except Failure Keyring :=
  (k.machine.acquire lock).map fun machine => { k with machine, busy := lock :: k.busy }

/-- A body gives back its own guard. -/
def release (lock : ChangeLock) (k : Keyring) : Keyring :=
  if lock ∈ k.busy then
    { k with machine := k.machine.release lock, busy := k.busy.erase lock }
  else k

instance : Lockable Keyring where
  acquire := acquire
  release := release

/-- Takes a lock; its guard is kept. -/
def take (lock : ChangeLock) : Operation Keyring Unit :=
  .step fun k =>
    match k.machine.acquire lock with
    | .ok machine => (.ok (), { k with machine, kept := lock :: k.kept })
    | .error e => (.error e, k)

/-- Drops the guard of a lock, if it is one of those that are kept; whether there was one. -/
def drop (lock : ChangeLock) : Operation Keyring Bool :=
  .step fun k =>
    if lock ∈ k.kept then
      (.ok true, { k with machine := k.machine.release lock, kept := k.kept.erase lock })
    else (.ok false, k)

/-- What takes locks of some kind, drops their guards and runs bodies under them, in whatever order,
depending on what came of it so far, and has nothing else to do with locks. -/
inductive Uses (may : ChangeLock → Prop) : {α : Type} → Operation Keyring α → Prop where
  | pure {α : Type} (a : α) : Uses may (Pure.pure a)
  | throw {α : Type} (e : Failure) : Uses may (throw e : Operation Keyring α)
  | bind {α β : Type} {o : Operation Keyring α} {k : α → Operation Keyring β}
      (ho : Uses may o) (hk : ∀ a, Uses may (k a)) : Uses may (o >>= k)
  | attempt {α : Type} {o : Operation Keyring α} {handle : Failure → Operation Keyring α}
      (ho : Uses may o) (hhandle : ∀ e, Uses may (handle e)) : Uses may (tryCatch o handle)
  | take {lock : ChangeLock} (h : may lock) : Uses may (Keyring.take lock)
  | drop {lock : ChangeLock} (h : may lock) : Uses may (Keyring.drop lock)
  | under {α : Type} {lock : ChangeLock} {body : Operation Keyring α} (h : may lock)
      (hbody : Uses may body) : Uses may (Operation.underLock lock body)

/-! ## Steps -/

variable {place : String → Host.Location} {paths : List String} {may : ChangeLock → Prop}
  {k k' : Keyring} {lock : ChangeLock} {path : String} {α : Type} {o : Operation Keyring α}

/-- What a step does that does something: a lock is had and there is one guard more, or there is
one guard less and its lock is free. -/
inductive Moves (lock : ChangeLock) (k k' : Keyring) : Prop where
  | taken (hacquire : k.machine.acquire lock = .ok k'.machine)
      (hguards : k'.guards.Perm (lock :: k.guards))
  | given (hguards : k.guards.Perm (lock :: k'.guards))
      (hrelease : k'.machine = k.machine.release lock)

theorem acquire_eq_ok_iff :
    k.acquire lock = .ok k' ↔
      k.machine.acquire lock = .ok k'.machine ∧ k'.kept = k.kept ∧ k'.busy = lock :: k.busy := by
  unfold acquire
  cases k.machine.acquire lock with
  | error e => exact ⟨nofun, nofun⟩
  | ok machine =>
      constructor
      · intro h
        cases h
        exact ⟨rfl, rfl, rfl⟩
      · rintro ⟨hmachine, hkept, hbusy⟩
        cases k'
        cases hmachine
        subst hkept hbusy
        rfl

theorem acquire_moves (h : k.acquire lock = .ok k') : Moves lock k k' := by
  obtain ⟨hacquire, hkept, hbusy⟩ := acquire_eq_ok_iff.mp h
  refine .taken hacquire ?_
  unfold guards
  rw [hkept, hbusy]
  exact List.perm_middle

theorem release_moves : k.release lock = k ∨ Moves lock k (k.release lock) := by
  unfold release
  split
  · rename_i hlock
    refine .inr (.given ?_ rfl)
    exact ((List.perm_cons_erase hlock).append_left k.kept).trans List.perm_middle
  · exact .inl rfl

theorem take_moves : (Operation.run (take lock) k).2 = k ∨
    Moves lock k (Operation.run (take lock) k).2 := by
  unfold take
  rw [Operation.run_step]
  cases h : k.machine.acquire lock with
  | ok machine => exact .inr (.taken h (List.Perm.refl _))
  | error e => exact .inl rfl

theorem drop_moves : (Operation.run (drop lock) k).2 = k ∨
    Moves lock k (Operation.run (drop lock) k).2 := by
  unfold drop
  rw [Operation.run_step]
  split
  · rename_i hlock
    exact .inr (.given ((List.perm_cons_erase hlock).append_right k.busy) rfl)
  · exact .inl rfl

theorem Uses.mono {may' : ChangeLock → Prop} (ho : Uses may o) (h : ∀ lock, may lock → may' lock) :
    Uses may' o := by
  induction ho with
  | pure a => exact .pure a
  | throw e => exact .throw e
  | bind _ _ iho ihk => exact .bind iho ihk
  | attempt _ _ iho ihhandle => exact .attempt iho ihhandle
  | take hmay => exact .take (h _ hmay)
  | drop hmay => exact .drop (h _ hmay)
  | under hmay _ ih => exact .under (h _ hmay) ih

/-- What every step keeps that does something, all of it keeps. -/
theorem Uses.keeps {P : Keyring → Prop} (ho : Uses may o)
    (hmoves : ∀ {lock k k'}, may lock → Moves lock k k' → P k → P k') : Operation.Keeps P o := by
  have hsteps {lock : ChangeLock} (hmay : may lock) {k k' : Keyring} (hk : P k)
      (h : k' = k ∨ Moves lock k k') : P k' := by
    rcases h with rfl | h
    · exact hk
    · exact hmoves hmay h hk
  induction ho with
  | pure a => exact Operation.keeps_pure a
  | throw e => exact Operation.keeps_throw e
  | bind _ _ iho ihk => exact Operation.keeps_bind iho ihk
  | attempt _ _ iho ihhandle => exact Operation.keeps_catch iho ihhandle
  | take hmay => exact Operation.keeps_step fun k hk => hsteps hmay hk take_moves
  | drop hmay => exact Operation.keeps_step fun k hk => hsteps hmay hk drop_moves
  | under hmay _ ih =>
      refine Operation.keeps_underLock (fun k k' hk h => ?_) (fun k hk => ?_) ih
      · exact hsteps hmay hk (.inr (acquire_moves h))
      · exact hsteps hmay hk release_moves

/-- A body that is over leaves its guard to be given back. -/
theorem release_of_busy {busy : List ChangeLock} (h : k.busy = lock :: busy) :
    (k.release lock).kept = k.kept ∧ (k.release lock).busy = busy ∧
      (k.release lock).machine = k.machine.release lock ∧
      k.guards.Perm (lock :: (k.release lock).guards) := by
  have heq : k.release lock = { k with machine := k.machine.release lock, busy } := by
    unfold release
    rw [if_pos (h ▸ List.mem_cons_self), h, List.erase_cons_head]
  rw [heq]
  refine ⟨rfl, rfl, rfl, ?_⟩
  unfold guards
  rw [h]
  exact List.perm_middle

/-- The guards of bodies that are not over yet are those of the bodies around. -/
theorem Uses.busy_run (ho : Uses may o) (k : Keyring) :
    (Operation.run o k).2.busy = k.busy := by
  induction ho generalizing k with
  | pure a => rfl
  | throw e => rfl
  | @bind _ _ o next _ _ iho ihk =>
      rw [Operation.run_bind]
      have hbusy := iho k
      cases hrun : Operation.run o k with
      | mk outcome after =>
          rw [hrun] at hbusy
          cases outcome with
          | ok a => exact (ihk a after).trans hbusy
          | error e => exact hbusy
  | @attempt _ o handle _ _ iho ihhandle =>
      rw [Operation.run_catch]
      have hbusy := iho k
      cases hrun : Operation.run o k with
      | mk outcome after =>
          rw [hrun] at hbusy
          cases outcome with
          | ok a => exact hbusy
          | error e => exact (ihhandle e after).trans hbusy
  | @take lock _ =>
      unfold Keyring.take
      rw [Operation.run_step]
      cases k.machine.acquire lock <;> rfl
  | @drop lock _ =>
      unfold Keyring.drop
      rw [Operation.run_step]
      split <;> rfl
  | @under _ lock body _ _ ih =>
      rw [Operation.run_underLock]
      cases hacquire : Lockable.acquire lock k with
      | error e => rfl
      | ok inner =>
          -- the guard of the body is still the first one, and it is this one that is given back
          have hbusy := (ih inner).trans (acquire_eq_ok_iff.mp hacquire).2.2
          exact (release_of_busy hbusy).2.1

/-- A guard of another lock makes no difference. -/
theorem holds_iff_of_ne {guards guards' : List ChangeLock} (hne : lock.path ≠ path)
    (h : guards'.Perm (lock :: guards)) :
    (∃ guard ∈ guards', guard.path = path) ↔ ∃ guard ∈ guards, guard.path = path := by
  constructor
  · rintro ⟨guard, hguard, rfl⟩
    rcases List.mem_cons.mp (h.mem_iff.mp hguard) with rfl | hold
    · exact absurd rfl hne
    · exact ⟨guard, hold, rfl⟩
  · rintro ⟨guard, hguard, rfl⟩
    exact ⟨guard, h.mem_iff.mpr (List.mem_cons_of_mem _ hguard), rfl⟩

/-- A lock is held afterwards if it was held before, and no other. -/
theorem Uses.holds_run_iff (ho : Uses (fun lock => lock.path ≠ path) o) (k : Keyring) :
    (Operation.run o k).2.Holds path ↔ k.Holds path := by
  refine Operation.Keeps.run (P := fun now => now.Holds path ↔ k.Holds path)
    (ho.keeps fun hne hmove hk => ?_) Iff.rfl
  cases hmove with
  | taken _ hguards => exact (holds_iff_of_ne hne hguards).trans hk
  | given hguards _ => exact (holds_iff_of_ne hne hguards).symm.trans hk

/-! ## What is held is what there are guards of -/

/-- The paths have places for files, different ones; the locks that are held are those that there
are guards of, each of them one, and their files are there. -/
structure Sound (place : String → Host.Location) (paths : List String) (k : Keyring) : Prop where
  leads : ∀ path ∈ paths, k.machine.files.FilePlace k.machine.directory path (place path)
  known : ∀ lock ∈ k.guards, lock.path ∈ paths
  there : ∀ lock ∈ k.guards, (k.machine.files.find? (place lock.path)).isSome
  held : k.machine.held.Perm (k.guards.map fun lock => place lock.path)
  single : k.machine.held.Nodup

/-- There is one guard more, of a lock that was free. -/
theorem Sound.taken (h : k.Sound place paths) (hpath : lock.path ∈ paths)
    (hacquire : k.machine.acquire lock = .ok k'.machine)
    (hguards : k'.guards.Perm (lock :: k.guards)) : k'.Sound place paths := by
  have hplace := h.leads lock.path hpath
  have hfree : place lock.path ∉ k.machine.held := by
    intro hheld
    rw [Machine.acquire_of_held hplace hheld] at hacquire
    cases hacquire
  obtain ⟨files, hopen, hdone⟩ := Machine.acquire_of_free hplace hfree
  obtain hmachine : _ = k'.machine := Except.ok.inj (hdone.symm.trans hacquire)
  obtain ⟨hopened, hstill⟩ := Host.Tree.isSome_openable hopen
  constructor
  · intro path hmem
    rw [← hmachine]
    exact (h.leads path hmem).openable hopen
  · intro other hother
    rcases List.mem_cons.mp (hguards.mem_iff.mp hother) with rfl | hold
    · exact hpath
    · exact h.known other hold
  · intro other hother
    rw [← hmachine]
    rcases List.mem_cons.mp (hguards.mem_iff.mp hother) with rfl | hold
    · exact hopened
    · exact hstill _ (h.there other hold)
  · rw [← hmachine]
    exact (h.held.cons _).trans (hguards.map fun guard : ChangeLock => place guard.path).symm
  · rw [← hmachine]
    exact List.nodup_cons.mpr ⟨hfree, h.single⟩

/-- There is one guard less, and its lock is free. -/
theorem Sound.given (h : k.Sound place paths) (hguards : k.guards.Perm (lock :: k'.guards))
    (hmachine : k'.machine = k.machine.release lock) : k'.Sound place paths := by
  have hlock : lock ∈ k.guards := hguards.mem_iff.mpr List.mem_cons_self
  have hold {other : ChangeLock} (hother : other ∈ k'.guards) : other ∈ k.guards :=
    hguards.mem_iff.mpr (List.mem_cons_of_mem _ hother)
  rw [Machine.release_eq (h.leads _ (h.known lock hlock)) (h.there lock hlock)] at hmachine
  have hheld := h.held.trans (hguards.map fun guard : ChangeLock => place guard.path)
  constructor
  · intro path hmem
    rw [hmachine]
    exact h.leads path hmem
  · exact fun other hother => h.known other (hold hother)
  · intro other hother
    rw [hmachine]
    exact h.there other (hold hother)
  · rw [hmachine, ← h.single.erase_eq_filter]
    have herased := hheld.erase (place lock.path)
    rwa [List.map_cons, List.erase_cons_head] at herased
  · rw [hmachine]
    exact h.single.filter _

theorem Sound.moved (h : k.Sound place paths) (hpath : lock.path ∈ paths)
    (hmove : Moves lock k k') :
    k'.Sound place paths := by
  cases hmove with
  | taken hacquire hguards => exact h.taken hpath hacquire hguards
  | given hguards hrelease => exact h.given hguards hrelease

/-- However many steps, the locks that are held are those that there are guards of. -/
theorem Uses.keeps_sound (ho : Uses may o) (hmay : ∀ lock, may lock → lock.path ∈ paths) :
    Operation.Keeps (Sound place paths) o :=
  ho.keeps fun hlock hmove h => h.moved (hmay _ hlock) hmove

/-! ## How locks behave -/

/-- The locks on some paths, for those who wait a limited time only. -/
def Timed (paths : List String) (lock : ChangeLock) : Prop :=
  lock.path ∈ paths ∧ lock.patience.isSome

instance : Decidable (Timed paths lock) :=
  inferInstanceAs (Decidable (_ ∧ _))

/-- How the locks on some paths behave. -/
structure Orderly (place : String → Host.Location) (paths : List String) (now : Keyring) :
    Prop where
  /-- There is at most one guard of a lock. -/
  single : (now.guards.map ChangeLock.path).Nodup
  /-- A lock is held while there is a guard of it. -/
  held {path : String} (h : path ∈ paths) : place path ∈ now.machine.held ↔ now.Holds path
  /-- Who asks for a lock that is held, be it by a body around, gets no guard, and a body is not
  run; nothing changes. -/
  refused {lock : ChangeLock} {patience : Span} (h : lock.path ∈ paths)
      (hpatience : lock.patience = some patience) (hheld : now.Holds lock.path) :
    Operation.run (take lock) now = (.error (.lockBusy lock.path patience), now) ∧
      ∀ {α : Type} (body : Operation Keyring α),
        Operation.run (Operation.underLock lock body) now =
          (.error (.lockBusy lock.path patience), now)
  /-- Who asks for one that is free gets a guard. -/
  taken {lock : ChangeLock} (h : Timed paths lock) (hfree : ¬ now.Holds lock.path) :
    ∃ after, Operation.run (take lock) now = (.ok (), after) ∧
      now.machine.acquire lock = .ok after.machine ∧
      after.kept = lock :: now.kept ∧ after.busy = now.busy ∧
      place lock.path ∈ after.machine.held
  /-- A body whose lock is free is run while it is held.  Its outcome is that of the whole, whatever
  it is, and then the lock is free again; the other guards are those that the body left. -/
  served {lock : ChangeLock} (h : Timed paths lock) (hfree : ¬ now.Holds lock.path) :
    ∃ inner, now.machine.acquire lock = .ok inner.machine ∧
      inner.kept = now.kept ∧ inner.busy = lock :: now.busy ∧
      place lock.path ∈ inner.machine.held ∧
      ∀ {α : Type} {body : Operation Keyring α}, Uses (Timed paths) body →
        ∃ after, Operation.run (Operation.underLock lock body) now =
            ((Operation.run body inner).1, after) ∧
          after.machine = (Operation.run body inner).2.machine.release lock ∧
          after.kept = (Operation.run body inner).2.kept ∧ after.busy = now.busy ∧
          place lock.path ∉ after.machine.held ∧ ¬ after.Holds lock.path
  /-- The lock of a guard that is dropped is free. -/
  dropped {lock : ChangeLock} (h : lock ∈ now.kept) :
    ∃ after, Operation.run (drop lock) now = (.ok true, after) ∧
      after.machine = now.machine.release lock ∧
      after.kept = now.kept.erase lock ∧ after.busy = now.busy ∧
      place lock.path ∉ after.machine.held ∧ ¬ after.Holds lock.path
  /-- What has to do with other locks only leaves a lock as it is. -/
  apart {path : String} {α : Type} {o : Operation Keyring α} (h : path ∈ paths)
      (ho : Uses (fun lock => Timed paths lock ∧ lock.path ≠ path) o) :
    place path ∈ (Operation.run o now).2.machine.held ↔ place path ∈ now.machine.held

section

variable (hdistinct : ∀ p ∈ paths, ∀ q ∈ paths, place p = place q → p = q)

theorem Sound.paths_nodup (h : k.Sound place paths) : (k.guards.map ChangeLock.path).Nodup := by
  have hnodup := h.held.nodup_iff.mp h.single
  refine List.Nodup.of_map place ?_
  rwa [List.map_map]

include hdistinct in
theorem Sound.mem_held_iff (h : k.Sound place paths) (hpath : path ∈ paths) :
    place path ∈ k.machine.held ↔ k.Holds path := by
  rw [h.held.mem_iff, List.mem_map]
  constructor
  · rintro ⟨guard, hguard, heq⟩
    exact ⟨guard, hguard, hdistinct _ (h.known guard hguard) _ hpath heq⟩
  · rintro ⟨guard, hguard, rfl⟩
    exact ⟨guard, hguard, rfl⟩

include hdistinct in
/-- Where the guard of a lock is given back, the lock is free. -/
theorem Sound.free_of_given (h : k.Sound place paths) (hguards : k.guards.Perm (lock :: k'.guards))
    (hrelease : k'.machine = k.machine.release lock) :
    place lock.path ∉ k'.machine.held ∧ ¬ k'.Holds lock.path := by
  have hfree : ¬ k'.Holds lock.path := by
    have hnodup := (hguards.map ChangeLock.path).nodup_iff.mp h.paths_nodup
    rintro ⟨guard, hguard, heq⟩
    exact (List.nodup_cons.mp hnodup).1 (List.mem_map.mpr ⟨guard, hguard, heq⟩)
  have hpath : lock.path ∈ paths := h.known lock (hguards.mem_iff.mpr List.mem_cons_self)
  exact ⟨fun hheld => hfree (((h.given hguards hrelease).mem_held_iff hdistinct hpath).mp hheld),
    hfree⟩

include hdistinct in
theorem Sound.acquire_of_held (h : k.Sound place paths) (hpath : lock.path ∈ paths)
    (hheld : k.Holds lock.path) :
    k.machine.acquire lock = .error (.lockBusy lock.path (lock.patience.getD .zero)) :=
  Machine.acquire_of_held (h.leads _ hpath) ((h.mem_held_iff hdistinct hpath).mpr hheld)

include hdistinct in
theorem Sound.acquire_of_free (h : k.Sound place paths) (hpath : lock.path ∈ paths)
    (hfree : ¬ k.Holds lock.path) :
    ∃ machine, k.machine.acquire lock = .ok machine ∧ place lock.path ∈ machine.held := by
  obtain ⟨files, -, hdone⟩ := Machine.acquire_of_free (h.leads _ hpath)
    fun hheld => hfree ((h.mem_held_iff hdistinct hpath).mp hheld)
  exact ⟨_, hdone, List.mem_cons_self⟩

include hdistinct in
/-- Where the locks that are held are those that there are guards of, they behave. -/
theorem Sound.orderly (h : k.Sound place paths) : k.Orderly place paths where
  single := h.paths_nodup
  held hpath := h.mem_held_iff hdistinct hpath
  refused := by
    intro lock patience hpath hpatience hheld
    have hrefused := h.acquire_of_held hdistinct hpath hheld
    rw [hpatience] at hrefused
    constructor
    · unfold take
      rw [Operation.run_step, hrefused]
      rfl
    · intro α body
      have hacquire : Lockable.acquire lock k = .error (.lockBusy lock.path patience) :=
        congrArg (Except.map _) hrefused
      rw [Operation.run_underLock, hacquire]
  taken := by
    intro lock hlock hfree
    obtain ⟨machine, hacquire, hheld⟩ := h.acquire_of_free hdistinct hlock.1 hfree
    refine ⟨{ k with machine, kept := lock :: k.kept }, ?_, hacquire, rfl, rfl, hheld⟩
    unfold take
    rw [Operation.run_step, hacquire]
  served := by
    intro lock hlock hfree
    obtain ⟨machine, hacquire, hheld⟩ := h.acquire_of_free hdistinct hlock.1 hfree
    have hinner : Lockable.acquire lock k = .ok { k with machine, busy := lock :: k.busy } :=
      acquire_eq_ok_iff.mpr ⟨hacquire, rfl, rfl⟩
    refine ⟨{ k with machine, busy := lock :: k.busy }, hacquire, rfl, rfl, hheld, ?_⟩
    intro α body hbody
    -- the body leaves its own guard alone, and what is true of all guards true
    have hsound := (hbody.keeps_sound fun _ h => h.1).run
      (h.moved hlock.1 (acquire_moves hinner))
    obtain ⟨hkept, hbusy, hmachine, hguards⟩ := release_of_busy (hbody.busy_run
      { k with machine, busy := lock :: k.busy })
    refine ⟨_, ?_, hmachine, hkept, hbusy, hsound.free_of_given hdistinct hguards hmachine⟩
    rw [Operation.run_underLock, hinner]
    rfl
  dropped := by
    intro lock hlock
    refine ⟨{ k with machine := k.machine.release lock, kept := k.kept.erase lock }, ?_, rfl, rfl,
      rfl, h.free_of_given hdistinct ((List.perm_cons_erase hlock).append_right k.busy) rfl⟩
    unfold drop
    rw [Operation.run_step, if_pos hlock]
  apart := by
    intro path α o hpath ho
    have hafter := (ho.keeps_sound fun _ h => h.1.1).run h
    rw [hafter.mem_held_iff hdistinct hpath, h.mem_held_iff hdistinct hpath]
    exact (ho.mono fun _ h => h.2).holds_run_iff k

end

/-! ## The law of locks -/

/-- Whoever takes locks on some paths, drops their guards and runs bodies under them, in whatever
order and however deep: the locks behave at any time, as long as the paths lead to different files
that can be opened. -/
theorem locks_are_orderly {m : Machine} (hopen : ∀ path ∈ paths, ∃ m', m.openLock path =
      .ok (place path, m'))
    (hdistinct : ∀ p ∈ paths, ∀ q ∈ paths, place p = place q → p = q) (hnone : m.held = [])
    (ho : Uses (Timed paths) o) {now : Keyring} (hnow : now ∈ Operation.states o ⟨m, [], []⟩) :
    now.Orderly place paths := by
  have hstart : (⟨m, [], []⟩ : Keyring).Sound place paths :=
    { leads := fun path hpath => Machine.exists_openLock_iff.mp (hopen path hpath)
      known := nofun
      there := nofun
      held := hnone ▸ List.Perm.nil
      single := hnone ▸ List.nodup_nil }
  exact ((ho.keeps_sound fun _ h => h.1).states hstart hnow).orderly hdistinct

/-- A machine without files. -/
def emptyMachine : Machine :=
  { (default : Machine) with files := ⟨[]⟩, directory := [], held := [] }

/-- The locks on two files, and the first one for somebody with more patience. -/
def ownLock : ChangeLock := ⟨"own.lock", some .zero⟩
def otherLock : ChangeLock := ⟨"other.lock", some .zero⟩
def ownLockLater : ChangeLock := ⟨"own.lock", some (.ofSeconds 3)⟩

/-- A body asks for its own lock, drops the guard of another one and fails. -/
def crossing : Operation Keyring Unit := do
  take otherLock
  Operation.underLock ownLock do
    tryCatch (Operation.underLock ownLockLater (throw (.internal "entered twice"))) fun
      | .lockBusy _ _ => pure ()
      | e => throw e
    let _ ← drop otherLock
    throw (.internal "given up")

theorem crossing_uses : Uses (Timed ["own.lock", "other.lock"]) crossing := by
  have hown : Timed ["own.lock", "other.lock"] ownLock := by decide
  have hother : Timed ["own.lock", "other.lock"] otherLock := by decide
  have hlater : Timed ["own.lock", "other.lock"] ownLockLater := by decide
  refine .bind (.take hother) fun _ => .under hown (.bind (.attempt (.under hlater (.throw _)) ?_)
    fun _ => .bind (.drop hother) fun _ => .throw _)
  intro e
  cases e with
  | lockBusy => exact .pure ()
  | _ => exact .throw _

/-- The body is not run in its own midst, what it fails with is what comes of it, and both locks are
free in the end; they behave all the time. -/
theorem crossing_orderly :
    (Operation.run crossing ⟨emptyMachine, [], []⟩).1 = .error (.internal "given up") ∧
    (Operation.run crossing ⟨emptyMachine, [], []⟩).2.machine.held = [] ∧
    ∀ now ∈ Operation.states crossing ⟨emptyMachine, [], []⟩,
      now.Orderly (fun path => [path]) ["own.lock", "other.lock"] := by
  refine ⟨by decide +kernel, by decide +kernel, fun now hnow => ?_⟩
  refine locks_are_orderly (m := emptyMachine) ?_ ?_ rfl crossing_uses hnow
  · intro path hpath
    refine Machine.exists_openLock_iff.mpr ?_
    rcases List.mem_cons.mp hpath with rfl | hpath
    · exact ⟨by decide +kernel, by decide +kernel, by decide +kernel, nofun⟩
    · obtain rfl := List.mem_singleton.mp hpath
      exact ⟨by decide +kernel, by decide +kernel, by decide +kernel, nofun⟩
  · intro p _ q _ h
    exact (List.cons.inj h).1

end Keyring
end PacketPolicy
