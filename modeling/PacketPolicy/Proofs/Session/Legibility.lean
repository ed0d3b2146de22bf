import PacketPolicy.Proofs.Session.History

/-!
# Events that make the journal unreadable

The journal takes whatever event it is given, but it is read only if each of the events asked for
can be read back from its row.  So what is read of an event depends on its moment and on its
details: a moment of a year without four digits cannot be read, nor can details that nest too deep,
and a leap second in the middle of a minute is read as the second after it.

* `Event.Recordable` -- events about a possible moment, with details without floating numbers;
* `Event.retold`, `event?_eq_retold` -- what is read of such an event;
* `Event.retold_eq_self_iff`, `Event.exists_retold_error_iff` -- when it is the event, and when it
  is nothing;
* `appendAll`, `journal_appendAll` -- events that were appended one after another;
* `recent_retells` -- reading the journal after that;
* `distantEvent_hides_journal` -- one event of the far future hides all others.
-/

namespace PacketPolicy

open Json

/-! ## One event -/

/-- An event about a possible moment, with details as they are after they have been read: without
floating numbers, and with the names in ascending order. -/
structure Event.Recordable (e : Event) : Prop where
  timestamp : e.timestamp.Possible
  whole : e.details.Whole
  ordered : e.details.Ordered

/-- What is read of an event that was written into a row. -/
def Event.retold (e : Event) : Except Ledger.Fault Event :=
  if e.timestamp.date.year < 0 ∨ 9999 < e.timestamp.date.year then .error (.unreadable 0)
  else if nestingLimit < e.details.depth then .error (.unreadable 4)
  else .ok { e with timestamp := e.timestamp.asWritten }

namespace Event

variable {e : Event}

theorem hasPlainYear_iff {t : Timestamp} :
    t.HasPlainYear ↔ ¬ (t.date.year < 0 ∨ 9999 < t.date.year) := by
  unfold Timestamp.HasPlainYear
  omega

/-- A row is read from left to right: the moment first, the details last. -/
theorem event?_eq_retold (h : e.Recordable) : (Ledger.JournalRow.ofEvent e).event? = e.retold := by
  unfold retold
  split
  · rename_i hyear
    obtain ⟨fault, hfault⟩ :=
      Timestamp.readStrict_offsetText_fault fun hplain => hasPlainYear_iff.mp hplain hyear
    rw [Ledger.event?_ofEvent, hfault]
    rfl
  rename_i hyear
  have hmoment := Timestamp.readStrict_eq_asWritten h.timestamp (hasPlainYear_iff.mpr hyear)
  split
  · rename_i hdeep
    obtain ⟨problem, hproblem⟩ := ofText_compact_fault h.whole hdeep
    rw [Ledger.event?_ofEvent, hmoment, hproblem]
    rfl
  · rename_i hshallow
    have hdetails := ofText_compact ⟨h.whole, h.ordered, Nat.le_of_not_lt hshallow⟩
    rw [Ledger.event?_ofEvent, hmoment, hdetails]
    rfl

theorem exists_retold_error_iff :
    (∃ fault, e.retold = .error fault) ↔
      (e.timestamp.date.year < 0 ∨ 9999 < e.timestamp.date.year) ∨
        nestingLimit < e.details.depth := by
  unfold retold
  split
  · rename_i hyear
    simp [hyear]
  · rename_i hyear
    split
    · rename_i hdeep
      simp [hdeep]
    · rename_i hshallow
      simp [hyear, hshallow]

/-- An event is told as it was just when it is one that the row is made for. -/
theorem retold_eq_self_iff (h : e.Recordable) : e.retold = .ok e ↔ e.Legible := by
  constructor
  · intro htold
    unfold retold at htold
    split at htold
    · cases htold
    rename_i hyear
    split at htold
    · cases htold
    rename_i hshallow
    have hsame := congrArg Event.timestamp (Except.ok.inj htold)
    exact ⟨(Timestamp.asWritten_eq_iff h.timestamp (hasPlainYear_iff.mpr hyear)).mp hsame,
      h.whole, h.ordered, Nat.le_of_not_lt hshallow⟩
  · intro hlegible
    rw [← event?_eq_retold h]
    exact Ledger.event?_of_legible hlegible

end Event

/-! ## Any number of events -/

namespace Ledger

variable {l l' : Ledger} {limit : Nat} {d : Deadline}

/-- Events that are appended one after another, each under a deadline; the ledger afterwards, if
none of these calls fails. -/
def appendAll (l : Ledger) : List (Event × Deadline) → Except Failure Ledger
  | [] => .ok l
  | (e, d) :: rest =>
      match (append e).commit d l with
      | (.ok _, l) => appendAll l rest
      | (.error failure, _) => .error failure

/-- An event that was appended stands at the end of the journal, whatever it is. -/
theorem journal_append {e : Event} (h : (append e).commit d l = (.ok (), l')) :
    ∃ t, l.journal = some t ∧ l'.journal = some (t.record e) := by
  rcases commit_cases (Transaction.yields_statement (appendRow (.ofEvent e)) l) d with
    ⟨failure, hfail⟩ | ⟨a, m, happend, hdone⟩
  · cases h.symm.trans hfail
  · obtain rfl : l' = m := congrArg Prod.snd (h.symm.trans hdone)
    obtain ⟨t, hneed, happend⟩ := bind_eq_ok_iff.mp happend
    have hjournal : l.journal = some t := by
      cases hjournal : l.journal with
      | none =>
          rw [hjournal] at hneed
          cases hneed
      | some t' =>
          rw [hjournal] at hneed
          rw [Except.ok.inj hneed]
    refine ⟨t, hjournal, ?_⟩
    split at happend
    · cases happend
      rfl
    · cases happend

/-- The events that were appended stand in the journal in the order in which they came. -/
theorem journal_appendAll {entries : List (Event × Deadline)} (events : List Event) {highest : Int}
    (hjournal : l.journal = some ⟨events.map JournalRow.ofEvent, highest⟩)
    (h : l.appendAll entries = .ok l') :
    ∃ highest, l'.journal =
      some ⟨(events ++ entries.map Prod.fst).map JournalRow.ofEvent, highest⟩ := by
  induction entries generalizing l events highest with
  | nil =>
      cases h
      rw [List.map_nil, List.append_nil]
      exact ⟨highest, hjournal⟩
  | cons entry rest ih =>
      obtain ⟨e, d⟩ := entry
      unfold appendAll at h
      split at h
      · rename_i m happend
        obtain ⟨t, ht, hrecorded⟩ := journal_append happend
        obtain rfl := Option.some.inj (hjournal.symm.trans ht)
        rw [JournalTable.record_ofEvents] at hrecorded
        obtain ⟨highest, hafter⟩ := ih _ hrecorded h
        rw [List.map_cons, List.append_cons]
        exact ⟨highest, hafter⟩
      · cases h

/-- Reading the journal is reading each of the events that are asked for. -/
theorem lastEvents_eq_mapM {events : List Event} {highest : Int}
    (hjournal : l.journal = some ⟨events.map JournalRow.ofEvent, highest⟩)
    (hrecordable : ∀ e ∈ events, e.Recordable) (limit : Nat) :
    lastEvents limit l = (events.reverse.take limit).mapM Event.retold := by
  have hrows : lastEvents limit l =
      ((events.map JournalRow.ofEvent).reverse.take limit).mapM JournalRow.event? := by
    unfold lastEvents
    rw [hjournal]
    rfl
  rw [hrows, ← List.map_reverse, ← List.map_take, List.mapM_map]
  refine mapM_congr_of_mem fun e he => ?_
  have hmem : e ∈ events := List.mem_reverse.mp (List.mem_of_mem_take he)
  rw [Function.comp_apply]
  exact Event.event?_eq_retold (hrecordable e hmem)

/-- After events have been appended to an empty journal, reading it with time enough retells the
last ones, newest first, up to the limit.  The answer is these events just when each of them is one
that rows are made for; and there is none at all, although every event was accepted, as soon as one
of them is of a year without four digits or has details that nest too deep. -/
theorem recent_retells {entries : List (Event × Deadline)} {highest : Int}
    (hempty : l.journal = some ⟨[], highest⟩)
    (hrecordable : ∀ e ∈ entries.map Prod.fst, e.Recordable)
    (happended : l.appendAll entries = .ok l') (limit : Nat) (hd : d.Untimed) :
    let told := (entries.map Prod.fst).reverse.take limit
    (recent limit).commit d l' = ((told.mapM Event.retold).mapError .ledger, l') ∧
    ((recent limit).commit d l' = (.ok told, l') ↔ ∀ e ∈ told, e.Legible) ∧
    ((∃ failure, (recent limit).commit d l' = (.error failure, l')) ↔
      ∃ e ∈ told, (e.timestamp.date.year < 0 ∨ 9999 < e.timestamp.date.year) ∨
        nestingLimit < e.details.depth) := by
  intro told
  obtain ⟨last, hjournal⟩ := journal_appendAll [] hempty happended
  have hread : (recent limit).commit d l' = ((told.mapM Event.retold).mapError .ledger, l') := by
    have hlast : lastEvents limit l' = told.mapM Event.retold :=
      lastEvents_eq_mapM hjournal hrecordable limit
    rw [← hlast]
    exact Transaction.commit_of_reads_untimed (Transaction.reads_query _ _) hd
  have htold : ∀ e ∈ told, e.Recordable := fun e he =>
    hrecordable e (List.mem_reverse.mp (List.mem_of_mem_take he))
  refine ⟨hread, ?_, ?_⟩
  · rw [hread, Prod.mk.injEq, and_iff_left rfl, mapError_eq_ok_iff, mapM_eq_self_iff]
    exact forall₂_congr fun e he => Event.retold_eq_self_iff (htold e he)
  · have hfails : (∃ failure, (recent limit).commit d l' = (.error failure, l')) ↔
        ∃ fault, told.mapM Event.retold = .error fault := by
      rw [hread]
      simp only [Prod.mk.injEq, and_true, mapError_eq_error_iff]
      constructor
      · rintro ⟨_, fault, hfault, -⟩
        exact ⟨fault, hfault⟩
      · rintro ⟨fault, hfault⟩
        exact ⟨_, fault, hfault, rfl⟩
    rw [hfails, exists_mapM_eq_error_iff]
    exact exists_congr fun e => and_congr_right fun _ => Event.exists_retold_error_iff

/-- An event of an ordinary day. -/
def plainEvent : Event :=
  ⟨⟨⟨2024, 5, 17⟩, 3600, 0⟩, "root", .addRule, ruleObject 1, .object []⟩

/-- An event of a year with five digits. -/
def distantEvent : Event :=
  { plainEvent with timestamp := ⟨⟨12345, 1, 1⟩, 0, 0⟩ }

theorem plainEvent_recordable : plainEvent.Recordable :=
  ⟨⟨by decide, by decide, by decide⟩, trivial, List.Pairwise.nil, trivial⟩

theorem distantEvent_recordable : distantEvent.Recordable :=
  ⟨⟨by decide, by decide, by decide⟩, trivial, List.Pairwise.nil, trivial⟩

/-- The distant event is not in the way as long as it is not asked for; then it is. -/
theorem distantEvent_retold :
    ∃ l', openBlank.appendAll [(distantEvent, .distant .zero), (plainEvent, .distant .zero)] =
        .ok l' ∧
      (recent 1).commit (.distant .zero) l' = (.ok [plainEvent], l') ∧
      ∃ failure, (recent 2).commit (.distant .zero) l' = (.error failure, l') := by
  let entries : List (Event × Deadline) :=
    [(distantEvent, .distant .zero), (plainEvent, .distant .zero)]
  obtain ⟨l', happended⟩ : ∃ l', openBlank.appendAll entries = .ok l' := ⟨_, rfl⟩
  have hrecordable : ∀ e ∈ entries.map Prod.fst, e.Recordable :=
    List.forall_mem_cons.mpr ⟨distantEvent_recordable,
      List.forall_mem_singleton.mpr plainEvent_recordable⟩
  have hd := Deadline.distant_untimed .zero
  obtain ⟨-, hlast, -⟩ := recent_retells rfl hrecordable happended 1 hd
  obtain ⟨-, -, hboth⟩ := recent_retells rfl hrecordable happended 2 hd
  refine ⟨l', happended, hlast.mpr ?_, hboth.mpr ⟨distantEvent, ?_, Or.inl (Or.inr (by decide))⟩⟩
  · exact List.forall_mem_singleton.mpr
      ⟨⟨by decide, by decide, by decide, by decide, by decide⟩,
        trivial, ⟨List.Pairwise.nil, trivial⟩, by decide⟩
  · exact List.mem_cons_of_mem _ List.mem_cons_self

/-- Not all events that were appended can be read: the distant one hides the other. -/
theorem distantEvent_hides_journal :
    ¬ ∀ (l l' : Ledger) (highest : Int) (entries : List (Event × Deadline)),
      l.journal = some ⟨[], highest⟩ → (∀ e ∈ entries.map Prod.fst, e.Recordable) →
      l.appendAll entries = .ok l' → ∀ (limit : Nat) (d : Deadline), d.Untimed →
        (recent limit).commit d l' = (.ok ((entries.map Prod.fst).reverse.take limit), l') := by
  intro hclaim
  have hread := hclaim openBlank _ 0 [(plainEvent, .distant .zero), (distantEvent, .distant .zero)]
    rfl (List.forall_mem_cons.mpr ⟨plainEvent_recordable,
      List.forall_mem_singleton.mpr distantEvent_recordable⟩) rfl 10 (.distant .zero) rfl
  have hsome := congrArg (fun outcome => outcome.1.toOption.isSome) hread
  revert hsome
  decide +kernel

end Ledger
end PacketPolicy
