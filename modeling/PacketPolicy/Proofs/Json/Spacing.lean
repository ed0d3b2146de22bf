import PacketPolicy.Proofs.Json.Scanning

/-!
# Blanks between words

Blanks may be put between the words of a document and taken away without another word being found.

* `tokens_append` -- behind a text after which nothing is due the words are those of the rest;
* `closed_or_numeral` -- a text of sound words ends behind a word or in a numeral;
* `tokens_insert_blanks` -- blanks put in where the text may be cut;
* `tokens_remove_blanks` -- blanks taken away: nothing can stand behind a numeral that would have
  become part of it;
* `Writes`, `Respaces` -- texts that write a tree, and the same with other blanks between their
  words.
-/

namespace PacketPolicy
namespace Json

open Scan

/-! ## Cutting texts -/

namespace Scan

/-- From every state there is a run over every text. -/
theorem exists_runs (scan : Scan) (cs : List Char) : ∃ after ts, Runs scan cs after ts := by
  induction cs generalizing scan with
  | nil => exact ⟨scan, [], runs_nil scan⟩
  | cons c cs ih =>
      obtain ⟨after, ts, hrest⟩ := ih (scan.step c).1
      exact ⟨after, (scan.step c).2 ++ ts, runs_cons rfl hrest⟩

/-- There is no more than one. -/
theorem Runs.unique {scan after other : Scan} {cs : List Char} {ts us : List Token}
    (h : Runs scan cs after ts) (h' : Runs scan cs other us) : after = other ∧ ts = us := by
  have hsame := (h []).symm.trans (h' [])
  simpa using hsame

theorem tokens_of_runs {cs : List Char} {after : Scan} {ts : List Token}
    (h : Runs .between cs after ts) : tokens cs = ts ++ after.atEnd := by
  unfold tokens
  rw [h []]
  simp

@[simp] theorem tokens_nil : tokens [] = [] :=
  rfl

theorem tokens_append {as : List Char} {ts : List Token} (h : Closed as ts) (bs : List Char) :
    tokens (as ++ bs) = ts ++ tokens bs := by
  obtain ⟨after, us, hrest⟩ := exists_runs .between bs
  rw [tokens_of_runs (Runs.append h hrest), tokens_of_runs hrest, List.append_assoc]

theorem tokens_cons {c : Char} {cs : List Char} {after : Scan} {ts : List Token}
    (h : Runs (begin c).1 cs after ts) : tokens (c :: cs) = (begin c).2 ++ ts ++ after.atEnd := by
  have hfirst : Scan.between.step c = ((begin c).1, (begin c).2) := rfl
  exact tokens_of_runs (runs_cons hfirst h)

/-! ## Where a text of sound words ends -/

/-- If the scanner has stopped, it has found a word that is not sound. -/
def StopsUnsound (next : Scan × List Token) : Prop :=
  next.1 = .stopped → ∃ t ∈ next.2, ¬ t.Sound

theorem stopsUnsound_of_ne {next : Scan × List Token} (h : next.1 ≠ .stopped) :
    StopsUnsound next :=
  fun hstopped => absurd hstopped h

theorem stopsUnsound_stop {t : Token} (h : ¬ t.Sound) : StopsUnsound (stop t) :=
  fun _ => ⟨t, List.mem_singleton_self t, h⟩

theorem stopsUnsound_cons {next : Scan × List Token} (t : Token) (h : StopsUnsound next) :
    StopsUnsound (next.1, t :: next.2) := by
  intro hstopped
  obtain ⟨u, hu, hunsound⟩ := h hstopped
  exact ⟨u, List.mem_cons_of_mem t hu, hunsound⟩

theorem stopsUnsound_begin (c : Char) : StopsUnsound (begin c) := by
  unfold begin
  split
  · exact stopsUnsound_of_ne (by simp)
  split
  -- a character with which no word begins is the last case
  case h_13 =>
    split
    · exact stopsUnsound_of_ne (by simp)
    · exact stopsUnsound_stop (by simp [Token.Sound])
  all_goals exact stopsUnsound_of_ne (by simp)

theorem stopsUnsound_step {scan : Scan} (h : scan ≠ .stopped) (c : Char) :
    StopsUnsound (scan.step c) := by
  cases scan with
  | between => exact stopsUnsound_begin c
  | word due t =>
      cases due with
      | nil => exact stopsUnsound_cons t (stopsUnsound_begin c)
      | cons d due =>
          simp only [Scan.step]
          split
          · split <;> exact stopsUnsound_of_ne (by simp)
          · exact stopsUnsound_stop (by simp [Token.Sound])
  | numeral chars place =>
      simp only [Scan.step]
      split
      · exact stopsUnsound_of_ne (by simp)
      · exact stopsUnsound_cons _ (stopsUnsound_begin c)
      · exact stopsUnsound_stop (by simp [Token.Sound])
  | string s =>
      simp only [Scan.step]
      split
      · exact stopsUnsound_of_ne (by simp)
      · exact stopsUnsound_of_ne (by simp)
      · exact stopsUnsound_stop (by simp [Token.Sound])
  | stopped => exact absurd rfl h

theorem unsound_of_runs {scan : Scan} {cs : List Char} {ts : List Token}
    (hscan : scan ≠ .stopped) (h : Runs scan cs .stopped ts) : ∃ t ∈ ts, ¬ t.Sound := by
  induction cs generalizing scan ts with
  | nil => exact absurd (h.unique (runs_nil scan)).1.symm hscan
  | cons c cs ih =>
      obtain ⟨after, us, hrest⟩ := exists_runs (scan.step c).1 cs
      obtain ⟨rfl, rfl⟩ := h.unique (runs_cons rfl hrest)
      by_cases hnext : (scan.step c).1 = .stopped
      · obtain ⟨t, ht, hunsound⟩ := stopsUnsound_step hscan c hnext
        exact ⟨t, List.mem_append_left us ht, hunsound⟩
      · obtain ⟨t, ht, hunsound⟩ := ih hnext hrest
        exact ⟨t, List.mem_append_right _ ht, hunsound⟩

/-- A text of sound words ends behind a word, or in a numeral that may end there. -/
theorem closed_or_numeral {cs : List Char} (h : ∀ t ∈ tokens cs, t.Sound) :
    Closed cs (tokens cs) ∨ ∃ chars place ts, place.mayEnd = true ∧
      Runs .between cs (.numeral chars place) ts ∧ tokens cs = ts ++ [numeralToken chars] := by
  obtain ⟨after, ts, hrun⟩ := exists_runs .between cs
  have htokens := tokens_of_runs hrun
  -- a word that is broken off by the end of the text is not sound
  have hend : ∀ t ∈ after.atEnd, t.Sound := by
    intro t ht
    refine h t ?_
    rw [htokens]
    exact List.mem_append_right ts ht
  cases after with
  | between =>
      refine Or.inl ?_
      rw [htokens, Scan.atEnd, List.append_nil]
      exact hrun
  | word due t => exact absurd (hend _ (List.mem_singleton_self _)) (by simp [Token.Sound])
  | numeral chars place =>
      by_cases hplace : place.mayEnd = true
      · refine Or.inr ⟨chars, place, ts, hplace, hrun, ?_⟩
        simpa [Scan.atEnd, hplace] using htokens
      · have hbroken := hend (.broken .incomplete (some .malformed)) (by simp [Scan.atEnd, hplace])
        exact absurd hbroken (by simp [Token.Sound])
  | string s =>
      exact absurd (hend _ (List.mem_singleton_self _)) (by simp [Token.Sound, OpenString.atEnd])
  | stopped =>
      obtain ⟨t, ht, hunsound⟩ := unsound_of_runs (by simp) hrun
      refine absurd (h t ?_) hunsound
      rw [htokens]
      exact List.mem_append_left _ ht

theorem gives_of_sound {cs : List Char} (h : ∀ t ∈ tokens cs, t.Sound) : Gives cs (tokens cs) := by
  rcases closed_or_numeral h with hclosed | ⟨chars, place, ts, hplace, hrun, htokens⟩
  · exact hclosed.gives
  · exact ⟨_, ts, _, hrun, pending_numeral chars hplace, htokens.symm⟩

/-! ## What may follow a numeral -/

theorem numeral_numeralToken (chars : List Char) : (numeralToken chars).Numeral := by
  unfold numeralToken
  split <;> exact trivial

/-- However it goes on, the first word that comes is the numeral. -/
theorem first_of_numeral {cs : List Char} {chars : List Char} {place : NumeralPlace} {after : Scan}
    {ts : List Token} (h : Runs (.numeral chars place) cs after ts) :
    ∃ w ws, ts ++ after.atEnd = w :: ws ∧ w.Numeral := by
  induction cs generalizing chars place ts with
  | nil =>
      obtain ⟨rfl, rfl⟩ := h.unique (runs_nil _)
      by_cases hplace : place.mayEnd = true
      · exact ⟨_, [], by simp [Scan.atEnd, hplace], numeral_numeralToken chars⟩
      · exact ⟨.broken .incomplete (some .malformed), [], by simp [Scan.atEnd, hplace], trivial⟩
  | cons c cs ih =>
      obtain ⟨last, us, hrest⟩ := exists_runs ((Scan.numeral chars place).step c).1 cs
      obtain ⟨rfl, rfl⟩ := h.unique (runs_cons rfl hrest)
      cases hstep : place.step c with
      | goOn next =>
          simp only [Scan.step, hstep] at hrest ⊢
          exact ih hrest
      | complete =>
          refine ⟨numeralToken chars, (begin c).2 ++ us ++ after.atEnd, ?_,
            numeral_numeralToken chars⟩
          simp
      | malformed =>
          refine ⟨.broken .malformed (some .malformed), us ++ after.atEnd, ?_, trivial⟩
          simp [stop]

/-- A text that would have gone on with the numeral in front of it begins with a numeral. -/
theorem first_of_not_endsNumeral {c : Char} (h : ¬ EndsNumeral c) (rest : List Char) :
    ∃ w ws, tokens (c :: rest) = w :: ws ∧ w.Numeral := by
  obtain ⟨after, ts, hrest⟩ := exists_runs (begin c).1 rest
  rw [tokens_cons hrest]
  by_cases hdigit : c.isDigit = true
  · have hbegin : ∃ place, begin c = (.numeral [c] place, []) := by
      by_cases hzero : c = '0'
      · exact ⟨.zero, by rw [hzero]; rfl⟩
      · exact ⟨.whole, begin_digit hdigit hzero⟩
    obtain ⟨place, hbegin⟩ := hbegin
    rw [hbegin] at hrest ⊢
    exact first_of_numeral hrest
  · have hmark : c = '.' ∨ c = 'e' ∨ c = 'E' := by
      unfold EndsNumeral at h
      simpa [hdigit, or_iff_not_imp_left] using h
    rcases hmark with rfl | rfl | rfl <;> exact ⟨_, _, rfl, trivial⟩

end Scan

/-! ## Putting blanks in and taking them away -/

/-- Blanks put in where the text may be cut. -/
theorem tokens_insert_blanks {before after blanks : List Char}
    (hblanks : ∀ c ∈ blanks, isSpace c = true) (hsound : ∀ t ∈ tokens before, t.Sound)
    (hcut : tokens (before ++ after) = tokens before ++ tokens after) :
    tokens (before ++ blanks ++ after) = tokens before ++ tokens after := by
  by_cases hne : blanks = []
  · rw [hne, List.append_nil]
    exact hcut
  · exact tokens_append ((gives_of_sound hsound).append_blanks hblanks hne) after

/-- Blanks taken away from where the text may be cut: the words on both sides stay apart. -/
theorem tokens_remove_blanks {before after : List Char} {t : Tree}
    (hdoc : Document.ofTokens (tokens before ++ tokens after) = ⟨t, false⟩) (ht : t.WellFormed) :
    tokens (before ++ after) = tokens before ++ tokens after := by
  have hwords := words_of_ofTokens hdoc ht
  have hsound : ∀ w ∈ tokens before, w.Sound := by
    intro w hw
    refine sound_words t ht w ?_
    rw [← hwords]
    exact List.mem_append_left _ hw
  rcases closed_or_numeral hsound with hclosed | ⟨chars, place, ts, hplace, hrun, htokens⟩
  · exact tokens_append hclosed after
  cases after with
  | nil => simp
  | cons c rest =>
      by_cases hends : EndsNumeral c
      · have hstep := (pending_numeral chars hplace).step c hends
        obtain ⟨last, us, hrest⟩ := exists_runs (begin c).1 rest
        have hall := tokens_of_runs (hrun.append (runs_cons hstep hrest))
        rw [hall, htokens, tokens_cons hrest]
        simp
      -- otherwise a numeral would stand behind the numeral
      · obtain ⟨w, ws, hafter, hw⟩ := first_of_not_endsNumeral hends rest
        rw [htokens, hafter, List.append_assoc] at hdoc
        exact absurd ht (not_adjacent_numerals (numeral_numeralToken chars) hw hdoc)

/-! ## Texts that write trees -/

/-- The words of the text are those of the tree, with which nothing is wrong. -/
def Writes (s : String) (t : Tree) : Prop :=
  tokens s.toList = t.words ∧ t.WellFormed

instance (s : String) (t : Tree) : Decidable (Writes s t) :=
  inferInstanceAs (Decidable (_ ∧ _))

/-- A text writes the tree that it is read as, and no other. -/
theorem writes_iff {s : String} {t : Tree} :
    Writes s t ↔ Document.ofText s = ⟨t, false⟩ ∧ t.WellFormed := by
  constructor
  · rintro ⟨hwords, ht⟩
    exact ⟨(ofTokens_eq_iff ht).mpr hwords, ht⟩
  · rintro ⟨hdoc, ht⟩
    exact ⟨(ofTokens_eq_iff ht).mp hdoc, ht⟩

theorem Writes.unique {s : String} {t t' : Tree} (h : Writes s t) (h' : Writes s t') : t = t' := by
  have hsame := (writes_iff.mp h).1.symm.trans (writes_iff.mp h').1
  exact (Document.mk.inj hsame).1

/-- Blanks are put between the words of a text or taken away from there.  A place is between words
if the text can be cut there into two that have the same words together. -/
inductive Respaces : String → String → Prop
  | added {before blanks after : String} (hblanks : ∀ c ∈ blanks.toList, isSpace c = true)
      (hcut : tokens (before ++ after).toList = tokens before.toList ++ tokens after.toList) :
      Respaces (before ++ after) (before ++ blanks ++ after)
  | removed {before blanks after : String} (hblanks : ∀ c ∈ blanks.toList, isSpace c = true)
      (hcut : tokens (before ++ blanks ++ after).toList =
        tokens before.toList ++ tokens after.toList) :
      Respaces (before ++ blanks ++ after) (before ++ after)

theorem respaces_append (s : String) {blanks : String}
    (hblanks : ∀ c ∈ blanks.toList, isSpace c = true) : Respaces s (s ++ blanks) := by
  have hadded := @Respaces.added s blanks "" hblanks (by simp)
  rwa [String.append_empty, String.append_empty] at hadded

theorem Writes.respaced {s s' : String} {t : Tree} (h : Writes s t) (hspace : Respaces s s') :
    Writes s' t := by
  obtain ⟨hwords, ht⟩ := h
  refine ⟨?_, ht⟩
  cases hspace with
  | @added before blanks after hblanks hcut =>
      have hsound : ∀ w ∈ tokens before.toList, w.Sound := by
        intro w hw
        refine sound_words t ht w ?_
        rw [← hwords, hcut]
        exact List.mem_append_left _ hw
      rw [← hwords, hcut, String.toList_append, String.toList_append]
      rw [String.toList_append] at hcut
      exact tokens_insert_blanks hblanks hsound hcut
  | @removed before blanks after hblanks hcut =>
      have hdoc := (ofTokens_eq_iff ht).mpr hwords
      rw [hcut] at hwords hdoc
      rw [← hwords, String.toList_append]
      exact tokens_remove_blanks hdoc ht

end Json
end PacketPolicy
