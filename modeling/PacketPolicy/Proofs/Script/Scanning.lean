import PacketPolicy.Proofs.Script.Grammar
import PacketPolicy.Proofs.Text.Numerals

/-!
# Scanning a script piece by piece

A text that ends with a mark gives the same tokens whatever follows it, so a script can be
scanned in the pieces in which it was written.

* `Scans` -- a text gives certain tokens, and what follows is scanned by itself;
* `scans_word`, `scans_quoted`, `scans_mark` -- the pieces; `Scans.append` puts them together;
* `scans_closed` -- a fixed text is scanned by running the scanner on it;
* `Lays` -- a text gives certain lines, and what follows begins a new one.
-/

namespace PacketPolicy
namespace Script

/-- Whatever follows, the text gives these tokens, and then come those of what follows. -/
def Scans (cs : List Char) (tokens : List Token) : Prop :=
  ∀ rest, (Reading.word []).scan? (cs ++ rest) =
    ((Reading.word []).scan? rest).map (tokens ++ ·)

theorem Scans.append {as bs : List Char} {ts us : List Token} (ha : Scans as ts)
    (hb : Scans bs us) : Scans (as ++ bs) (ts ++ us) := by
  intro rest
  rw [List.append_assoc, ha, hb, Option.map_map]
  congr 1
  funext tokens
  simp

/-! ## Marks -/

/-- A mark is neither a character of words nor a quote. -/
theorem of_mark? {c : Char} {tokens : List Token} (h : mark? c = some tokens) :
    isWordChar c = false ∧ c ≠ '"' := by
  unfold mark? at h
  split at h
  · rename_i hblank
    rw [hblank]
    decide
  split at h
  · rename_i hstop
    rcases hstop with rfl | rfl <;> decide
  split at h
  · rename_i hcomma
    rw [hcomma]
    decide
  split at h
  · rename_i hopening
    rw [hopening]
    decide
  split at h
  · rename_i hclosing
    rw [hclosing]
    decide
  · cases h

theorem scans_mark {c : Char} {tokens : List Token} (h : mark? c = some tokens) :
    Scans [c] tokens := by
  obtain ⟨hword, hquote⟩ := of_mark? h
  intro rest
  rw [List.singleton_append, Reading.scan?, if_neg (by simp [hword]), if_neg hquote, h]
  rfl

/-! ## Words and quoted texts -/

theorem scan?_run {w : List Char} (hw : ∀ c ∈ w, isWordChar c = true) (run rest : List Char) :
    (Reading.word run).scan? (w ++ rest) = (Reading.word (w.reverse ++ run)).scan? rest := by
  induction w generalizing run with
  | nil => rfl
  | cons c w ih =>
      obtain ⟨hc, hw⟩ := List.forall_mem_cons.mp hw
      rw [List.cons_append, Reading.scan?, if_pos hc, ih hw]
      simp

theorem wordOf_reverse {w : List Char} (hw : w ≠ []) :
    wordOf w.reverse = [.word (String.ofList w)] := by
  simp [wordOf, hw]

/-- A word ends where a mark stands. -/
theorem scans_word {s : String} (hne : s.toList ≠ [])
    (hs : ∀ c ∈ s.toList, isWordChar c = true) {c : Char} {tokens : List Token}
    (hc : mark? c = some tokens) : Scans (s.toList ++ [c]) (.word s :: tokens) := by
  obtain ⟨hword, hquote⟩ := of_mark? hc
  intro rest
  rw [List.append_assoc, scan?_run hs, List.append_nil, List.singleton_append, Reading.scan?,
    if_neg (by simp [hword]), if_neg hquote, hc, wordOf_reverse hne, String.ofList_toList]
  rfl

/-- A text may stand between quotes when it has no quotes and no line feeds. -/
def Quotable (s : String) : Prop :=
  ∀ c ∈ s.toList, c ≠ '"' ∧ c ≠ '\n'

theorem scan?_quotedRun {cs : List Char} (h : ∀ c ∈ cs, c ≠ '"' ∧ c ≠ '\n')
    (run rest : List Char) :
    (Reading.quoted run).scan? (cs ++ rest) = (Reading.quoted (cs.reverse ++ run)).scan? rest := by
  induction cs generalizing run with
  | nil => rfl
  | cons c cs ih =>
      obtain ⟨⟨hquote, hline⟩, hrest⟩ := List.forall_mem_cons.mp h
      rw [List.cons_append, Reading.scan?, if_neg hquote, if_neg hline, ih hrest]
      simp

theorem scans_quoted {s : String} (h : Quotable s) :
    Scans ('"' :: s.toList ++ ['"']) [.quoted s] := by
  intro rest
  rw [List.append_assoc, List.cons_append, Reading.scan?, if_neg (by decide), if_pos rfl,
    scan?_quotedRun h, List.singleton_append, Reading.scan?, if_pos rfl, List.append_nil,
    List.reverse_reverse, String.ofList_toList, Option.map_map]
  rfl

/-! ## Fixed texts -/

/-- Behind a mark the scanner has nothing left over from before, so that what it found up to
there stays when more follows. -/
theorem scan?_append {last : Char} {marks : List Token} (hlast : mark? last = some marks)
    (start rest : List Char) {m : Reading} {tokens : List Token}
    (h : m.scan? (start ++ [last]) = some tokens) :
    m.scan? (start ++ last :: rest) = ((Reading.word []).scan? rest).map (tokens ++ ·) := by
  -- the scan of the shorter text decides every character but those behind its last mark
  obtain ⟨hword, hquote⟩ := of_mark? hlast
  induction start generalizing m tokens with
  | nil =>
      cases m with
      | word run =>
          simp only [List.nil_append, Reading.scan?, hword, hquote, hlast, if_false,
            Bool.false_eq_true, wordOf, List.isEmpty_nil, if_true, Option.map_some,
            List.append_nil, Option.some.injEq] at h ⊢
          rw [h]
      | quoted run => simp [Reading.scan?, hquote] at h
  | cons c start ih =>
      cases m with
      | word run =>
          simp only [List.cons_append, Reading.scan?] at h ⊢
          split at h
          · rename_i hc
            rw [if_pos hc]
            exact ih h
          · rename_i hc
            rw [if_neg hc]
            split at h
            · rename_i hopen
              obtain ⟨more, hmore, rfl⟩ := Option.map_eq_some_iff.mp h
              rw [if_pos hopen, ih hmore, Option.map_map]
              congr 1
              funext tokens
              simp
            -- a mark ends the word that is being read, which is the same in both texts
            · rename_i hopen
              rw [if_neg hopen]
              cases hmark : mark? c with
              | none => simp [hmark] at h
              | some found =>
                  simp only [hmark] at h ⊢
                  obtain ⟨more, hmore, rfl⟩ := Option.map_eq_some_iff.mp h
                  rw [ih hmore, Option.map_map]
                  congr 1
                  funext tokens
                  simp
      | quoted run =>
          simp only [List.cons_append, Reading.scan?] at h ⊢
          split at h
          · rename_i hclose
            obtain ⟨more, hmore, rfl⟩ := Option.map_eq_some_iff.mp h
            rw [if_pos hclose, ih hmore, Option.map_map]
            congr 1
          · rename_i hclose
            rw [if_neg hclose]
            split at h
            · cases h
            · rename_i hline
              rw [if_neg hline]
              exact ih h

/-- A fixed text that ends with a mark is scanned by running the scanner on it. -/
theorem scans_closed {cs : List Char} {tokens : List Token}
    (h : (Reading.word []).scan? cs = some tokens)
    (hlast : (cs.getLast?.bind mark?).isSome = true) : Scans cs tokens := by
  obtain ⟨marks, hmarks⟩ := Option.isSome_iff_exists.mp hlast
  obtain ⟨last, hend, hmark⟩ := Option.bind_eq_some_iff.mp hmarks
  obtain ⟨start, rfl⟩ := List.getLast?_eq_some_iff.mp hend
  intro rest
  rw [List.append_assoc, List.singleton_append]
  exact scan?_append hmark start rest h

/-! ## Lines -/

theorem linesFrom_append_stop (tokens rest run : List Token) :
    linesFrom run (tokens ++ .stop :: rest) =
      linesFrom run (tokens ++ [.stop]) ++ linesFrom [] rest := by
  induction tokens generalizing run with
  | nil =>
      simp only [List.nil_append, linesFrom, List.isEmpty_nil, if_true]
      split <;> simp
  | cons t tokens ih =>
      cases t with
      | stop =>
          simp only [List.cons_append, linesFrom]
          split <;> simp [ih]
      | _ =>
          simp only [List.cons_append, linesFrom]
          exact ih _

theorem linesFrom_line {tokens : List Token} (h : Token.stop ∉ tokens) (run : List Token)
    (hne : run ≠ [] ∨ tokens ≠ []) :
    linesFrom run (tokens ++ [.stop]) = [run.reverse ++ tokens] := by
  induction tokens generalizing run with
  | nil =>
      have hrun : run ≠ [] := by simpa using hne
      simp [linesFrom, hrun]
  | cons t tokens ih =>
      have htokens : Token.stop ∉ tokens := fun hmem => h (List.mem_cons_of_mem _ hmem)
      have hstep := ih htokens (t :: run) (.inl (List.cons_ne_nil _ _))
      cases t with
      | stop => exact absurd List.mem_cons_self h
      | _ =>
          show linesFrom (_ :: run) (tokens ++ [.stop]) = _
          rw [hstep]
          simp

/-- Whatever follows, the text gives these lines, and then come those of what follows. -/
def Lays (cs : List Char) (lines : List (List Token)) : Prop :=
  ∀ rest, textLines? (cs ++ rest) = (textLines? rest).map (lines ++ ·)

theorem lays_nil : Lays [] [] := by
  intro rest
  simp

theorem Lays.append {as bs : List Char} {ls ms : List (List Token)} (ha : Lays as ls)
    (hb : Lays bs ms) : Lays (as ++ bs) (ls ++ ms) := by
  intro rest
  rw [List.append_assoc, ha, hb, Option.map_map]
  congr 1
  funext lines
  simp

/-- A text that ends a line. -/
theorem Scans.lays {cs : List Char} {tokens : List Token} (h : Scans cs (tokens ++ [.stop])) :
    Lays cs (linesFrom [] (tokens ++ [.stop])) := by
  intro rest
  unfold textLines?
  rw [h, Option.map_map, Option.map_map]
  congr 1
  funext more
  simp [linesFrom_append_stop tokens more]

/-- A text that is one line. -/
theorem Scans.laysLine {cs : List Char} {tokens : List Token} (h : Scans cs (tokens ++ [.stop]))
    (hstop : Token.stop ∉ tokens) (hne : tokens ≠ []) : Lays cs [tokens] := by
  have hlays := h.lays
  rwa [linesFrom_line hstop [] (.inr hne)] at hlays

end Script
end PacketPolicy
