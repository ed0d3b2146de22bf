import PacketPolicy.Proofs.Json.Building
import PacketPolicy.Proofs.Text.Numerals

/-!
# From the text of a value to its words

The scanner finds the words of a value in the text that the value is written as, with and without
line feeds and blanks between them.

* `Scan.Runs` -- from one state to another over a text, with the words found on the way;
* `Scan.Pending`, `Scan.Gives` -- a numeral ends only where something else begins, so the last
  word of a text may still be due;
* `gives_integer`, `closed_quoted` -- numerals and strings;
* `gives_indented` -- whole values, by induction on the value.
-/

namespace PacketPolicy
namespace Json
namespace Scan

/-! ## Runs of the scanner -/

/-- The scanner goes from one state to another over a text and finds these words. -/
def Runs (scan : Scan) (cs : List Char) (after : Scan) (ts : List Token) : Prop :=
  ∀ found, scanFrom scan found cs = (after, ts.reverse ++ found)

theorem runs_nil (scan : Scan) : Runs scan [] scan [] := by
  intro found
  rfl

theorem scanFrom_cons (scan : Scan) (found : List Token) (c : Char) (cs : List Char) :
    scanFrom scan found (c :: cs) =
      scanFrom (scan.step c).1 ((scan.step c).2.reverse ++ found) cs := by
  rw [← List.reverseAux_eq]
  rfl

theorem runs_cons {scan next after : Scan} {c : Char} {cs : List Char} {found ts : List Token}
    (hstep : scan.step c = (next, found)) (hrest : Runs next cs after ts) :
    Runs scan (c :: cs) after (found ++ ts) := by
  intro before
  rw [scanFrom_cons, hstep, hrest]
  simp

theorem Runs.append {scan next after : Scan} {as bs : List Char} {ts us : List Token}
    (ha : Runs scan as next ts) (hb : Runs next bs after us) :
    Runs scan (as ++ bs) after (ts ++ us) := by
  intro found
  have hfirst := ha found
  have hrest := hb (ts.reverse ++ found)
  unfold scanFrom at hfirst hrest ⊢
  rw [List.foldl_append, hfirst, hrest]
  simp

/-- A text after which nothing is due. -/
def Closed (cs : List Char) (ts : List Token) : Prop :=
  Runs .between cs .between ts

theorem closed_nil : Closed [] [] :=
  runs_nil .between

theorem Closed.append {as bs : List Char} {ts us : List Token} (ha : Closed as ts)
    (hb : Closed bs us) : Closed (as ++ bs) (ts ++ us) :=
  Runs.append ha hb

/-- A bracket, a comma, a colon or a blank. -/
theorem closed_mark {c : Char} {ts : List Token} (h : begin c = (.between, ts)) :
    Closed [c] ts := by
  have hrun : Runs .between [c] .between (ts ++ []) := runs_cons h (runs_nil .between)
  rwa [List.append_nil] at hrun

theorem begin_space {c : Char} (h : isSpace c = true) : begin c = (.between, []) := by
  unfold begin
  rw [if_pos h]

theorem closed_blanks {cs : List Char} (h : ∀ c ∈ cs, isSpace c = true) : Closed cs [] := by
  induction cs with
  | nil => exact closed_nil
  | cons c cs ih =>
      obtain ⟨hc, hcs⟩ := List.forall_mem_cons.mp h
      exact (closed_mark (begin_space hc)).append (ih hcs)

theorem isSpace_of_mem_newLine (level : Nat) : ∀ c ∈ Value.newLine level, isSpace c = true := by
  intro c hc
  rcases List.mem_cons.mp hc with rfl | hc
  · rfl
  · rw [List.eq_of_mem_replicate hc]
    rfl

theorem closed_newLine (level : Nat) : Closed (Value.newLine level) [] :=
  closed_blanks (isSpace_of_mem_newLine level)

/-! ## Words that may still be due -/

/-- A character that cannot belong to a numeral. -/
def EndsNumeral (c : Char) : Prop :=
  c.isDigit = false ∧ c ≠ '.' ∧ c ≠ 'e' ∧ c ≠ 'E'

/-- The words are due in this state, and come with the next character that belongs to no numeral,
or with the end of the text. -/
structure Pending (scan : Scan) (ts : List Token) : Prop where
  step : ∀ c, EndsNumeral c → scan.step c = ((begin c).1, ts ++ (begin c).2)
  atEnd : scan.atEnd = ts

theorem pending_between : Pending .between [] where
  step _ _ := rfl
  atEnd := rfl

/-- A text with these words, the last of which may still be due. -/
def Gives (cs : List Char) (ts : List Token) : Prop :=
  ∃ scan before due, Runs .between cs scan before ∧ scan.Pending due ∧ before ++ due = ts

theorem Closed.gives {cs : List Char} {ts : List Token} (h : Closed cs ts) : Gives cs ts :=
  ⟨.between, ts, [], h, pending_between, List.append_nil ts⟩

theorem Closed.append_gives {as bs : List Char} {ts us : List Token} (ha : Closed as ts)
    (hb : Gives bs us) : Gives (as ++ bs) (ts ++ us) := by
  obtain ⟨scan, before, due, hrun, hdue, rfl⟩ := hb
  exact ⟨scan, ts ++ before, due, Runs.append ha hrun, hdue, List.append_assoc ts before due⟩

/-- A mark behind a text ends its last word. -/
theorem Gives.append_mark {cs : List Char} {ts us : List Token} (h : Gives cs ts) {c : Char}
    (hc : EndsNumeral c) (hmark : begin c = (.between, us)) : Closed (cs ++ [c]) (ts ++ us) := by
  obtain ⟨scan, before, due, hrun, hdue, rfl⟩ := h
  have hstep := hdue.step c hc
  rw [hmark] at hstep
  have hlast : Runs scan [c] .between (due ++ us ++ []) := runs_cons hstep (runs_nil .between)
  rw [List.append_nil] at hlast
  have hall := hrun.append hlast
  rwa [← List.append_assoc] at hall

theorem endsNumeral_space {c : Char} (h : isSpace c = true) : EndsNumeral c := by
  unfold isSpace at h
  simp only [Bool.or_eq_true, beq_iff_eq] at h
  rcases h with ((rfl | rfl) | rfl) | rfl <;> refine ⟨?_, ?_, ?_, ?_⟩ <;> decide

/-- Blanks behind a text end its last word, and are no words themselves. -/
theorem Gives.append_blanks {cs ws : List Char} {ts : List Token} (h : Gives cs ts)
    (hws : ∀ c ∈ ws, isSpace c = true) (hne : ws ≠ []) : Closed (cs ++ ws) ts := by
  obtain ⟨c, rest, rfl⟩ := List.exists_cons_of_ne_nil hne
  obtain ⟨hc, hrest⟩ := List.forall_mem_cons.mp hws
  have hfirst := h.append_mark (endsNumeral_space hc) (begin_space hc)
  have hall := hfirst.append (closed_blanks hrest)
  simpa using hall

theorem tokens_of_gives {cs : List Char} {ts : List Token} (h : Gives cs ts) : tokens cs = ts := by
  obtain ⟨scan, before, due, hrun, hdue, rfl⟩ := h
  unfold tokens
  rw [hrun []]
  simp [hdue.atEnd]

end Scan

open Scan

/-! ## Strings -/

/-- Characters of a string so far. -/
def openString (chars : List Char) : Scan :=
  .string ⟨chars, false, .plain⟩

theorem utf8Size_digitChar : ∀ n < 16, (Nat.digitChar n).utf8Size = 1 := by
  decide

/-- A digit of a numbered character. -/
theorem step_numbered (chars : List Char) (value bytes : Nat) {k : Nat} (hk : k < 16)
    (hbytes : bytes + 1 < 4) :
    (Scan.string ⟨chars, false, .numbered none value bytes false⟩).step (Nat.digitChar k) =
      (.string ⟨chars, false, .numbered none (value * 16 + k) (bytes + 1) false⟩, []) := by
  simp [Scan.step, OpenString.step, Text.hexDigit?_digitChar k hk, utf8Size_digitChar k hk, hbytes]

/-- The last digit of the number of a character below the surrogates. -/
theorem step_numbered_last (chars : List Char) (value : Nat) {k : Nat} (hk : k < 16)
    (hvalue : value * 16 + k < firstHigh) :
    (Scan.string ⟨chars, false, .numbered none value 3 false⟩).step (Nat.digitChar k) =
      (openString (Char.ofNat (value * 16 + k) :: chars), []) := by
  have hlow : ¬ firstLow ≤ value * 16 + k := by
    unfold firstHigh at hvalue
    unfold firstLow
    omega
  have hhigh : ¬ firstHigh ≤ value * 16 + k := by omega
  simp [Scan.step, OpenString.step, Text.hexDigit?_digitChar k hk, utf8Size_digitChar k hk,
    OpenString.pushUnit, hlow, hhigh, OpenString.push, openString]

/-- An escape of two characters. -/
theorem runs_pair {m escaped after : Scan} {first second : Char}
    (hfirst : m.step first = (escaped, [])) (hsecond : escaped.step second = (after, [])) :
    Runs m [first, second] after [] :=
  runs_cons hfirst (runs_cons hsecond (runs_nil _))

/-- A character between quotation marks is read as the character itself. -/
theorem runs_escape (c : Char) (chars : List Char) :
    Runs (openString chars) (Value.escape c) (openString (c :: chars)) [] := by
  unfold Value.escape
  split
  · rename_i hc
    subst hc
    exact runs_pair rfl rfl
  split
  · rename_i hc
    subst hc
    exact runs_pair rfl rfl
  split
  · rename_i hc
    subst hc
    exact runs_pair rfl rfl
  split
  · rename_i hc
    subst hc
    exact runs_pair rfl rfl
  split
  · rename_i hc
    subst hc
    exact runs_pair rfl rfl
  split
  · rename_i hc
    subst hc
    exact runs_pair rfl rfl
  split
  · rename_i hc
    subst hc
    exact runs_pair rfl rfl
  split
  -- a control character is two digits behind two zeros
  · rename_i hcontrol
    have hthird := step_numbered chars 0 2 (k := c.toNat / 16) (by omega) (by omega)
    have hlast := step_numbered_last chars (0 * 16 + c.toNat / 16) (k := c.toNat % 16)
      (by omega) (by unfold firstHigh; omega)
    have hc : Char.ofNat ((0 * 16 + c.toNat / 16) * 16 + c.toNat % 16) = c := by
      rw [Nat.zero_mul, Nat.zero_add, Nat.div_add_mod' c.toNat 16]
      exact Char.ofNat_toNat c
    rw [hc] at hlast
    -- the two zeros in front leave the value and count two bytes
    have hzeros : Runs (openString chars) ['\\', 'u', '0', '0']
        (.string ⟨chars, false, .numbered none 0 2 false⟩) [] :=
      runs_cons rfl (runs_cons rfl (runs_cons rfl (runs_cons rfl (runs_nil _))))
    exact hzeros.append (runs_cons hthird (runs_cons hlast (runs_nil _)))
  -- every other character stands for itself
  · rename_i hquote hslash _ _ _ _ _ hcontrol
    have hstep : (openString chars).step c = (openString (c :: chars), []) := by
      simp [openString, Scan.step, OpenString.step, OpenString.stepPlain, hquote, hslash,
        hcontrol, OpenString.push]
    exact runs_cons hstep (runs_nil _)

theorem runs_escapes (cs chars : List Char) :
    Runs (openString chars) (cs.flatMap Value.escape) (openString (cs.reverse ++ chars)) [] := by
  induction cs generalizing chars with
  | nil => exact runs_nil _
  | cons c cs ih =>
      have hrest := ih (c :: chars)
      rw [List.flatMap_cons, List.reverse_cons, List.append_assoc]
      exact (runs_escape c chars).append hrest

theorem closed_quoted (s : String) : Closed (Value.quoted s) [.string s] := by
  have hbody := runs_escapes s.toList []
  have hend : (openString (s.toList.reverse ++ [])).step '"' = (.between, [.string s]) := by
    simp [openString, Scan.step, OpenString.step, OpenString.stepPlain]
  have hclose : Runs (openString (s.toList.reverse ++ [])) ['"'] .between ([.string s] ++ []) :=
    runs_cons hend (runs_nil _)
  have hopen : Scan.between.step '"' = (openString [], []) := rfl
  exact runs_cons hopen (hbody.append hclose)

/-! ## Numbers -/

/-- A numeral at a place where it may end. -/
theorem pending_numeral (chars : List Char) {place : NumeralPlace} (hplace : place.mayEnd = true) :
    Pending (.numeral chars place) [numeralToken chars] := by
  constructor
  · rintro c ⟨hdigit, hpoint, hsmall, hlarge⟩
    have hstep : place.step c = .complete := by
      cases place with
      | zero | whole | fraction | power =>
          simp [NumeralPlace.step, hdigit, hpoint, hsmall, hlarge]
      | sign | point | mark | powerSign => cases hplace
    simp [Scan.step, hstep]
  · simp [Scan.atEnd, hplace]

theorem runs_digits {digits : List Char} (h : ∀ c ∈ digits, c.isDigit = true)
    (chars : List Char) :
    Runs (.numeral chars .whole) digits (.numeral (digits.reverse ++ chars) .whole) [] := by
  induction digits generalizing chars with
  | nil => exact runs_nil _
  | cons c digits ih =>
      obtain ⟨hc, hdigits⟩ := List.forall_mem_cons.mp h
      have hstep : (Scan.numeral chars .whole).step c = (.numeral (c :: chars) .whole, []) := by
        simp [Scan.step, NumeralPlace.step, hc]
      rw [List.reverse_cons, List.append_assoc]
      exact runs_cons hstep (ih hdigits (c :: chars))

theorem takeWhile_isDigit {digits : List Char} (h : ∀ c ∈ digits, c.isDigit = true) :
    digits.takeWhile Char.isDigit = digits ∧ digits.dropWhile Char.isDigit = [] := by
  induction digits with
  | nil => exact ⟨rfl, rfl⟩
  | cons c digits ih =>
      obtain ⟨hc, hdigits⟩ := List.forall_mem_cons.mp h
      obtain ⟨htake, hdrop⟩ := ih hdigits
      simp [hc, htake, hdrop]

/-- A numeral of digits alone has no other parts. -/
theorem ofChars_digits {digits : List Char} (h : ∀ c ∈ digits, c.isDigit = true) :
    Number.Numeral.ofChars digits = ⟨false, digits, none, none⟩ := by
  obtain ⟨htake, hdrop⟩ := takeWhile_isDigit h
  have hsign : (digits.head? == some '-') = false := by
    cases digits with
    | nil => rfl
    | cons c digits =>
        have hc := h c List.mem_cons_self
        have hne : c ≠ '-' := by
          rintro rfl
          exact absurd hc (by decide)
        simp [hne]
  simp [Number.Numeral.ofChars, hsign, htake, hdrop]

theorem ofChars_negative {digits : List Char} (h : ∀ c ∈ digits, c.isDigit = true) :
    Number.Numeral.ofChars ('-' :: digits) = ⟨true, digits, none, none⟩ := by
  obtain ⟨htake, hdrop⟩ := takeWhile_isDigit h
  simp [Number.Numeral.ofChars, htake, hdrop]

theorem of?_val (n : Integer) : Integer.of? n.val = some n := by
  unfold Integer.of?
  rw [dif_pos ⟨n.least_le, n.le_greatest⟩]

/-- The digits of a whole number, with or without a sign, are a numeral for it. -/
theorem ofNumeral?_digits (n : Integer) (negative : Bool)
    (hsign : n.val = if negative then -(n.val.natAbs : Int) else n.val.natAbs)
    (hzero : negative = true → n.val ≠ 0) :
    Number.ofNumeral? ⟨negative, (toString n.val.natAbs).toList, none, none⟩ =
      some (.integer n) := by
  unfold Number.ofNumeral?
  simp only [Text.digitsValue_toString]
  rw [if_neg, ← hsign, of?_val]
  rintro ⟨hnegative, habs⟩
  exact hzero hnegative (by omega)

/-- A numeral begins with a digit other than zero. -/
theorem begin_digit {c : Char} (hc : c.isDigit = true) (hzero : c ≠ '0') :
    begin c = (.numeral [c] .whole, []) := by
  have hspace : isSpace c = false := by
    unfold isSpace
    simp only [Bool.or_eq_false_iff, beq_eq_false_iff_ne]
    refine ⟨⟨⟨?_, ?_⟩, ?_⟩, ?_⟩ <;>
      · rintro rfl
        exact absurd hc (by decide)
  unfold begin
  rw [if_neg (by simp [hspace])]
  split
  all_goals first
    | exact absurd hc (by decide)
    | exact absurd rfl hzero
    | rw [if_pos hc]

/-- A positive number is written with digits, the first of which is not zero. -/
theorem exists_digits {k : Nat} (hk : 0 < k) :
    ∃ c rest, (toString k).toList = c :: rest ∧ c ≠ '0' ∧ c.isDigit = true ∧
      ∀ d ∈ rest, d.isDigit = true := by
  obtain ⟨c, rest, hcs⟩ := List.exists_cons_of_ne_nil (Text.toList_toString_ne_nil k)
  have hdigits : ∀ d ∈ c :: rest, d.isDigit = true := by
    intro d hd
    rw [← hcs] at hd
    exact Text.isDigit_of_mem_toString hd
  have hhead := Text.head?_toString_ne_zero hk
  rw [hcs] at hhead
  exact ⟨c, rest, hcs, by simpa using hhead, hdigits c List.mem_cons_self,
    fun d hd => hdigits d (List.mem_cons_of_mem _ hd)⟩

theorem numeralToken_eq {reversed : List Char} {n : Number}
    (h : Number.ofNumeral? (Number.Numeral.ofChars reversed.reverse) = some n) :
    numeralToken reversed = .number n := by
  unfold numeralToken
  rw [h]

/-- A whole number is found in its numeral once the numeral has ended. -/
theorem gives_integer (n : Integer) :
    Gives (Number.text (.integer n)).toList [.number (.integer n)] := by
  have htext : (Number.text (.integer n)).toList =
      if 0 ≤ n.val then (toString n.val.natAbs).toList
      else '-' :: (toString n.val.natAbs).toList := by
    show (toString n.val).toList = _
    rw [Int.toString_eq_repr, Int.repr_eq_if]
    split
    · rw [show n.val.natAbs = n.val.toNat by omega]
      rfl
    · rw [show n.val.natAbs = (-n.val).toNat by omega, String.toList_append]
      rfl
  rw [htext]
  -- zero is the only numeral that may begin with a zero
  by_cases hzero : n.val = 0
  · obtain rfl : n = ⟨0, by decide, by decide⟩ := by
      cases n
      subst hzero
      rfl
    exact ⟨.numeral ['0'] .zero, [], _, runs_cons rfl (runs_nil _), pending_numeral _ rfl, rfl⟩
  obtain ⟨c, rest, hcs, hc, hdigit, hrest⟩ := exists_digits (k := n.val.natAbs) (by omega)
  have hdigits : ∀ d ∈ c :: rest, d.isDigit = true := List.forall_mem_cons.mpr ⟨hdigit, hrest⟩
  split
  · rename_i hsign
    have hvalue : n.val = (n.val.natAbs : Int) := by omega
    have hfirst : Scan.between.step c = (.numeral [c] .whole, []) := begin_digit hdigit hc
    have hrun : Runs .between (c :: rest) (.numeral (rest.reverse ++ [c]) .whole) [] :=
      runs_cons hfirst (runs_digits hrest [c])
    have htoken : numeralToken (rest.reverse ++ [c]) = .number (.integer n) := by
      have hnumber := ofNumeral?_digits n false hvalue (by simp)
      rw [hcs] at hnumber
      refine numeralToken_eq ?_
      rw [List.reverse_append, List.reverse_reverse]
      exact (congrArg _ (ofChars_digits hdigits)).trans hnumber
    rw [hcs]
    exact ⟨_, [], _, hrun, pending_numeral _ rfl, by rw [htoken]; rfl⟩
  · rename_i hsign
    have hvalue : n.val = -(n.val.natAbs : Int) := by omega
    have hfirst : (Scan.numeral ['-'] .sign).step c = (.numeral [c, '-'] .whole, []) := by
      simp [Scan.step, NumeralPlace.step, hc, hdigit]
    have hrun : Runs .between ('-' :: c :: rest) (.numeral (rest.reverse ++ [c, '-']) .whole) [] :=
      runs_cons rfl (runs_cons hfirst (runs_digits hrest [c, '-']))
    have htoken : numeralToken (rest.reverse ++ [c, '-']) = .number (.integer n) := by
      have hnumber := ofNumeral?_digits n true hvalue (fun _ => hzero)
      rw [hcs] at hnumber
      refine numeralToken_eq ?_
      rw [List.reverse_append, List.reverse_reverse]
      exact (congrArg _ (ofChars_negative hdigits)).trans hnumber
    rw [hcs]
    exact ⟨_, [], _, hrun, pending_numeral _ rfl, by rw [htoken]; rfl⟩

/-! ## Whole values -/

theorem endsNumeral_comma : EndsNumeral ',' := by
  refine ⟨?_, ?_, ?_, ?_⟩ <;> decide

theorem endsNumeral_lineFeed : EndsNumeral '\n' := by
  refine ⟨?_, ?_, ?_, ?_⟩ <;> decide

theorem Scan.Gives.append_newLine {cs : List Char} {ts : List Token} (h : Gives cs ts)
    (level : Nat) : Closed (cs ++ Value.newLine level) ts :=
  h.append_blanks (isSpace_of_mem_newLine level) (List.cons_ne_nil _ _)

/-- A name with the colon and the blank behind it. -/
theorem closed_name (name : String) :
    Closed (Value.quoted name ++ [':', ' ']) [.string name, .colon] := by
  have hcolon : Closed [':', ' '] [.colon] := runs_cons rfl (runs_cons rfl (runs_nil _))
  exact (closed_quoted name).append hcolon

mutual

/-- The words of a value are found in its lines. -/
theorem gives_indented (v : Value) (h : v.Whole) (level : Nat) :
    Gives (v.indentedChars level) v.tokens := by
  cases v with
  | null =>
      have hword : Closed ['n', 'u', 'l', 'l'] [.null] :=
        runs_cons rfl (runs_cons rfl (runs_cons rfl (runs_cons rfl (runs_nil _))))
      exact hword.gives
  | bool b =>
      cases b with
      | false =>
          have hword : Closed ['f', 'a', 'l', 's', 'e'] [.bool false] :=
            runs_cons rfl (runs_cons rfl (runs_cons rfl (runs_cons rfl
              (runs_cons rfl (runs_nil _)))))
          exact hword.gives
      | true =>
          have hword : Closed ['t', 'r', 'u', 'e'] [.bool true] :=
            runs_cons rfl (runs_cons rfl (runs_cons rfl (runs_cons rfl (runs_nil _))))
          exact hword.gives
  | number n =>
      cases n with
      | integer n => exact gives_integer n
      | floating bits => exact h.elim
  | string s => exact (closed_quoted s).gives
  | array items =>
      have hopen : Closed ['['] [.openArray] := closed_mark rfl
      have hclose : Closed [']'] [.closeArray] := closed_mark rfl
      cases items with
      | nil => exact (hopen.append hclose).gives
      | cons v items =>
          obtain ⟨hv, hitems⟩ := h
          -- an item need not be closed: what follows it begins with a comma or a line feed
          have hfirst := (hopen.append (closed_newLine (level + 1))).append_gives
            (gives_indented v hv (level + 1))
          have hmore := gives_indentedItems items hitems (level + 1) hfirst
          have hall := (hmore.append_newLine level).append hclose
          simpa [Value.indentedChars, Value.tokens] using hall.gives
  | object members =>
      have hopen : Closed ['\x7b'] [.openObject] := closed_mark rfl
      have hclose : Closed ['\x7d'] [.closeObject] := closed_mark rfl
      cases members with
      | nil => exact (hopen.append hclose).gives
      | cons member members =>
          obtain ⟨name, v⟩ := member
          obtain ⟨hv, hmembers⟩ := h
          have hname := (hopen.append (closed_newLine (level + 1))).append (closed_name name)
          have hfirst := hname.append_gives (gives_indented v hv (level + 1))
          have hmore := gives_indentedMembers members hmembers (level + 1) hfirst
          have hall := (hmore.append_newLine level).append hclose
          simpa [Value.indentedChars, Value.tokens] using hall.gives

theorem gives_indentedItems (items : List Value) (h : Value.Whole.wholeItems items) (level : Nat)
    {cs : List Char} {ts : List Token} (hcs : Gives cs ts) :
    Gives (cs ++ Value.indentedChars.indentedItems level items)
      (ts ++ Value.tokens.moreItems items) := by
  cases items with
  | nil => simpa [Value.indentedChars.indentedItems, Value.tokens.moreItems] using hcs
  | cons v items =>
      obtain ⟨hv, hitems⟩ := h
      have hcomma : Closed (cs ++ [',']) (ts ++ [.comma]) :=
        hcs.append_mark endsNumeral_comma rfl
      have hnext := (hcomma.append (closed_newLine level)).append_gives
        (gives_indented v hv level)
      have hmore := gives_indentedItems items hitems level hnext
      simpa [Value.indentedChars.indentedItems, Value.tokens.moreItems] using hmore

theorem gives_indentedMembers (members : List (String × Value))
    (h : Value.Whole.wholeMembers members) (level : Nat) {cs : List Char} {ts : List Token}
    (hcs : Gives cs ts) :
    Gives (cs ++ Value.indentedChars.indentedMembers level members)
      (ts ++ Value.tokens.moreMembers members) := by
  cases members with
  | nil => simpa [Value.indentedChars.indentedMembers, Value.tokens.moreMembers] using hcs
  | cons member members =>
      obtain ⟨name, v⟩ := member
      obtain ⟨hv, hmembers⟩ := h
      have hcomma : Closed (cs ++ [',']) (ts ++ [.comma]) :=
        hcs.append_mark endsNumeral_comma rfl
      have hname := (hcomma.append (closed_newLine level)).append (closed_name name)
      have hnext := hname.append_gives (gives_indented v hv level)
      have hmore := gives_indentedMembers members hmembers level hnext
      simpa [Value.indentedChars.indentedMembers, Value.tokens.moreMembers] using hmore

end

/-- The document of a value that was written in lines, with a line feed at its end, holds this
value and nothing else. -/
theorem ofText_indented {v : Value} (h : v.Whole) :
    Document.ofText (v.indented ++ "\n") = ⟨.ofValue v, false⟩ := by
  have hend : Closed (v.indentedChars 0 ++ ['\n']) (v.tokens ++ []) :=
    (gives_indented v h 0).append_mark endsNumeral_lineFeed rfl
  have htext : (v.indented ++ "\n").toList = v.indentedChars 0 ++ ['\n'] := by
    simp [Value.indented]
  unfold Document.ofText
  rw [htext, tokens_of_gives hend.gives, List.append_nil, ofTokens_tokens]

end Json
end PacketPolicy
