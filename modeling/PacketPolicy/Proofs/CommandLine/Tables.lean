import PacketPolicy.CommandLine.Run
import PacketPolicy.Proofs.Network.Characters
import PacketPolicy.Proofs.Policy.Admission
import PacketPolicy.Proofs.Text.Clipping
import PacketPolicy.Proofs.Text.Numerals

/-!
# The lines of tables

A table shows each rule on a line of its own, as long as nothing in the line has a line feed in it.
All that is known of a rule is written in printable ASCII, apart from its comment, which is shown as
it is.

* `linesOf` -- the lines of an output; `linesOf_lines_append` -- what is printed line by line comes
  to these lines, each of them broken where it has line feeds in it;
* `Plain` -- texts without anything but printable ASCII;
* `RuleLine.row` -- the columns in front of the comment; `plain_row` -- they are plain;
* `entry`, `broken_text` -- the lines in which a rule is shown;
* `tableLines`, `linesOf_rulesTable` -- the lines of the table of some rules;
* `length_tableLines_iff` -- when there is just one for each rule.
-/

namespace PacketPolicy
namespace CommandLine

/-! ## Lines -/

/-- What stands before, between and after the line feeds of a text. -/
def broken (s : String) : List String :=
  (Text.pieces '\n' s.toList).map String.ofList

/-- The lines of an output.  Each of them ends with a line feed, so that nothing stands behind the
last one. -/
def linesOf (output : String) : List String :=
  (broken output).dropLast

theorem broken_ne_nil (s : String) : broken s ≠ [] := by
  unfold broken
  rw [Ne, List.map_eq_nil_iff]
  exact Text.pieces_ne_nil '\n' s.toList

theorem length_broken (s : String) : (broken s).length = s.toList.count '\n' + 1 := by
  rw [broken, List.length_map, Text.length_pieces]

theorem broken_of_not_mem {s : String} (h : '\n' ∉ s.toList) : broken s = [s] := by
  rw [broken, Text.pieces_of_not_mem h, List.map_singleton, String.ofList_toList]

theorem broken_line_append (s rest : String) :
    broken (line s ++ rest) = broken s ++ broken rest := by
  have hchars : (line s ++ rest).toList = s.toList ++ '\n' :: rest.toList := by
    rw [line, String.toList_append, String.toList_append, List.append_assoc]
    rfl
  rw [broken, hchars, Text.pieces_append_mark, List.map_append]
  rfl

/-- What stands in front of a text and has no line feeds comes to the first of its lines. -/
theorem broken_append {front : String} (h : '\n' ∉ front.toList) (s : String) :
    broken (front ++ s) = (broken s).modifyHead (front ++ ·) := by
  unfold broken
  rw [String.toList_append, Text.pieces_append_of_not_mem h]
  cases Text.pieces '\n' s.toList with
  | nil => rfl
  | cons piece rest =>
      simp only [List.modifyHead_cons, List.map_cons, String.ofList_append, String.ofList_toList]

theorem linesOf_line_append (s rest : String) :
    linesOf (line s ++ rest) = broken s ++ linesOf rest := by
  rw [linesOf, broken_line_append, List.dropLast_append_of_ne_nil (broken_ne_nil rest)]
  rfl

/-- What is printed line by line. -/
theorem linesOf_lines_append (ss : List String) (rest : String) :
    linesOf (lines ss ++ rest) = ss.flatMap broken ++ linesOf rest := by
  induction ss with
  | nil => rw [lines, List.map_nil, String.join_nil, String.empty_append]; rfl
  | cons s ss ih =>
      have hlines : lines (s :: ss) = line s ++ lines ss := String.join_cons
      rw [hlines, String.append_assoc, linesOf_line_append, ih, List.flatMap_cons,
        List.append_assoc]

theorem linesOf_lines (ss : List String) : linesOf (lines ss) = ss.flatMap broken := by
  have hlines := linesOf_lines_append ss ""
  rwa [String.append_empty, show linesOf "" = [] from rfl, List.append_nil] at hlines

/-! ## Plain texts -/

/-- The characters of ASCII that can be printed. -/
def isPlain (c : Char) : Bool :=
  0x20 ≤ c.toNat && c.toNat < 0x7F

/-- All characters of the text are plain. -/
def Plain (s : String) : Prop :=
  ∀ c ∈ s.toList, isPlain c = true

variable {s t : String}

theorem Plain.not_mem (h : Plain s) : '\n' ∉ s.toList :=
  fun hmem => absurd (h '\n' hmem) (by decide)

theorem Plain.append (hs : Plain s) (ht : Plain t) : Plain (s ++ t) := by
  intro c hc
  rw [String.toList_append] at hc
  exact (List.mem_append.mp hc).elim (hs c) (ht c)

theorem plain_blanks (n : Nat) : Plain (String.ofList (List.replicate n ' ')) := by
  intro c hc
  rw [String.toList_ofList] at hc
  rw [List.eq_of_mem_replicate hc]
  decide

theorem Plain.padRight (h : Plain s) (width : Nat) : Plain (padRight width s) :=
  h.append (plain_blanks _)

theorem Plain.padLeft (h : Plain s) (width : Nat) : Plain (padLeft width s) :=
  (plain_blanks _).append h

theorem plain_intercalate {ss : List String} (hs : Plain s) (hss : ∀ t ∈ ss, Plain t) :
    Plain (s.intercalate ss) := by
  induction ss with
  | nil => exact fun c hc => absurd hc List.not_mem_nil
  | cons t ss ih =>
      obtain ⟨ht, hrest⟩ := List.forall_mem_cons.mp hss
      cases ss with
      | nil => rwa [String.intercalate_singleton]
      | cons u ss =>
          rw [String.intercalate_cons_cons]
          exact (ht.append hs).append (ih hrest)

theorem plain_dash : Plain "-" := by simp [Plain, isPlain]

theorem plain_joined {ss : List String} (h : ∀ t ∈ ss, Plain t) : Plain (joined ss) := by
  unfold joined
  split
  · exact plain_dash
  · exact plain_intercalate (by simp [Plain, isPlain]) h

/-- A text is clipped by leaving out characters; only dots are put in. -/
theorem Plain.clip (h : Plain s) (width : Nat) : Plain (Text.clip width s) := by
  rcases Nat.lt_or_ge width s.utf8ByteSize with hwide | hfits
  · rw [Text.clip_of_lt hwide]
    refine Plain.append (fun c hc => h c ?_) (by simp [Plain, isPlain])
    rw [String.toList_ofList] at hc
    exact (Text.fitting_isPrefix _ _).subset hc
  · rwa [Text.clip_of_le hfits]

theorem isPlain_of_val {a b c : Char} (ha : 0x20 ≤ a.val.toNat) (hac : a.val.toNat ≤ c.val.toNat)
    (hcb : c.val.toNat ≤ b.val.toNat) (hb : b.val.toNat < 0x7F) : isPlain c = true := by
  have hvalue : c.toNat = c.val.toNat := rfl
  simp only [isPlain, Bool.and_eq_true, decide_eq_true_eq]
  omega

theorem isPlain_of_isDigit {c : Char} (h : c.isDigit = true) : isPlain c = true := by
  simp only [Char.isDigit, Bool.and_eq_true, decide_eq_true_eq, ge_iff_le,
    UInt32.le_iff_toNat_le] at h
  exact isPlain_of_val (by decide) h.1 h.2 (by decide)

theorem plain_toString_nat (n : Nat) : Plain (toString n) :=
  fun _ hc => isPlain_of_isDigit (Text.isDigit_of_mem_toString hc)

theorem plain_toString_int (n : Int) : Plain (toString n) := by
  cases n with
  | ofNat n => exact plain_toString_nat n
  | negSucc n => exact plain_dash.append (plain_toString_nat (n + 1))

theorem isPlain_of_hexDigit? {c : Char} (h : (Text.hexDigit? c).isSome = true) :
    isPlain c = true := by
  unfold Text.hexDigit? at h
  simp only [Char.le_def, UInt32.le_iff_toNat_le] at h
  split at h
  · rename_i hdigit
    exact isPlain_of_val (by decide) hdigit.1 hdigit.2 (by decide)
  split at h
  · rename_i hlower
    exact isPlain_of_val (by decide) hlower.1 hlower.2 (by decide)
  split at h
  · rename_i hupper
    exact isPlain_of_val (by decide) hupper.1 hupper.2 (by decide)
  · cases h

theorem plain_of_isPrefix (h : IsPrefix s) : Plain s := by
  obtain ⟨-, block, hparse⟩ := h
  intro c hc
  have hchar := Network.Block.isPrefixChar_of_parse? hparse c hc
  simp only [Network.isPrefixChar, Bool.or_eq_true, beq_iff_eq] at hchar
  rcases hchar with (((hhex | rfl) | rfl) | rfl) | rfl
  · exact isPlain_of_hexDigit? hhex
  · decide
  · decide
  · decide
  · decide

theorem plain_of_isInterface (h : IsInterface s) : Plain s := by
  intro c hc
  have hrange := toNat_of_isInterfaceChar (List.all_eq_true.mp h.plain c hc)
  simp only [isPlain, Bool.and_eq_true, decide_eq_true_eq]
  omega

/-! ## Rules -/

/-- The columns between the number of a rule and its comment. -/
def RuleLine.columns (l : RuleLine) : List String :=
  [l.chain, l.protocol, l.action, l.inInterface, l.outInterface, l.ports, l.sources,
    l.destinations, l.icmpTypes, l.enabled]

/-- The widths of these columns. -/
def RuleLine.widths : List Nat :=
  [8, 6, 7, 8, 8, 18, 18, 18, 6, 3]

/-- The columns in front of the comment of a rule, the number of the rule first. -/
def RuleLine.row (l : RuleLine) : String :=
  padLeft 5 l.id ++ "  " ++ " ".intercalate (List.zipWith padRight widths l.columns) ++ " "

theorem RuleLine.text_eq (l : RuleLine) : l.text = l.row ++ l.comment := by
  simp only [text, row, columns, widths, List.zipWith_cons_cons, List.zipWith_nil_right,
    String.intercalate_cons_cons, String.intercalate_singleton, String.append_assoc]

theorem plain_blank : Plain " " := by simp [Plain, isPlain]

theorem RuleLine.plain_row {l : RuleLine} (hnumber : Plain l.id) (h : ∀ s ∈ l.columns, Plain s) :
    Plain l.row := by
  have hcells : ∀ cell ∈ List.zipWith padRight widths l.columns, Plain cell := by
    intro cell hcell
    rw [← List.map_uncurry_zip_eq_zipWith] at hcell
    obtain ⟨⟨width, column⟩, hpair, rfl⟩ := List.mem_map.mp hcell
    exact (h column (List.of_mem_zip hpair).2).padRight width
  exact (((hnumber.padLeft 5).append (plain_blank.append plain_blank)).append
    (plain_intercalate plain_blank hcells)).append plain_blank

theorem plain_headings : Plain RuleLine.headings.text := by
  rw [RuleLine.text_eq]
  exact (RuleLine.plain_row (by simp [RuleLine.headings, Plain, isPlain])
    (by simp [RuleLine.columns, RuleLine.headings, Plain, isPlain])).append
    (by simp [RuleLine.headings, Plain, isPlain])

theorem plain_name {α : Type} [Named α] (h : ∀ name ∈ Named.names α, Plain name) (a : α) :
    Plain (Named.name a) :=
  h _ (List.mem_map_of_mem (Named.mem_all a))

theorem plain_chain (c : Chain) : Plain (Named.name c) :=
  plain_name (by simp [Named.names, Named.all, Named.name, Plain, isPlain]) c

theorem plain_protocol (p : Protocol) : Plain (Named.name p) :=
  plain_name (by simp [Named.names, Named.all, Named.name, Plain, isPlain]) p

theorem plain_action (a : Action) : Plain (Named.name a) :=
  plain_name (by simp [Named.names, Named.all, Named.name, Plain, isPlain]) a

theorem plain_interface? {name : Option String} (h : ∀ s ∈ name, IsInterface s) :
    Plain (name.getD "-") := by
  cases name with
  | none => exact plain_dash
  | some s => exact plain_of_isInterface (h s rfl)

theorem plain_numbers {α : Type} (width : Nat) (number : α → Nat) (numbers : List α) :
    Plain (Text.clip width (joined (numbers.map fun n => toString (number n)))) := by
  refine Plain.clip (plain_joined fun t ht => ?_) width
  obtain ⟨n, -, rfl⟩ := List.mem_map.mp ht
  exact plain_toString_nat _

theorem plain_prefixes {prefixes : List String} (h : ∀ s ∈ prefixes, IsPrefix s) (width : Nat) :
    Plain (Text.clip width (joined prefixes)) :=
  Plain.clip (plain_joined fun s hs => plain_of_isPrefix (h s hs)) width

/-- All columns of an accepted rule are plain, but for the comment. -/
theorem plain_row {r : Rule} (h : r.Admissible) : Plain (RuleLine.ofRule r).row := by
  refine RuleLine.plain_row (plain_toString_int r.id.toInt) ?_
  simp only [RuleLine.columns, RuleLine.ofRule, List.forall_mem_cons, List.not_mem_nil,
    false_implies, implies_true, and_true]
  refine ⟨?_, ?_, ?_, ?_, ?_, ?_, ?_, ?_, ?_, ?_⟩
  · exact plain_chain r.chain
  · exact plain_protocol r.protocol
  · exact plain_action r.action
  · exact plain_interface? h.inInterface
  · exact plain_interface? h.outInterface
  · exact plain_numbers listWidth UInt16.toNat r.ports
  · exact plain_prefixes h.sources listWidth
  · exact plain_prefixes h.destinations listWidth
  · exact plain_numbers icmpWidth UInt8.toNat r.icmpTypes
  · cases r.enabled <;> simp [Plain, isPlain]

/-- The comment of a rule as it is shown. -/
def shownComment (r : Rule) : String :=
  (RuleLine.ofRule r).comment

/-- The lines in which a rule is shown: its columns, and the lines of its comment. -/
def entry (r : Rule) : List String :=
  (broken (shownComment r)).modifyHead ((RuleLine.ofRule r).row ++ ·)

theorem broken_text {r : Rule} (h : r.Admissible) : broken (RuleLine.ofRule r).text = entry r := by
  rw [RuleLine.text_eq, broken_append (plain_row h).not_mem]
  rfl

/-- A rule is shown on one line if the shown part of its comment is one line. -/
theorem length_entry (r : Rule) : (entry r).length = (shownComment r).toList.count '\n' + 1 := by
  rw [entry, List.length_modifyHead, length_broken]

/-! ## Tables -/

/-- The lines of the table of some rules: the headings and what is shown of each rule. -/
def tableLines (rules : List Rule) : List String :=
  if rules.isEmpty then ["No rules."] else RuleLine.headings.text :: rules.flatMap entry

theorem linesOf_rulesTable {rules : List Rule} (h : ∀ r ∈ rules, r.Admissible) :
    linesOf (lines (rulesTable rules)) = tableLines rules := by
  rw [linesOf_lines]
  unfold rulesTable tableLines
  split
  · rw [List.flatMap_singleton, broken_of_not_mem (by simp)]
  · rw [List.flatMap_cons, broken_of_not_mem plain_headings.not_mem, List.flatMap_map,
      List.singleton_append]
    exact congrArg (RuleLine.headings.text :: ·) (List.flatMap_congr fun r hr =>
      broken_text (h r hr))

theorem length_le_flatMap_entry (rules : List Rule) :
    rules.length ≤ (rules.flatMap entry).length := by
  induction rules with
  | nil => exact Nat.le_refl _
  | cons r rules ih =>
      rw [List.flatMap_cons, List.length_append, length_entry, List.length_cons]
      omega

theorem length_flatMap_entry_iff (rules : List Rule) :
    (rules.flatMap entry).length = rules.length ↔
      ∀ r ∈ rules, '\n' ∉ (shownComment r).toList := by
  induction rules with
  | nil => simp
  | cons r rules ih =>
      have hrest := length_le_flatMap_entry rules
      rw [List.flatMap_cons, List.length_append, length_entry, List.length_cons,
        List.forall_mem_cons, ← ih, ← List.count_eq_zero]
      omega

/-- There is one line for each rule, and one for the headings, unless the shown part of a comment
has a line feed in it. -/
theorem length_tableLines_iff {rules : List Rule} (hne : rules ≠ []) :
    (tableLines rules).length = rules.length + 1 ↔
      ∀ r ∈ rules, '\n' ∉ (shownComment r).toList := by
  have hlines : tableLines rules = RuleLine.headings.text :: rules.flatMap entry :=
    if_neg (by simpa using hne)
  rw [hlines, List.length_cons, Nat.add_right_cancel_iff, length_flatMap_entry_iff]

theorem broken_defaultsLine {input forward output rest : String} (hinput : Plain input)
    (hforward : Plain forward) (houtput : Plain output) (hrest : '\n' ∉ rest.toList) :
    broken (defaultsLine input forward output rest) = [defaultsLine input forward output rest] := by
  have hcolumns : Plain (padRight 8 input ++ " " ++ padRight 8 forward ++ " " ++
      padRight 8 output ++ " ") :=
    ((((((hinput.padRight 8).append plain_blank).append (hforward.padRight 8)).append
      plain_blank).append (houtput.padRight 8)).append plain_blank)
  unfold defaultsLine
  rw [broken_append hcolumns.not_mem, broken_of_not_mem hrest, List.modifyHead_cons]

/-- The lines of accepted defaults. -/
theorem flatMap_defaultsTable {d : Defaults} (h : d.Admissible) :
    (defaultsTable d).flatMap broken = defaultsTable d := by
  have hprefix : '\n' ∉ d.logPrefix.toList := by
    intro hmem
    exact List.any_eq_false.mp h.plain '\n' hmem (by decide)
  rw [defaultsTable, List.flatMap_cons, List.flatMap_singleton,
    broken_defaultsLine (plain_action d.input) (plain_action d.forward) (plain_action d.output)
      hprefix,
    broken_defaultsLine (by simp [Plain, isPlain]) (by simp [Plain, isPlain])
      (by simp [Plain, isPlain]) (by simp), List.singleton_append]

end CommandLine
end PacketPolicy
