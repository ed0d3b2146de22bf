import Mathlib.Logic.Relation
import PacketPolicy.Policy.Document
import PacketPolicy.Proofs.Json.Readers

/-!
# Documents in another form

Whoever writes a policy may order the members of its objects at will, put others among them, write
`proto` for `protocol`, leave out what a rule has anyway, and space the text at will: the same draft
is read.

* `Rule.Draft.Spare` -- the values of a rule's fields that may be left out;
* `Rule.Draft.Recasts`, `Defaults.Draft.Recasts`, `Policy.Draft.Recasts` -- the objects of a
  document in another form;
* `Rule.Draft.reader_recast`, `Defaults.Draft.reader_recast`, `Policy.Draft.reader_recast` -- they
  are read as before;
* `Policy.Draft.Rewrites`, `Policy.Draft.rewriting_keeps_draft` -- texts in another form.
-/

namespace PacketPolicy

open Json Record

/-! ## Rules -/

namespace Rule.Draft

/-- A field of a rule has this value where it is left out. -/
def Spare (name : String) (t : Tree) : Prop :=
  (name ∈ ["in_iface", "out_iface", "comment"] ∧ t = .null) ∨
    (name ∈ ["ports", "sources", "destinations", "icmp_types"] ∧ t = .array [] .closed) ∨
    (name = "enabled" ∧ t = .bool true)

/-- The members of a rule's object in another form. -/
def Recasts : List (Key × Tree) → List (Key × Tree) → Prop :=
  Record.Recasts record.fields Spare fun _ _ _ => False

theorem separate_fields : Separate record.fields :=
  separate_of_nodup (by decide)

theorem respects : Respects Spare (fun _ _ _ => False) record := by
  have hnever : ∀ _ _ : Tree, ¬ False := fun _ _ h => h
  have hkept {names : List String} (h : ∀ name ∈ names, ∀ t, ¬ Spare name t) :
      Respects Spare (fun _ _ _ => False) (field names Reader.text none) :=
    respects_kept h fun _ _ => hnever
  have htext {name : String} (h : ∀ t, Spare name t → t = .null) :
      Respects Spare (fun _ _ _ => False) (defaulted name (Reader.optional Reader.text) none) :=
    respects_spared h (fun _ => rfl) hnever
  have hlist {α : Type} {name : String} {r : Reader α}
      (h : ∀ t, Spare name t → t = .array [] .closed) :
      Respects Spare (fun _ _ _ => False) (defaulted name (Reader.list r) []) :=
    respects_spared h (fun _ => rfl) hnever
  have htrue : ∀ t, Spare "enabled" t → t = .bool true := by simp [Spare]
  have henabled : Respects Spare (fun _ _ _ => False) (defaulted "enabled" Reader.boolean true) :=
    respects_spared htrue (fun _ => rfl) hnever
  exact (respects_pure Draft.mk)
    |>.seq (hkept (by simp [Spare])) |>.seq (hkept (by simp [Spare]))
    |>.seq (hkept (by simp [Spare])) |>.seq (htext (by simp [Spare]))
    |>.seq (htext (by simp [Spare])) |>.seq (hlist (by simp [Spare]))
    |>.seq (hlist (by simp [Spare])) |>.seq (hlist (by simp [Spare]))
    |>.seq (hlist (by simp [Spare])) |>.seq (htext (by simp [Spare])) |>.seq henabled

/-- A rule is read from the recast object as from the first one. -/
theorem reader_recast {members members' : List (Key × Tree)} (h : Recasts members members')
    {source : Source} {d : Draft}
    (hread : reader source (.object members .closed) = .ok d) :
    reader source (.object members' .closed) = .ok d :=
  Record.reader_recast respects separate_fields h hread

theorem sound_reader : Reader.Sound reader := by
  have htext {names : List String} {absent : Option String} :
      Record.Sound (field names Reader.text absent) := sound_field Reader.sound_text
  have hoptional {name : String} :
      Record.Sound (defaulted name (Reader.optional Reader.text) none) :=
    sound_field (Reader.sound_optional Reader.sound_text)
  have htexts {name : String} : Record.Sound (defaulted name (Reader.list Reader.text) []) :=
    sound_field (Reader.sound_list Reader.sound_text)
  have hnumbers {name : String} : Record.Sound (defaulted name (Reader.list Reader.signed64) []) :=
    sound_field (Reader.sound_list Reader.sound_signed64)
  have henabled : Record.Sound (defaulted "enabled" Reader.boolean true) :=
    sound_field Reader.sound_boolean
  have hall : Record.Sound record :=
    (sound_pure Draft.mk) |>.seq htext |>.seq htext |>.seq htext |>.seq hoptional
      |>.seq hoptional |>.seq hnumbers |>.seq htexts |>.seq htexts |>.seq hnumbers
      |>.seq hoptional |>.seq henabled
  exact Record.sound_reader hall _

end Rule.Draft

/-! ## Defaults -/

namespace Defaults.Draft

/-- The members of the object of the defaults in another form; nothing may be left out. -/
def Recasts : List (Key × Tree) → List (Key × Tree) → Prop :=
  Record.Recasts record.fields (fun _ _ => False) fun _ _ _ => False

theorem separate_fields : Separate record.fields :=
  separate_of_nodup (by decide)

theorem respects : Respects (fun _ _ => False) (fun _ _ _ => False) record := by
  have hkept {names : List String} {absent : Option String} :
      Respects (fun _ _ => False) (fun _ _ _ => False) (field names Reader.text absent) :=
    respects_kept (fun _ _ _ h => h) fun _ _ _ _ h => h
  exact (respects_pure Draft.mk) |>.seq hkept |>.seq hkept |>.seq hkept |>.seq hkept

theorem reader_recast {members members' : List (Key × Tree)} (h : Recasts members members')
    {source : Source} {d : Draft}
    (hread : reader source (.object members .closed) = .ok d) :
    reader source (.object members' .closed) = .ok d :=
  Record.reader_recast respects separate_fields h hread

theorem sound_reader : Reader.Sound reader := by
  have htext {names : List String} {absent : Option String} :
      Record.Sound (field names Reader.text absent) := sound_field Reader.sound_text
  have hall : Record.Sound record :=
    (sound_pure Draft.mk) |>.seq htext |>.seq htext |>.seq htext |>.seq htext
  exact Record.sound_reader hall _

end Defaults.Draft

/-! ## Whole documents -/

namespace Policy.Draft

/-- The value of a document's field with one of the objects inside in another form. -/
inductive Swaps : String → Tree → Tree → Prop
  | defaults {members members' : List (Key × Tree)}
      (h : Defaults.Draft.Recasts members members') :
      Swaps "defaults" (.object members .closed) (.object members' .closed)
  | rule {members members' : List (Key × Tree)} (h : Rule.Draft.Recasts members members')
      (before after : List Tree) :
      Swaps "rules" (.array (before ++ .object members .closed :: after) .closed)
        (.array (before ++ .object members' .closed :: after) .closed)

/-- The members of a document's object in another form, or one of the objects inside. -/
def Recasts : List (Key × Tree) → List (Key × Tree) → Prop :=
  Record.Recasts record.fields (fun _ _ => False) Swaps

theorem separate_fields : Separate record.fields :=
  separate_of_nodup (by decide)

/-- One item of a list may be replaced by another that is read as the same. -/
theorem list_replace {α : Type} {r : Reader α} {source : Source} {t t' : Tree}
    (h : ∀ a, r source t = .ok a → r source t' = .ok a) (before after : List Tree) {as : List α}
    (hread : Reader.list r source (.array (before ++ t :: after) .closed) = .ok as) :
    Reader.list r source (.array (before ++ t' :: after) .closed) = .ok as := by
  obtain ⟨values, hvalues, hrest⟩ := bind_eq_ok_iff.mp hread
  obtain ⟨a, -, ha⟩ := exists_of_mapM_eq_ok hvalues
    (List.mem_append_right before (List.mem_cons_self (a := t) (l := after)))
  refine bind_eq_ok_iff.mpr ⟨values, ?_, hrest⟩
  rw [← hvalues, List.mapM_append, List.mapM_append, List.mapM_cons, List.mapM_cons, ha, h a ha]

theorem respects : Respects (fun _ _ => False) Swaps record := by
  refine ((respects_pure Draft.mk).seq ?_).seq ?_
  · refine respects_field (fun _ _ _ h => h.elim) fun name hname t t' h source d hread => ?_
    cases h with
    | defaults h => exact Defaults.Draft.reader_recast h hread
    | rule h before after => exact absurd hname (by decide)
  · refine respects_field (fun _ _ _ h => h.elim) fun name hname t t' h source rules hread => ?_
    cases h with
    | defaults h => exact absurd hname (by decide)
    | rule h before after =>
        exact list_replace (fun _ hrule => Rule.Draft.reader_recast h hrule) before after hread

theorem reader_recast {members members' : List (Key × Tree)} (h : Recasts members members')
    {source : Source} {d : Draft}
    (hread : reader source (.object members .closed) = .ok d) :
    reader source (.object members' .closed) = .ok d :=
  Record.reader_recast respects separate_fields h hread

theorem sound_reader : Reader.Sound reader := by
  have hdefaults : Record.Sound (required "defaults" Defaults.Draft.reader) :=
    sound_field Defaults.Draft.sound_reader
  have hrules : Record.Sound (defaulted "rules" (Reader.list Rule.Draft.reader) []) :=
    sound_field (Reader.sound_list Rule.Draft.sound_reader)
  exact Record.sound_reader (((sound_pure Draft.mk).seq hdefaults).seq hrules) _

/-! ## Texts -/

/-- A text with other blanks between its words, or a text of the document in another form. -/
inductive Rewrites : String → String → Prop
  | respaced {s s' : String} (h : Respaces s s') : Rewrites s s'
  | recast {s s' : String} {members members' : List (Key × Tree)}
      (hs : Writes s (.object members .closed)) (h : Recasts members members')
      (hs' : Writes s' (.object members' .closed)) : Rewrites s s'

theorem ofText_rewrites {s s' : String} {d : Draft} (h : Rewrites s s') (hread : ofText s = .ok d) :
    ofText s' = .ok d := by
  unfold ofText at hread ⊢
  rw [ofText_eq_ok_iff sound_reader] at hread ⊢
  obtain ⟨t, hwrites, hread⟩ := hread
  cases h with
  | respaced h => exact ⟨t, hwrites.respaced h, hread⟩
  | recast hs h hs' =>
      obtain rfl := hwrites.unique hs
      exact ⟨_, hs', reader_recast h hread⟩

/-- A text that is read as a policy writes a tree in which nothing is wrong; and whatever is done,
however often, to order, spacing, foreign members and spare values, the same policy is read.  The
name of a foreign member is a text: one with half a surrogate pair in it is none, and a document
that has such a name is refused. -/
theorem rewriting_keeps_draft {s : String} {d : Draft} (hread : ofText s = .ok d) :
    (∃ t, Writes s t) ∧
      ∀ s', Relation.ReflTransGen Rewrites s s' → ofText s' = .ok d := by
  constructor
  · obtain ⟨t, hwrites, -⟩ := (ofText_eq_ok_iff sound_reader).mp hread
    exact ⟨t, hwrites⟩
  · intro s' hrewrites
    induction hrewrites with
    | refl => exact hread
    | tail _ hstep ih => exact ofText_rewrites hstep ih

/-- The text of a policy with one rule, whose object has these members. -/
def oneRule (members : String) : String :=
  "\x7b\"defaults\":\x7b\"input_policy\":\"drop\",\"forward_policy\":\"drop\"," ++
    "\"output_policy\":\"accept\"\x7d,\"rules\":[\x7b" ++ members ++ "\x7d]\x7d"

/-- The members of its object. -/
def oneRuleMembers (members : List (Key × Tree)) : List (Key × Tree) :=
  [(.name "defaults", .object [(.name "input_policy", .string "drop"),
      (.name "forward_policy", .string "drop"), (.name "output_policy", .string "accept")] .closed),
    (.name "rules", .array [.object members .closed] .closed)]

theorem recasts_oneRule {members members' : List (Key × Tree)}
    (h : Rule.Draft.Recasts members members') :
    Recasts (oneRuleMembers members) (oneRuleMembers members') :=
  .replaced (by decide) (.rule h [] []) [_] []

/-- A rule is given a number, its protocol goes by the shorter name, and a line feed is put behind
the text. -/
theorem oneRule_rewritten :
    ofText (oneRule "\"protocol\":\"tcp\",\"chain\":\"input\",\"action\":\"drop\"") =
        .ok ⟨⟨"drop", "drop", "accept", ""⟩,
          [⟨"input", "tcp", "drop", none, none, [], [], [], [], none, true⟩]⟩ ∧
      ofText (oneRule "\"id\":12,\"proto\":\"tcp\",\"chain\":\"input\",\"action\":\"drop\"" ++
          "\n") =
        .ok ⟨⟨"drop", "drop", "accept", ""⟩,
          [⟨"input", "tcp", "drop", none, none, [], [], [], [], none, true⟩]⟩ := by
  have hfirst : Writes
      (oneRule "\"protocol\":\"tcp\",\"chain\":\"input\",\"action\":\"drop\"")
      (.object (oneRuleMembers [(.name "protocol", .string "tcp"), (.name "chain", .string "input"),
        (.name "action", .string "drop")]) .closed) := by
    decide +kernel
  have hsecond : Writes
      (oneRule "\"id\":12,\"protocol\":\"tcp\",\"chain\":\"input\",\"action\":\"drop\"")
      (.object (oneRuleMembers [(.name "id", .number (.integer ⟨12, by decide, by decide⟩)),
        (.name "protocol", .string "tcp"), (.name "chain", .string "input"),
        (.name "action", .string "drop")]) .closed) := by
    decide +kernel
  have hthird : Writes
      (oneRule "\"id\":12,\"proto\":\"tcp\",\"chain\":\"input\",\"action\":\"drop\"")
      (.object (oneRuleMembers [(.name "id", .number (.integer ⟨12, by decide, by decide⟩)),
        (.name "proto", .string "tcp"), (.name "chain", .string "input"),
        (.name "action", .string "drop")]) .closed) := by
    decide +kernel
  have hnumber := Rewrites.recast hfirst
    (recasts_oneRule (.added (by decide) (by decide) [] _)) hsecond
  have hnames : ["protocol", "proto"] ∈ Rule.Draft.record.fields.map Field.names := by decide
  have hprotocol := Rewrites.recast hsecond
    (recasts_oneRule (.renamed hnames (by decide) (by decide) _ [_] _)) hthird
  have hfeed := respaces_append
    (oneRule "\"id\":12,\"proto\":\"tcp\",\"chain\":\"input\",\"action\":\"drop\"")
    (show ∀ c ∈ "\n".toList, isSpace c = true from by simp [isSpace])
  have hrewrites :=
    ((Relation.ReflTransGen.single hnumber).tail hprotocol).tail (Rewrites.respaced hfeed)
  have hread : ofText (oneRule "\"protocol\":\"tcp\",\"chain\":\"input\",\"action\":\"drop\"") =
      .ok ⟨⟨"drop", "drop", "accept", ""⟩,
        [⟨"input", "tcp", "drop", none, none, [], [], [], [], none, true⟩]⟩ :=
    (ofText_eq_ok_iff sound_reader).mpr ⟨_, hfirst, by decide +kernel⟩
  exact ⟨hread, (rewriting_keeps_draft hread).2 _ hrewrites⟩

end Policy.Draft
end PacketPolicy
