import PacketPolicy.Json.Decode
import PacketPolicy.Proofs.Results

/-!
# Reading the fields of a structure

A structure is read from an object in two goes: first every member is looked at in the order of
the document, then the values are put together in the order of the fields.

* `memberProblem?_field`, `memberProblem?_other` -- one member more without a problem;
* `Record.Builds` -- what fields make of the values that are there; `builds_seq`,
  `builds_field` -- one field more;
* `reader_object_eq_ok_iff`, `reader_object` -- a structure is read when neither finds a problem;
* `list_ofValue`, `optional_ofValue`, `signed64_ofInt` -- reading values that were written.
-/

namespace PacketPolicy
namespace Json
namespace Record

variable {α β : Type}

/-! ## Looking at members -/

theorem problem?_of_ok {r : Reader α} {source : Source} {t : Tree} {a : α}
    (h : r source t = .ok a) : problem? r source t = none := by
  simp [problem?, h]

/-- A member that a field is named after, with a value that can be read. -/
theorem memberProblem?_field {fields : List Field} {source : Source} {seen : List (List String)}
    {name : String} {t : Tree} {rest : List (Key × Tree)} {f : Field}
    (hfind : (fields.find? fun f => f.names.contains name) = some f)
    (hseen : seen.contains f.names = false) (hcheck : f.check source t = none) :
    memberProblem? fields source seen ((.name name, t) :: rest) =
      memberProblem? fields source (f.names :: seen) rest := by
  rw [memberProblem?, hfind]
  dsimp only
  rw [hseen, hcheck]
  rfl

/-- A member that no field is named after. -/
theorem memberProblem?_other {fields : List Field} {source : Source} {seen : List (List String)}
    {name : String} {t : Tree} {rest : List (Key × Tree)}
    (hfind : (fields.find? fun f => f.names.contains name) = none) (hpass : t.passOver = none) :
    memberProblem? fields source seen ((.name name, t) :: rest) =
      memberProblem? fields source seen rest := by
  rw [memberProblem?, hfind]
  simp [hpass]

/-! ## Putting values together -/

/-- The fields, wherever they stand, make this of the values. -/
def Builds (r : Record α) (env : Lookup) (a : α) : Prop :=
  ∀ place, r.build place env = .ok a

theorem builds_pure (a : α) (env : Lookup) : Builds (Record.pure a) env a :=
  fun _ => rfl

theorem builds_seq {f : Record (α → β)} {x : Record α} {env : Lookup} {g : α → β} {a : α}
    (hf : Builds f env g) (hx : Builds x env a) : Builds (Record.seq f x) env (g a) := by
  intro place
  unfold Record.seq
  simp only
  rw [hf place, hx (place + f.fields.length)]
  rfl

theorem builds_field {names : List String} {r : Reader α} {absent : Option α} {env : Lookup}
    {t : Tree} {a : α} (hvalue : env.value? names = some t) (hread : r env.source t = .ok a) :
    Builds (field names r absent) env a := by
  intro place
  unfold field
  simp only [hvalue]
  exact hread

/-- The values of fields in an object. -/
def inObject (source : Source) (members : List (Key × Tree)) : Lookup where
  source
  value? := memberValue? members
  absent := fun _ name => .mismatch (.missingField name)

/-- A structure is read from an object that is closed if no member is a problem and the fields make
it. -/
theorem reader_object_eq_ok_iff {r : Record α} {title : String} {source : Source}
    {members : List (Key × Tree)} {e : Ending} {a : α} :
    r.reader title source (.object members e) = .ok a ↔
      memberProblem? r.fields source [] members = none ∧ e = .closed ∧
        r.build 0 (inObject source members) = .ok a := by
  show (unless? (memberProblem? r.fields source [] members) >>= fun _ =>
    Reader.ending e >>= fun _ => r.build 0 (inObject source members)) = _ ↔ _
  cases memberProblem? r.fields source [] members with
  | some p => simp [unless?, bind, Except.bind]
  | none => cases e <;> simp [unless?, Reader.ending, Ending.fault?, bind, Except.bind]

theorem reader_object {r : Record α} {title : String} {source : Source}
    {members : List (Key × Tree)} {a : α}
    (hmembers : memberProblem? r.fields source [] members = none)
    (hbuild : Builds r (inObject source members) a) :
    r.reader title source (.object members .closed) = .ok a :=
  reader_object_eq_ok_iff.mpr ⟨hmembers, rfl, hbuild 0⟩

end Record

/-! ## Reading what was written -/

variable {α β : Type}

theorem ofItems_map (items : List Value) :
    Tree.ofValue.ofItems items = items.map Tree.ofValue := by
  induction items with
  | nil => rfl
  | cons v items ih =>
      rw [Tree.ofValue.ofItems, ih]
      rfl

/-- A list is read item by item. -/
theorem list_ofValue {r : Reader β} {source : Source} {write : α → Value} {result : α → β}
    (h : ∀ a, r source (.ofValue (write a)) = .ok (result a)) (as : List α) :
    Reader.list r source (.ofValue (.array (as.map write))) = .ok (as.map result) := by
  have hitems : Tree.ofValue.ofItems (as.map write) = as.map fun a => Tree.ofValue (write a) := by
    rw [ofItems_map, List.map_map]
    rfl
  show Reader.list r source (.array (Tree.ofValue.ofItems (as.map write)) .closed) = _
  rw [hitems]
  show (List.mapM (r source) (as.map fun a => Tree.ofValue (write a)) >>= fun _ => _) = _
  rw [mapM_map_ok as h]
  rfl

theorem text_ofValue (source : Source) (s : String) :
    Reader.text source (.ofValue (.string s)) = .ok s := rfl

theorem texts_ofValue (source : Source) (texts : List String) :
    Reader.list Reader.text source (.ofValue (.array (texts.map .string))) = .ok texts := by
  rw [list_ofValue (text_ofValue source), List.map_id']

theorem optional_ofValue (source : Source) (s : Option String) :
    Reader.optional Reader.text source (.ofValue (.ofString? s)) = .ok s := by
  cases s <;> rfl

/-- A whole number of sixty-four bits is written as itself. -/
theorem ofInt_toInt (n : Int64) :
    ∃ i : Integer, Value.ofInt n.toInt = .number (.integer i) ∧ i.val = n.toInt := by
  have hleast := n.le_toInt
  have hgreatest := n.toInt_lt
  have hrange : -9223372036854775808 ≤ n.toInt ∧ n.toInt ≤ 18446744073709551615 := by omega
  refine ⟨⟨n.toInt, hrange.1, hrange.2⟩, ?_, rfl⟩
  unfold Value.ofInt Integer.of?
  rw [dif_pos hrange]

theorem signed64_ofInt (source : Source) (n : Int64) :
    Reader.signed64 source (.ofValue (.ofInt n.toInt)) = .ok n := by
  obtain ⟨i, hvalue, hi⟩ := ofInt_toInt n
  have hleast := n.le_toInt
  have hgreatest := n.toInt_lt
  rw [hvalue]
  show ((if -9223372036854775808 ≤ i.val ∧ i.val ≤ 9223372036854775807 then
    Except.ok i.val else _).map Int64.ofInt) = _
  rw [hi, if_pos (by omega)]
  exact congrArg Except.ok (Int64.ofInt_toInt n)

theorem passOver_ofInt (n : Int) : (Tree.ofValue (.ofInt n)).passOver = none := by
  unfold Value.ofInt
  cases Integer.of? n <;> rfl

end Json
end PacketPolicy
