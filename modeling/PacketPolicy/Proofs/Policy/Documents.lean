import PacketPolicy.Policy.Document
import PacketPolicy.Proofs.Json.Records
import PacketPolicy.Proofs.Json.Scanning

/-!
# Policies and their documents

Reading the document of a policy as somebody's draft gives the policy written down.

* `whole_value` -- a policy has no floating numbers;
* `Rule.Draft.reader_value`, `Defaults.Draft.reader_value`, `Policy.Draft.reader_value` -- the
  values that are written are read as drafts;
* `Policy.Draft.ofText_document` -- so is the text that they are written as.
-/

namespace PacketPolicy

open Json Record

/-! ## Whole numbers only -/

theorem Json.Value.whole_ofInt (n : Int) : (Value.ofInt n).Whole := by
  unfold Value.ofInt
  cases Integer.of? n <;> exact trivial

theorem Json.Value.whole_ofString? (s : Option String) : (Value.ofString? s).Whole := by
  cases s <;> exact trivial

theorem Json.Value.wholeItems_map {α : Type} {write : α → Value} (h : ∀ a, (write a).Whole)
    (as : List α) : Whole.wholeItems (as.map write) := by
  induction as with
  | nil => exact trivial
  | cons a as ih => exact ⟨h a, ih⟩

theorem Rule.whole_value (r : Rule) : r.value.Whole := by
  have hports : ∀ p : UInt16, (Value.ofNat p.toNat).Whole := fun p => Value.whole_ofInt p.toNat
  have htypes : ∀ t : UInt8, (Value.ofNat t.toNat).Whole := fun t => Value.whole_ofInt t.toNat
  have htext : ∀ s : String, (Value.string s).Whole := fun _ => trivial
  exact ⟨Value.whole_ofInt _, trivial, trivial, trivial, Value.whole_ofString? _,
    Value.whole_ofString? _, Value.wholeItems_map hports r.ports,
    Value.wholeItems_map htext r.sources, Value.wholeItems_map htext r.destinations,
    Value.wholeItems_map htypes r.icmpTypes, Value.whole_ofString? _, trivial, trivial⟩

theorem Policy.whole_value (p : Policy) : p.value.Whole :=
  ⟨⟨trivial, trivial, trivial, trivial, trivial⟩, Value.wholeItems_map Rule.whole_value p.rules,
    trivial⟩

/-! ## Reading what was written -/

theorem signed64_ofNat (source : Source) (n : Nat) (h : n < 65536) :
    Reader.signed64 source (.ofValue (.ofNat n)) = .ok (Int64.ofNat n) := by
  have hvalue : (Int64.ofNat n).toInt = n := Int64.toInt_ofNat_of_lt (by omega)
  have hread := signed64_ofInt source (Int64.ofNat n)
  rwa [hvalue] at hread

theorem ports_ofValue (source : Source) (ports : List UInt16) :
    Reader.list Reader.signed64 source (.ofValue (.array (ports.map fun p => .ofNat p.toNat))) =
      .ok (ports.map fun p => Int64.ofNat p.toNat) :=
  list_ofValue (fun p => signed64_ofNat source p.toNat p.toNat_lt) ports

theorem icmpTypes_ofValue (source : Source) (types : List UInt8) :
    Reader.list Reader.signed64 source (.ofValue (.array (types.map fun t => .ofNat t.toNat))) =
      .ok (types.map fun t => Int64.ofNat t.toNat) :=
  list_ofValue (fun t => signed64_ofNat source t.toNat (Nat.lt_trans t.toNat_lt (by decide))) types

/-- A rule that was written is read as the rule written down; its number is passed over. -/
theorem Rule.Draft.reader_value (source : Source) (r : Rule) :
    Rule.Draft.reader source (.ofValue r.value) = .ok r.draft := by
  have hin := optional_ofValue source r.inInterface
  have hout := optional_ofValue source r.outInterface
  have hports := ports_ofValue source r.ports
  have hsources := texts_ofValue source r.sources
  have hdestinations := texts_ofValue source r.destinations
  have htypes := icmpTypes_ofValue source r.icmpTypes
  have hcomment := optional_ofValue source r.comment
  have hbuild : Builds Rule.Draft.record
      (inObject source (Tree.ofValue.ofMembers r.members)) _ :=
    builds_seq (builds_seq (builds_seq (builds_seq (builds_seq (builds_seq (builds_seq
      (builds_seq (builds_seq (builds_seq (builds_seq (builds_pure Rule.Draft.mk _)
        (builds_field rfl rfl)) (builds_field rfl rfl)) (builds_field rfl rfl))
        (builds_field rfl hin)) (builds_field rfl hout)) (builds_field rfl hports))
        (builds_field rfl hsources)) (builds_field rfl hdestinations)) (builds_field rfl htypes))
        (builds_field rfl hcomment)) (builds_field rfl rfl)
  -- the members are looked at in the order of the document; the number is no field of a draft
  refine reader_object ?_ hbuild
  unfold Rule.members
  simp only [Tree.ofValue.ofMembers]
  rw [memberProblem?_other rfl (passOver_ofInt _), memberProblem?_field rfl rfl rfl,
    memberProblem?_field rfl rfl rfl, memberProblem?_field rfl rfl rfl,
    memberProblem?_field rfl rfl (problem?_of_ok hin),
    memberProblem?_field rfl rfl (problem?_of_ok hout),
    memberProblem?_field rfl rfl (problem?_of_ok hports),
    memberProblem?_field rfl rfl (problem?_of_ok hsources),
    memberProblem?_field rfl rfl (problem?_of_ok hdestinations),
    memberProblem?_field rfl rfl (problem?_of_ok htypes),
    memberProblem?_field rfl rfl (problem?_of_ok hcomment), memberProblem?_field rfl rfl rfl]
  rfl

theorem Defaults.Draft.reader_value (source : Source) (d : Defaults) :
    Defaults.Draft.reader source (.ofValue d.value) = .ok d.draft := by
  have hbuild : Builds Defaults.Draft.record
      (inObject source (Tree.ofValue.ofMembers d.members)) _ :=
    builds_seq (builds_seq (builds_seq (builds_seq (builds_pure Defaults.Draft.mk _)
      (builds_field rfl rfl)) (builds_field rfl rfl)) (builds_field rfl rfl))
      (builds_field rfl rfl)
  exact reader_object rfl hbuild

theorem Policy.Draft.reader_value (source : Source) (p : Policy) :
    Policy.Draft.reader source (.ofValue p.value) = .ok p.draft := by
  have hdefaults := Defaults.Draft.reader_value source p.defaults
  have hrules := list_ofValue (Rule.Draft.reader_value source) p.rules
  have hbuild : Builds Policy.Draft.record (inObject source
      [(.name "defaults", .ofValue p.defaults.value),
        (.name "rules", .ofValue (.array (p.rules.map Rule.value)))]) _ :=
    builds_seq (builds_seq (builds_pure Policy.Draft.mk _) (builds_field rfl hdefaults))
      (builds_field rfl hrules)
  refine reader_object ?_ hbuild
  show memberProblem? _ _ _
    [(.name "defaults", .ofValue p.defaults.value),
      (.name "rules", .ofValue (.array (p.rules.map Rule.value)))] = none
  rw [memberProblem?_field rfl rfl (problem?_of_ok hdefaults),
    memberProblem?_field rfl rfl (problem?_of_ok hrules)]
  rfl

/-- The document of a policy is read as the policy written down. -/
theorem Policy.Draft.ofText_document (p : Policy) :
    Policy.Draft.ofText p.document = .ok p.draft := by
  unfold Policy.Draft.ofText Reader.ofText Policy.document
  simp only [ofText_indented p.whole_value]
  rw [Policy.Draft.reader_value]
  rfl

end PacketPolicy
