import PacketPolicy.Host.Machine
import PacketPolicy.Proofs.Host.Files
import PacketPolicy.Proofs.Policy.Documents

/-!
# Exported policies

The document of a policy says all that there is to the policy.  Whoever reads it as it was exported
gets the policy, with the numbers of its rules; whoever reads it as somebody's draft gets the policy
written down; and so it is when the document has been in a file in between.

* `within_ofInt`, `word16_ofNat`, `word8_ofNat`, `named_ofValue` -- values of the types that only
  exported policies have;
* `Rule.reader_value`, `Defaults.reader_value`, `Policy.reader_value` -- the values that are written
  are read as what they were;
* `readPolicy_savePolicy` -- a policy that has been saved is read back;
* `document_carries_policy` -- all of this together.
-/

namespace PacketPolicy

open Json Record

/-! ## Numbers and names -/

/-- A whole number in the range that is asked for. -/
theorem within_ofInt (source : Source) {least greatest n : Int} (wanted : String)
    (hrange : least ≤ n ∧ n ≤ greatest)
    (hnumber : -9223372036854775808 ≤ n ∧ n ≤ 18446744073709551615) :
    Reader.within least greatest wanted source (.ofValue (.ofInt n)) = .ok n := by
  have hvalue : Value.ofInt n = .number (.integer ⟨n, hnumber.1, hnumber.2⟩) := by
    unfold Value.ofInt Integer.of?
    rw [dif_pos hnumber]
  rw [hvalue]
  show (if least ≤ n ∧ n ≤ greatest then Except.ok n else _) = _
  rw [if_pos hrange]

theorem word16_ofNat (source : Source) (n : UInt16) :
    Reader.word16 source (.ofValue (.ofNat n.toNat)) = .ok n := by
  have hbelow := n.toNat_lt
  have hread := @within_ofInt source 0 65535 n.toNat "u16" (by omega) (by omega)
  unfold Reader.word16 Reader.map Value.ofNat
  rw [hread]
  exact congrArg Except.ok (UInt16.ofNat_toNat)

theorem word8_ofNat (source : Source) (n : UInt8) :
    Reader.word8 source (.ofValue (.ofNat n.toNat)) = .ok n := by
  have hbelow := n.toNat_lt
  have hread := @within_ofInt source 0 255 n.toNat "u8" (by omega) (by omega)
  unfold Reader.word8 Reader.map Value.ofNat
  rw [hread]
  exact congrArg Except.ok (UInt8.ofNat_toNat)

/-- A member of an enumeration is read from its name. -/
theorem named_ofValue {α : Type} [Named α] (source : Source) (a : α) :
    Reader.named source (.ofValue (.string (Named.name a))) = .ok a := by
  show Reader.named source (.string (Named.name a)) = _
  unfold Reader.named Reader.nameOf
  cases source <;> simp

/-! ## Reading what was exported -/

/-- A rule that was exported is read with its number. -/
theorem Rule.reader_value (source : Source) (r : Rule) :
    Rule.reader source (.ofValue r.value) = .ok r := by
  have hid := signed64_ofInt source r.id
  have hchain := named_ofValue source r.chain
  have hprotocol := named_ofValue source r.protocol
  have haction := named_ofValue source r.action
  have hin := optional_ofValue source r.inInterface
  have hout := optional_ofValue source r.outInterface
  have hports := list_ofValue (word16_ofNat source) r.ports
  have hsources := texts_ofValue source r.sources
  have hdestinations := texts_ofValue source r.destinations
  have htypes := list_ofValue (word8_ofNat source) r.icmpTypes
  have hcomment := optional_ofValue source r.comment
  rw [List.map_id'] at hports htypes
  have hbuild : Builds Rule.record (inObject source (Tree.ofValue.ofMembers r.members)) r :=
    builds_seq (builds_seq (builds_seq (builds_seq (builds_seq (builds_seq (builds_seq
      (builds_seq (builds_seq (builds_seq (builds_seq (builds_seq (builds_pure Rule.mk _)
        (builds_field rfl hid)) (builds_field rfl hchain)) (builds_field rfl hprotocol))
        (builds_field rfl haction)) (builds_field rfl hin)) (builds_field rfl hout))
        (builds_field rfl hports)) (builds_field rfl hsources)) (builds_field rfl hdestinations))
        (builds_field rfl htypes)) (builds_field rfl hcomment)) (builds_field rfl rfl)
  refine reader_object ?_ hbuild
  unfold Rule.members
  simp only [Tree.ofValue.ofMembers]
  rw [memberProblem?_field rfl rfl (problem?_of_ok hid),
    memberProblem?_field rfl rfl (problem?_of_ok hchain),
    memberProblem?_field rfl rfl (problem?_of_ok hprotocol),
    memberProblem?_field rfl rfl (problem?_of_ok haction),
    memberProblem?_field rfl rfl (problem?_of_ok hin),
    memberProblem?_field rfl rfl (problem?_of_ok hout),
    memberProblem?_field rfl rfl (problem?_of_ok hports),
    memberProblem?_field rfl rfl (problem?_of_ok hsources),
    memberProblem?_field rfl rfl (problem?_of_ok hdestinations),
    memberProblem?_field rfl rfl (problem?_of_ok htypes),
    memberProblem?_field rfl rfl (problem?_of_ok hcomment), memberProblem?_field rfl rfl rfl]
  rfl

theorem Defaults.reader_value (source : Source) (d : Defaults) :
    Defaults.reader source (.ofValue d.value) = .ok d := by
  have hinput := named_ofValue source d.input
  have hforward := named_ofValue source d.forward
  have houtput := named_ofValue source d.output
  have hbuild : Builds Defaults.record (inObject source (Tree.ofValue.ofMembers d.members)) d :=
    builds_seq (builds_seq (builds_seq (builds_seq (builds_pure Defaults.mk _)
      (builds_field rfl hinput)) (builds_field rfl hforward)) (builds_field rfl houtput))
      (builds_field rfl rfl)
  refine reader_object ?_ hbuild
  unfold Defaults.members
  simp only [Tree.ofValue.ofMembers]
  rw [memberProblem?_field rfl rfl (problem?_of_ok hinput),
    memberProblem?_field rfl rfl (problem?_of_ok hforward),
    memberProblem?_field rfl rfl (problem?_of_ok houtput), memberProblem?_field rfl rfl rfl]
  rfl

theorem Policy.reader_value (source : Source) (p : Policy) :
    Policy.reader source (.ofValue p.value) = .ok p := by
  have hdefaults := Defaults.reader_value source p.defaults
  have hrules := list_ofValue (Rule.reader_value source) p.rules
  rw [List.map_id'] at hrules
  have hbuild : Builds Policy.record (inObject source
      [(.name "defaults", .ofValue p.defaults.value),
        (.name "rules", .ofValue (.array (p.rules.map Rule.value)))]) p :=
    builds_seq (builds_seq (builds_pure Policy.mk _) (builds_field rfl hdefaults))
      (builds_field rfl hrules)
  refine reader_object ?_ hbuild
  show memberProblem? _ _ _
    [(.name "defaults", .ofValue p.defaults.value),
      (.name "rules", .ofValue (.array (p.rules.map Rule.value)))] = none
  rw [memberProblem?_field rfl rfl (problem?_of_ok hdefaults),
    memberProblem?_field rfl rfl (problem?_of_ok hrules)]
  rfl

/-- The document of a policy is read as the policy. -/
theorem Policy.ofText_document (p : Policy) :
    Reader.ofText Policy.reader p.document = .ok p := by
  unfold Reader.ofText Policy.document
  simp only [ofText_indented p.whole_value]
  rw [Policy.reader_value]
  rfl

/-! ## Policies in files -/

/-- What is written as text is text. -/
theorem Text.ofBytes?_toBytes (s : String) : Text.ofBytes? (Text.toBytes s) = some s := by
  unfold Text.ofBytes? Text.toBytes String.fromUTF8?
  exact dif_pos s.isValidUTF8

namespace Machine

variable {m m' : Machine} {path : String} {p : Policy}

/-- A policy is read from the text that a file holds. -/
theorem readPolicy_of_read {s : String}
    (h : m.files.read m.directory path = .ok (.bytes (Text.toBytes s))) :
    m.readPolicy path = (Policy.Draft.ofText s).mapError .document := by
  have hbytes : m.readBytes path = .ok (Text.toBytes s) := by
    unfold readBytes
    rw [h]
  have htext : m.readText path = .ok s := by
    unfold readText
    simp only [hbytes, bind, Except.bind, Text.ofBytes?_toBytes]
    rfl
  unfold readPolicy
  rw [htext]

/-- Saving a policy is writing the bytes of its document. -/
theorem savePolicy_eq_ok_iff :
    m.savePolicy path p = .ok m' ↔
      ∃ q files, m.files.write m.directory path Host.privateFile
          (.bytes (Text.toBytes p.document)) = .ok (q, files) ∧
        m' = { m with files, held := m.held.filter (· != q) } := by
  unfold savePolicy
  dsimp only
  generalize Content.bytes (Text.toBytes p.document) = content
  cases hwrite : m.files.write m.directory path Host.privateFile content with
  | error fault => simp
  | ok r =>
      obtain ⟨q, files⟩ := r
      simp [eq_comm]

/-- A policy is saved just where a file can be written. -/
theorem exists_savePolicy_iff :
    (∃ m', m.savePolicy path p = .ok m') ↔ m.files.Writable m.directory path := by
  constructor
  · rintro ⟨m', h⟩
    obtain ⟨q, files, hwrite, -⟩ := savePolicy_eq_ok_iff.mp h
    exact Host.Tree.exists_write_iff.mp ⟨q, files, hwrite⟩
  · intro h
    have hwritten : ∃ q files, m.files.write m.directory path Host.privateFile
        (.bytes (Text.toBytes p.document)) = .ok (q, files) :=
      Host.Tree.exists_write_iff.mpr h
    obtain ⟨q, files, hwrite⟩ := hwritten
    exact ⟨_, savePolicy_eq_ok_iff.mpr ⟨q, files, hwrite, rfl⟩⟩

/-- A policy that has been saved is read back as the policy written down. -/
theorem readPolicy_savePolicy (h : m.savePolicy path p = .ok m') :
    m'.readPolicy path = .ok p.draft := by
  obtain ⟨q, files, hwrite, rfl⟩ := savePolicy_eq_ok_iff.mp h
  rw [readPolicy_of_read (m := { m with files, held := m.held.filter (· != q) })
    (Host.Tree.read_write hwrite), Policy.Draft.ofText_document]
  rfl

end Machine

/-! ## The law of exported documents -/

/-- The document of a policy carries the whole policy.  As somebody's draft it is read as the policy
written down, and as an export as the policy itself; so no two policies have the same document.
It is saved wherever a file can be written, whatever stands there, and what is read from there
afterwards is the policy written down. -/
theorem document_carries_policy (p : Policy) :
    Policy.Draft.ofText p.document = .ok p.draft ∧
    Reader.ofText Policy.reader p.document = .ok p ∧
    (∀ q : Policy, q.document = p.document → q = p) ∧
    ∀ (m : Machine) (path : String),
      ((∃ m', m.savePolicy path p = .ok m') ↔ m.files.Writable m.directory path) ∧
      ∀ m', m.savePolicy path p = .ok m' → m'.readPolicy path = .ok p.draft := by
  refine ⟨Policy.Draft.ofText_document p, Policy.ofText_document p, fun q hq => ?_,
    fun m path => ⟨Machine.exists_savePolicy_iff, fun m' => Machine.readPolicy_savePolicy⟩⟩
  have hread := Policy.ofText_document q
  rw [hq, Policy.ofText_document p] at hread
  exact (Except.ok.inj hread).symm

/-- A policy with numbers from the ends of their ranges, and with characters in its texts that are
written in other words. -/
def extremePolicy : Policy where
  defaults := { Defaults.initial with logPrefix := "\"\\\n\x7f☃" }
  rules :=
    [{ id := Int64.minValue, chain := .forward, protocol := .icmp, action := .drop,
       inInterface := some "", outInterface := none, ports := [0, 65535, 0],
       sources := ["10.0.0.0/8", ""], destinations := [], icmpTypes := [255],
       comment := some "\x00\t/\u2028", enabled := false}]

/-- A machine with one file, which is no policy. -/
def litteredMachine : Machine :=
  { (default : Machine) with
    files := ⟨[(["policy.json"], .file Host.publicFile (.bytes ⟨#[0xff]⟩))]⟩
    directory := [] }

theorem litteredMachine_writable :
    litteredMachine.files.Writable litteredMachine.directory "policy.json" :=
  ⟨⟨["policy.json"], by decide +kernel, by decide +kernel, by decide +kernel, nofun⟩,
    "policy.json", by decide +kernel, by decide⟩

/-- The file that is no policy makes room for the document of a policy, which is read back and is
the document of no other policy. -/
theorem extremePolicy_saved :
    { extremePolicy with rules := [] }.document ≠ extremePolicy.document ∧
    ∃ m', litteredMachine.savePolicy "policy.json" extremePolicy = .ok m' ∧
      m'.readPolicy "policy.json" = .ok extremePolicy.draft := by
  obtain ⟨-, -, hinjective, hfiles⟩ := document_carries_policy extremePolicy
  obtain ⟨hsaved, hread⟩ := hfiles litteredMachine "policy.json"
  obtain ⟨m', h⟩ := hsaved.mpr litteredMachine_writable
  refine ⟨fun hsame => ?_, m', h, hread m' h⟩
  have hrules := congrArg Policy.rules (hinjective _ hsame)
  cases hrules

end PacketPolicy
