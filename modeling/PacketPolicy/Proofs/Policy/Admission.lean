import PacketPolicy.Policy.Acceptance
import PacketPolicy.Proofs.Network.Writing
import PacketPolicy.Proofs.Results

/-!
# Which drafts are accepted

The rules and the defaults that can come out of accepting a draft, and the drafts that they come
from.

* `Rule.Admissible`, `Defaults.Admissible` -- what the fields of an accepted value satisfy;
* `acceptPrefix_text` -- a block is accepted as it is shown;
* `Rule.accept_eq_ok_iff` -- a rule comes from one draft only, which is the rule written down;
* `Defaults.accept_draft` -- defaults that were accepted are accepted again unchanged.

Accepting therefore undoes writing down, so a policy may be carried from one ledger to another
as a document.
-/

namespace PacketPolicy

/-- A text that is accepted as a prefix. -/
def IsPrefix (s : String) : Prop :=
  '/' ∈ s.toList ∧ ∃ block, Network.Block.parse? s = some block

/-- A text that is accepted as the name of an interface. -/
structure IsInterface (s : String) : Prop where
  notBlank : Text.isBlankText s = false
  short : Text.byteLength s.toList ≤ interfaceLimit
  notReserved : ¬(s = "." ∨ s = "..")
  plain : s.toList.all isInterfaceChar = true

/-- What the fields of an accepted rule satisfy. -/
structure Rule.Admissible (r : Rule) : Prop where
  ports : ∀ p ∈ r.ports, p ≠ 0
  sources : ∀ s ∈ r.sources, IsPrefix s
  destinations : ∀ s ∈ r.destinations, IsPrefix s
  inInterface : ∀ s ∈ r.inInterface, IsInterface s
  outInterface : ∀ s ∈ r.outInterface, IsInterface s

/-- The contents of the rule came out of accepting a draft; its number and whether it is enabled
may have been changed since. -/
def Rule.Accepted (r : Rule) : Prop :=
  ∃ (draft : Rule.Draft) (made : Rule),
    draft.accept = .ok made ∧ r = { made with id := r.id, enabled := r.enabled }

/-- What the fields of accepted defaults satisfy. -/
structure Defaults.Admissible (d : Defaults) : Prop where
  short : Text.byteLength d.logPrefix.toList ≤ logPrefixLimit
  plain : (d.logPrefix.toList.any fun c => Text.isControl c || c == '"') = false

/-- What the parts of an accepted policy satisfy. -/
structure Policy.Admissible (p : Policy) : Prop where
  defaults : p.defaults.Admissible
  rules : ∀ r ∈ p.rules, r.Admissible

/-! ## Single fields -/

theorem acceptPort_eq_ok_iff (n : Int64) (p : UInt16) :
    acceptPort n = .ok p ↔ n = Int64.ofNat p.toNat ∧ p ≠ 0 := by
  have hlt : p.toNat < 65536 := p.toNat_lt
  have hzero : p ≠ 0 ↔ p.toNat ≠ 0 := by
    rw [Ne, ← UInt16.toNat_inj]
    rfl
  have hvalue : (Int64.ofNat p.toNat).toInt = p.toNat :=
    Int64.toInt_ofNat_of_lt (by omega)
  unfold acceptPort
  constructor
  · intro h
    split at h
    · rename_i hrange
      have hp : n.toInt.toNat.toUInt16 = p := Except.ok.inj h
      have hnumber : p.toNat = n.toInt.toNat := by
        rw [← hp, Nat.toUInt16, UInt16.toNat_ofNat', Nat.mod_eq_of_lt (by omega)]
      refine ⟨Int64.toInt_inj.mp ?_, ?_⟩
      · rw [hvalue]
        omega
      · rw [hzero]
        omega
    · cases h
  · rintro ⟨rfl, hp⟩
    rw [hzero] at hp
    rw [hvalue, if_pos (by omega), Int.toNat_natCast]
    exact congrArg Except.ok (UInt16.toNat_inj.mp (by simp))

theorem acceptIcmpType_eq_ok_iff (n : Int64) (t : UInt8) :
    acceptIcmpType n = .ok t ↔ n = Int64.ofNat t.toNat := by
  have hlt : t.toNat < 256 := t.toNat_lt
  have hvalue : (Int64.ofNat t.toNat).toInt = t.toNat :=
    Int64.toInt_ofNat_of_lt (by omega)
  unfold acceptIcmpType
  constructor
  · intro h
    split at h
    · rename_i hrange
      have ht : n.toInt.toNat.toUInt8 = t := Except.ok.inj h
      have hnumber : t.toNat = n.toInt.toNat := by
        rw [← ht, Nat.toUInt8, UInt8.toNat_ofNat', Nat.mod_eq_of_lt (by omega)]
      refine Int64.toInt_inj.mp ?_
      rw [hvalue]
      omega
    · cases h
  · rintro rfl
    rw [hvalue, if_pos (by omega), Int.toNat_natCast]
    exact congrArg Except.ok (UInt8.toNat_inj.mp (by simp))

theorem acceptPrefix_eq_ok_iff (field s : String) (block : Network.Block) :
    acceptPrefix field s = .ok block ↔ '/' ∈ s.toList ∧ Network.Block.parse? s = some block := by
  unfold acceptPrefix
  by_cases hslash : '/' ∈ s.toList
  · cases hparse : Network.Block.parse? s <;> simp [hslash]
  · simp [hslash]

/-- An accepted block that is shown with its address and its number of bits is accepted again, as
the same block. -/
theorem acceptPrefix_text (field : String) (block : Network.Block) :
    acceptPrefix field (block.address.text ++ "/" ++ toString block.length) = .ok block :=
  (acceptPrefix_eq_ok_iff field _ block).mpr ((block.writes_iff _).mp block.writes_text)

/-- The characters of names are ASCII and stand behind the space there. -/
theorem toNat_of_isInterfaceChar {c : Char} (h : isInterfaceChar c = true) :
    0x20 < c.toNat ∧ c.toNat < 0x7F := by
  have hvalue : c.toNat = c.val.toNat := rfl
  have halpha : c.isAlpha = (c.isUpper || c.isLower) := rfl
  have hupper : c.isUpper = decide (c.val ≥ 65 ∧ c.val ≤ 90) := rfl
  have hlower : c.isLower = (decide (c.val ≥ 97) && decide (c.val ≤ 122)) := rfl
  simp only [isInterfaceChar, Char.isAlphanum, halpha, hupper, hlower, Char.isDigit,
    Bool.or_eq_true, beq_iff_eq, Bool.and_eq_true, decide_eq_true_eq, ge_iff_le,
    UInt32.le_iff_toNat_le] at h
  rcases h with ((((hupper | hlower) | hdigit) | rfl) | rfl) | rfl
  · have hbounds : 65 ≤ c.val.toNat ∧ c.val.toNat ≤ 90 := hupper
    omega
  · have hbounds : 97 ≤ c.val.toNat ∧ c.val.toNat ≤ 122 := hlower
    omega
  · have hbounds : 48 ≤ c.val.toNat ∧ c.val.toNat ≤ 57 := hdigit
    omega
  · decide
  · decide
  · decide

theorem acceptInterface_eq_ok_iff (field s name : String) :
    acceptInterface field s = .ok name ↔ s = name ∧ IsInterface name := by
  unfold acceptInterface
  constructor
  · intro h
    split at h
    · cases h
    split at h
    · cases h
    split at h
    · cases h
    split at h
    · rename_i hblank hlong hreserved hplain
      obtain rfl : s = name := Except.ok.inj h
      exact ⟨rfl, ⟨by simpa using hblank, by omega, hreserved, hplain⟩⟩
    · cases h
  · rintro ⟨rfl, hname⟩
    rw [if_neg (by simp [hname.notBlank]), if_neg (Nat.not_lt.mpr hname.short),
      if_neg hname.notReserved, if_pos hname.plain]

theorem acceptInterface?_eq_ok_iff (field : Field) (s name : Option String) :
    acceptInterface? field s = .ok name ↔ s = name ∧ ∀ n ∈ name, IsInterface n := by
  cases s with
  | none => cases name <;> simp [acceptInterface?]
  | some s =>
      cases name with
      | none =>
          cases h : acceptInterface (Named.name field) s <;>
            simp [acceptInterface?, h, Except.map]
      | some n =>
          have hone := acceptInterface_eq_ok_iff (Named.name field) s n
          cases h : acceptInterface (Named.name field) s <;>
            simp_all [acceptInterface?, Except.map]

theorem acceptName_eq_ok_iff {α : Type} [Named α] (field : Field)
    (complaint : String → Complaint) (s : String) (a : α) :
    acceptName field complaint s = .ok a ↔ s = Named.name a := by
  unfold acceptName
  rw [eq_comm (a := s), ← Named.ofName?_eq_some_iff]
  cases (Named.ofName? s : Option α) <;> simp

/-! ## Lists of fields -/

theorem exists_acceptPrefixes_iff (field : String) (texts : List String) :
    (∃ blocks, texts.mapM (acceptPrefix field) = .ok blocks) ↔ ∀ s ∈ texts, IsPrefix s := by
  rw [exists_mapM_eq_ok_iff]
  simp only [acceptPrefix_eq_ok_iff, exists_and_left]
  rfl

/-! ## Whole drafts -/

/-- The numbers of ports, as a draft has them. -/
theorem acceptPorts_eq_ok_iff (ns : List Int64) (ports : List UInt16) :
    ns.mapM acceptPort = .ok ports ↔
      ns = ports.map (fun p => Int64.ofNat p.toNat) ∧ ∀ p ∈ ports, p ≠ 0 :=
  mapM_eq_ok_iff acceptPort_eq_ok_iff ns ports

theorem acceptIcmpTypes_eq_ok_iff (ns : List Int64) (types : List UInt8) :
    ns.mapM acceptIcmpType = .ok types ↔ ns = types.map fun t => Int64.ofNat t.toNat := by
  have hone : ∀ n t, acceptIcmpType n = .ok t ↔ n = Int64.ofNat t.toNat ∧ True := by
    simp [acceptIcmpType_eq_ok_iff]
  rw [mapM_eq_ok_iff hone]
  simp

/-- A rule comes from one draft only: the rule written down. -/
theorem Rule.accept_eq_ok_iff (d : Rule.Draft) (r : Rule) :
    d.accept = .ok r ↔ d = r.draft ∧ r.id = Rule.unassigned ∧ r.Admissible := by
  unfold Rule.Draft.accept
  simp only [bind_eq_ok_iff, acceptName_eq_ok_iff, acceptPorts_eq_ok_iff,
    acceptIcmpTypes_eq_ok_iff, acceptInterface?_eq_ok_iff]
  constructor
  · rintro ⟨chain, hchain, protocol, hprotocol, action, haction, ports, ⟨hports, hport⟩,
      sourceBlocks, hsources, destinationBlocks, hdestinations, types, htypes,
      inInterface, ⟨hin, hinName⟩, outInterface, ⟨hout, houtName⟩, heq⟩
    obtain rfl := Except.ok.inj heq
    refine ⟨?_, rfl, ?_⟩
    · cases d
      simp_all [Rule.draft]
    · exact ⟨hport, (exists_acceptPrefixes_iff _ _).mp ⟨_, hsources⟩,
        (exists_acceptPrefixes_iff _ _).mp ⟨_, hdestinations⟩, hinName, houtName⟩
  -- the blocks that prefixes stand for are looked at and then dropped, so any will do
  · rintro ⟨rfl, hid, hadmissible⟩
    obtain ⟨sourceBlocks, hsources⟩ :=
      (exists_acceptPrefixes_iff (Named.name Field.sources) r.sources).mpr hadmissible.sources
    obtain ⟨destinationBlocks, hdestinations⟩ :=
      (exists_acceptPrefixes_iff (Named.name Field.destinations) r.destinations).mpr
        hadmissible.destinations
    refine ⟨r.chain, rfl, r.protocol, rfl, r.action, rfl, r.ports, ⟨rfl, hadmissible.ports⟩,
      sourceBlocks, hsources, destinationBlocks, hdestinations, r.icmpTypes, rfl,
      r.inInterface, ⟨rfl, hadmissible.inInterface⟩, r.outInterface,
      ⟨rfl, hadmissible.outInterface⟩, ?_⟩
    cases r
    subst hid
    rfl

/-- An admissible rule that is written down is accepted, under no number yet. -/
theorem Rule.accept_draft {r : Rule} (h : r.Admissible) :
    r.draft.accept = .ok (r.withId Rule.unassigned) :=
  (Rule.accept_eq_ok_iff _ _).mpr
    ⟨rfl, rfl, ⟨h.ports, h.sources, h.destinations, h.inInterface, h.outInterface⟩⟩

/-- The contents of a rule came out of accepting a draft exactly when its fields are admissible. -/
theorem Rule.accepted_iff (r : Rule) : r.Accepted ↔ r.Admissible := by
  constructor
  · rintro ⟨draft, made, haccept, hr⟩
    obtain ⟨-, -, hmade⟩ := (Rule.accept_eq_ok_iff draft made).mp haccept
    rw [hr]
    exact ⟨hmade.ports, hmade.sources, hmade.destinations, hmade.inInterface,
      hmade.outInterface⟩
  · intro h
    exact ⟨r.draft, r.withId Rule.unassigned, Rule.accept_draft h, rfl⟩

theorem acceptLogPrefix_eq_ok_iff (s text : String) :
    acceptLogPrefix s = .ok text ↔ s = text ∧ Text.byteLength text.toList ≤ logPrefixLimit ∧
      (text.toList.any fun c => Text.isControl c || c == '"') = false := by
  unfold acceptLogPrefix
  constructor
  · intro h
    split at h
    · cases h
    split at h
    · cases h
    · rename_i hlong hplain
      obtain rfl : s = text := Except.ok.inj h
      exact ⟨rfl, by omega, by simpa using hplain⟩
  · rintro ⟨rfl, hshort, hplain⟩
    rw [if_neg (Nat.not_lt.mpr hshort), if_neg (by simp [hplain])]

/-- The names of actions are in small letters already. -/
theorem acceptPolicy_name (field : Field) (a : Action) :
    acceptPolicy field (Named.name a) = .ok a := by
  have hlowered : loweredAscii (Named.name a) = Named.name a := by
    cases a <;> rfl
  simp [acceptPolicy, hlowered]

theorem Defaults.admissible_of_accept {draft : Defaults.Draft} {d : Defaults}
    (h : draft.accept = .ok d) : d.Admissible := by
  unfold Defaults.Draft.accept at h
  simp only [bind_eq_ok_iff, acceptLogPrefix_eq_ok_iff] at h
  obtain ⟨input, -, forward, -, output, -, text, ⟨-, hshort, hplain⟩, heq⟩ := h
  obtain rfl := Except.ok.inj heq
  exact ⟨hshort, hplain⟩

/-- Defaults that are written down are accepted unchanged. -/
theorem Defaults.accept_draft {d : Defaults} (h : d.Admissible) : d.draft.accept = .ok d := by
  unfold Defaults.Draft.accept Defaults.draft
  simp only [acceptPolicy_name, bind_eq_ok_iff]
  exact ⟨_, rfl, _, rfl, _, rfl, _, (acceptLogPrefix_eq_ok_iff _ _).mpr ⟨rfl, h.short, h.plain⟩,
    rfl⟩

end PacketPolicy
