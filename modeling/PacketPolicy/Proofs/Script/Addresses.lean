import PacketPolicy.Proofs.Network.Notation
import PacketPolicy.Proofs.Script.Clauses

/-!
# The address clauses of a statement

Which clauses compare an address of a packet with a block, and in what form the block stands in
them.  A prefix is accepted if it can be read as a block, but what goes into the statement is its
text as it came, and the word in front of it comes from reading it once more.

* `IsAddressClause` -- the clauses about the source or the destination of a packet;
* `HasForm` -- the form of such a clause: the word of the family in whose notation the address is
  written, the address, a slash, and the number of leading bits in an admitted notation;
* `accepted_address_clause_iff` -- the address clauses of accepted rules are those of this form,
  with the number of bits in any of the notations that are read;
* `address_clauses_not_plain` -- these are more notations than the plain digits.
-/

namespace PacketPolicy
namespace Script

open Network

/-- What stands between the word of the family and the block, as the clause is about the source or
the destination of the packet. -/
def sides : List String :=
  [" saddr ", " daddr "]

/-- A clause that compares an address of the packet with something. -/
def IsAddressClause (clause : String) : Prop :=
  ∃ (family : Family) (rest : String), ∃ side ∈ sides, clause = family.word ++ side ++ rest

/-- The form of an address clause whose number of bits stands in a notation that is admitted for
the family. -/
def HasForm (admitted : Family → Nat → List Char → Prop) (clause : String) : Prop :=
  ∃ (family : Family) (address length : String) (n : Nat),
    (∃ side ∈ sides, clause = family.word ++ side ++ (address ++ "/" ++ length)) ∧
    (family = .ip ↔ (V4.parse? address.toList).isSome) ∧
    (family = .ip6 ↔ (V6.parse? address.toList).isSome) ∧
    n ≤ family.width ∧ admitted family n length.toList

/-- Decimal digits, with neither a sign nor zeros in front, as the notation of either family. -/
def InDigits (_ : Family) (n : Nat) (cs : List Char) : Prop :=
  cs = (toString n).toList

/-! ## The clauses about addresses -/

/-- What has the form of an address clause is a prefix behind the word of its family. -/
theorem hasForm_spells_iff (clause : String) :
    HasForm Spells clause ↔
      ∃ side ∈ sides, ∃ s, IsPrefix s ∧ clause = (prefixFamily s).word ++ side ++ s := by
  have hfamily {s : String} {block : Block} (hread : Block.parse? s = some block) :
      prefixFamily s = block.address.family := by
    unfold prefixFamily
    rw [hread]
    rfl
  constructor
  · rintro ⟨family, address, length, n, ⟨side, hside, rfl⟩, hfour, hsix, hn, hspells⟩
    obtain ⟨a, haddress, rfl⟩ := (Address.exists_parse?_iff _ _).mpr ⟨hfour, hsix⟩
    rw [← Address.width_eq] at hn
    let block : Block := ⟨a, n, hn⟩
    have hwrites : block.Writes (address ++ "/" ++ length) :=
      ⟨address, length, rfl, haddress, hspells⟩
    obtain ⟨hslash, hread⟩ := (block.writes_iff _).mp hwrites
    exact ⟨side, hside, _, ⟨hslash, block, hread⟩, by rw [hfamily hread]⟩
  · rintro ⟨side, hside, s, ⟨hslash, block, hread⟩, rfl⟩
    rw [hfamily hread]
    obtain ⟨address, length, rfl, haddress, hspells⟩ := (block.writes_iff s).mpr ⟨hslash, hread⟩
    obtain ⟨hfour, hsix⟩ := (Address.exists_parse?_iff _ _).mp ⟨_, haddress, rfl⟩
    have hn : block.length ≤ block.address.family.width := by
      rw [← Address.width_eq]
      exact block.length_le
    exact ⟨_, address, length, block.length, ⟨side, hside, rfl⟩, hfour, hsix, hn, hspells⟩

theorem not_isAddressClause {clause : String} (h : clause.toList.take 2 ≠ ['i', 'p']) :
    ¬IsAddressClause clause := by
  rintro ⟨family, rest, side, -, rfl⟩
  cases family <;> simp [Family.word] at h

/-- The clauses of a rule about addresses are those of its sources and destinations. -/
theorem exists_of_isAddressClause {r : Rule} {clause : String} (h : clause ∈ r.clauses)
    (haddress : IsAddressClause clause) :
    ∃ s ∈ r.sources ++ r.destinations, ∃ side ∈ sides,
      clause = (prefixFamily s).word ++ side ++ s := by
  rw [clauses_eq, List.mem_append, List.mem_map, List.mem_singleton] at h
  rcases h with ⟨c, hc, rfl⟩ | rfl
  · cases c with
    | source family block =>
        have hsource : block ∈ r.sources ∧ prefixFamily block = family := by
          simpa [Filter.clauses, Filter.ofRule] using hc
        obtain ⟨hmem, rfl⟩ := hsource
        exact ⟨block, List.mem_append_left _ hmem, " saddr ", by decide, rfl⟩
    | destination family block =>
        have hdestination : block ∈ r.destinations ∧ prefixFamily block = family := by
          simpa [Filter.clauses, Filter.ofRule] using hc
        obtain ⟨hmem, rfl⟩ := hdestination
        exact ⟨block, List.mem_append_right _ hmem, " daddr ", by decide, rfl⟩
    -- the others do not begin with the word of a family
    | known => exact absurd haddress (not_isAddressClause (by decide))
    | inbound name => exact absurd haddress (not_isAddressClause (by simp [Clause.text]))
    | outbound name => exact absurd haddress (not_isAddressClause (by simp [Clause.text]))
    | protocol p => exact absurd haddress (not_isAddressClause (by simp [Clause.text]))
    | ports p numbers =>
        refine absurd haddress (not_isAddressClause ?_)
        cases p <;> simp [Clause.text, Named.name]
    | icmpTypes numbers => exact absurd haddress (not_isAddressClause (by simp [Clause.text]))
  · refine absurd haddress (not_isAddressClause ?_)
    cases r.action <;> decide

/-- Every accepted prefix stands in a clause of an accepted rule. -/
theorem exists_accepted_clause {s side : String} (h : IsPrefix s) (hside : side ∈ sides) :
    ∃ (d : Rule.Draft) (r : Rule), d.accept = .ok r ∧
      (prefixFamily s).word ++ side ++ s ∈ r.clauses := by
  simp only [sides, List.mem_cons, List.not_mem_nil, or_false] at hside
  rcases hside with rfl | rfl
  · let r : Rule := { (default : Rule) with sources := [s] }
    have hr : r.Admissible :=
      ⟨nofun, List.forall_mem_singleton.mpr h, nofun, nofun, nofun⟩
    exact ⟨r.draft, _, Rule.accept_draft hr, by simp [r, Rule.clauses, Rule.withId]⟩
  · let r : Rule := { (default : Rule) with destinations := [s] }
    have hr : r.Admissible :=
      ⟨nofun, nofun, List.forall_mem_singleton.mpr h, nofun, nofun⟩
    exact ⟨r.draft, _, Rule.accept_draft hr, by simp [r, Rule.clauses, Rule.withId]⟩

/-- The address clauses of accepted rules are those that name the family in whose notation the
address is written, with the number of bits in any notation that blocks have. -/
theorem accepted_address_clause_iff (clause : String) :
    (IsAddressClause clause ∧
        ∃ (d : Rule.Draft) (r : Rule), d.accept = .ok r ∧ clause ∈ r.clauses) ↔
      HasForm Spells clause := by
  rw [hasForm_spells_iff]
  constructor
  · rintro ⟨haddress, d, r, haccept, hclause⟩
    obtain ⟨-, -, hadmissible⟩ := (Rule.accept_eq_ok_iff d r).mp haccept
    obtain ⟨s, hs, side, hside, rfl⟩ := exists_of_isAddressClause hclause haddress
    have hprefix : IsPrefix s := by
      rcases List.mem_append.mp hs with hsource | hdestination
      · exact hadmissible.sources s hsource
      · exact hadmissible.destinations s hdestination
    exact ⟨side, hside, s, hprefix, rfl⟩
  · rintro ⟨side, hside, s, hprefix, rfl⟩
    exact ⟨⟨prefixFamily s, s, side, hside, rfl⟩, exists_accepted_clause hprefix hside⟩

/-- A rule whose number of bits is written as a mask. -/
def maskedRule : Rule :=
  { (default : Rule) with sources := ["10.0.0.0/255.0.0.0"] }

/-- The number of bits of an accepted prefix need not be in plain digits in the statement. -/
theorem address_clauses_not_plain :
    ¬∀ (d : Rule.Draft) (r : Rule), d.accept = .ok r →
      ∀ clause ∈ r.clauses, IsAddressClause clause → HasForm InDigits clause := by
  intro hplain
  have hclause : "ip saddr 10.0.0.0/255.0.0.0" ∈ (maskedRule.withId Rule.unassigned).clauses := by
    decide
  have haddress : IsAddressClause "ip saddr 10.0.0.0/255.0.0.0" :=
    ⟨.ip, "10.0.0.0/255.0.0.0", " saddr ", by decide, by decide⟩
  obtain ⟨family, address, length, n, ⟨side, -, htext⟩, -, -, -, hdigits⟩ :=
    hplain _ _ (rfl : maskedRule.draft.accept = _) _ hclause haddress
  have hslash : ∀ c ∈ length.toList.reverse, (c != '/') = true := by
    intro c hc
    rw [List.mem_reverse, hdigits] at hc
    rw [bne_iff_ne]
    rintro rfl
    exact absurd (Text.isDigit_of_mem_toString hc) (by decide)
  -- behind the last slash stand the digits of a number, but there is a dot
  have hdot : '.' ∈ "ip saddr 10.0.0.0/255.0.0.0".toList.reverse.takeWhile (· != '/') := by decide
  rw [htext] at hdot
  simp only [String.toList_append, List.reverse_append, List.append_assoc] at hdot
  rw [List.takeWhile_append_of_pos hslash] at hdot
  have hmem : '.' ∈ length.toList := by simpa using hdot
  rw [hdigits] at hmem
  exact absurd (Text.isDigit_of_mem_toString hmem) (by decide)

end Script
end PacketPolicy
