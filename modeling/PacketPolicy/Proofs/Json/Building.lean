import PacketPolicy.Json.Decode
import PacketPolicy.Proofs.Json.Words

/-!
# From the words of a value to its tree

The words that a value is written as, and the tree that is built from them.

* `Value.tokens` -- the words of a value;
* `Value.Whole` -- values without floating numbers, whose words are found again in their texts;
* `words_ofValue`, `wellFormed_ofValue` -- they are the words of its tree, and nothing is wrong with
  it;
* `ofTokens_tokens` -- a document of these words holds the value and nothing else.
-/

namespace PacketPolicy
namespace Json

/-! ## Words of values -/

namespace Value

/-- The words of a value. -/
def tokens : Value → List Token
  | .null => [.null]
  | .bool b => [.bool b]
  | .number n => [.number n]
  | .string s => [.string s]
  | .array [] => [.openArray, .closeArray]
  | .array (v :: items) => .openArray :: (v.tokens ++ moreItems items ++ [.closeArray])
  | .object [] => [.openObject, .closeObject]
  | .object ((name, v) :: members) =>
      .openObject :: .string name :: .colon :: (v.tokens ++ moreMembers members ++ [.closeObject])
where
  /-- The items after the first one. -/
  moreItems : List Value → List Token
    | [] => []
    | v :: rest => .comma :: (v.tokens ++ moreItems rest)
  /-- The members after the first one. -/
  moreMembers : List (String × Value) → List Token
    | [] => []
    | (name, v) :: rest => .comma :: .string name :: .colon :: (v.tokens ++ moreMembers rest)

/-- Whether all numbers of a value are whole. -/
def Whole : Value → Prop
  | .null => True
  | .bool _ => True
  | .number (.integer _) => True
  | .number (.floating _) => False
  | .string _ => True
  | .array items => wholeItems items
  | .object members => wholeMembers members
where
  wholeItems : List Value → Prop
    | [] => True
    | v :: rest => v.Whole ∧ wholeItems rest
  wholeMembers : List (String × Value) → Prop
    | [] => True
    | (_, v) :: rest => v.Whole ∧ wholeMembers rest

end Value

/-! ## Trees of values -/

mutual

/-- The words of a value are those of its tree. -/
theorem words_ofValue (v : Value) : (Tree.ofValue v).words = v.tokens := by
  cases v with
  | array items =>
      cases items with
      | nil => rfl
      | cons v items =>
          have hfirst := words_ofValue v
          have hmore := flatMap_ofItems items
          show Token.openArray :: ((Tree.ofValue v).words ++ _ ++ [Token.closeArray]) = _
          rw [hfirst, hmore, Value.tokens]
  | object members =>
      cases members with
      | nil => rfl
      | cons m members =>
          obtain ⟨name, v⟩ := m
          have hfirst := words_ofValue v
          have hmore := flatMap_ofMembers members
          show Token.openObject :: Token.string name :: Token.colon ::
            ((Tree.ofValue v).words ++ _ ++ [Token.closeObject]) = _
          rw [hfirst, hmore, Value.tokens]
  | _ => rfl

theorem flatMap_ofItems (items : List Value) :
    (Tree.words.itemWords (Tree.ofValue.ofItems items)).flatMap (Token.comma :: ·) =
      Value.tokens.moreItems items := by
  cases items with
  | nil => rfl
  | cons v rest =>
      have hfirst := words_ofValue v
      have hmore := flatMap_ofItems rest
      rw [Tree.ofValue.ofItems, Tree.words.itemWords, List.flatMap_cons, hfirst, hmore]
      rfl

theorem flatMap_ofMembers (members : List (String × Value)) :
    (Tree.words.memberWords (Tree.ofValue.ofMembers members)).flatMap (Token.comma :: ·) =
      Value.tokens.moreMembers members := by
  cases members with
  | nil => rfl
  | cons m rest =>
      obtain ⟨name, v⟩ := m
      have hfirst := words_ofValue v
      have hmore := flatMap_ofMembers rest
      rw [Tree.ofValue.ofMembers, Tree.words.memberWords, List.flatMap_cons, hfirst, hmore]
      rfl

end

mutual

/-- Nothing is wrong with the tree of a value. -/
theorem wellFormed_ofValue (v : Value) : (Tree.ofValue v).WellFormed := by
  cases v with
  | array items => exact (Tree.wellFormed_array_iff _ _).mpr ⟨wellFormed_ofItems items, rfl⟩
  | object members => exact (Tree.wellFormed_object_iff _ _).mpr ⟨wellFormed_ofMembers members, rfl⟩
  | _ => rfl

theorem wellFormed_ofItems (items : List Value) :
    ∀ t ∈ Tree.ofValue.ofItems items, t.WellFormed := by
  cases items with
  | nil => simp [Tree.ofValue.ofItems]
  | cons v rest =>
      exact List.forall_mem_cons.mpr ⟨wellFormed_ofValue v, wellFormed_ofItems rest⟩

theorem wellFormed_ofMembers (members : List (String × Value)) :
    ∀ m ∈ Tree.ofValue.ofMembers members, m.1.passedFault? = none ∧ m.2.WellFormed := by
  cases members with
  | nil => simp [Tree.ofValue.ofMembers]
  | cons m rest =>
      obtain ⟨name, v⟩ := m
      exact List.forall_mem_cons.mpr ⟨⟨rfl, wellFormed_ofValue v⟩, wellFormed_ofMembers rest⟩

end

/-- The words of a value make a document that holds it and nothing else. -/
theorem ofTokens_tokens (v : Value) : Document.ofTokens v.tokens = ⟨.ofValue v, false⟩ := by
  rw [← words_ofValue]
  exact ofTokens_words (wellFormed_ofValue v)

end Json
end PacketPolicy
