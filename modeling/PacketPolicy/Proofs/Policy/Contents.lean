import PacketPolicy.Policy.Script

/-!
# Rules apart from their numbers

Two ledgers number the rules of one policy differently.  What a rule says does not depend on its
number, and the numbers matter for the script only in so far as they order the rules.

* `Rule.contents` -- the rule without its number;
* `contents_renumbered` -- other numbers leave the contents as they are;
* `script_of_contents` -- rules in ascending order make the same script under all numbers.
-/

namespace PacketPolicy

/-- The rule as it is before it has a number. -/
def Rule.contents (r : Rule) : Rule :=
  r.withId Rule.unassigned

theorem contents_withId (r : Rule) (id : Int64) : (r.withId id).contents = r.contents := rfl

/-- Other numbers leave the contents as they are. -/
theorem contents_renumbered {rules : List Rule} {ids : List Int64}
    (h : ids.length = rules.length) :
    (List.zipWith Rule.withId rules ids).map Rule.contents = rules.map Rule.contents := by
  induction rules generalizing ids with
  | nil => rfl
  | cons r rest ih =>
      cases ids with
      | nil => cases h
      | cons id ids =>
          have hrest := ih (Nat.succ.inj h)
          rw [List.zipWith_cons_cons, List.map_cons, List.map_cons, contents_withId, hrest]

/-- What the contents decide can be selected among the contents. -/
theorem map_contents_filter {keep : Rule → Bool} (h : ∀ r : Rule, keep r.contents = keep r)
    (rules : List Rule) :
    (rules.filter keep).map Rule.contents = (rules.map Rule.contents).filter keep := by
  rw [List.filter_map]
  exact congrArg _ (List.filter_congr fun r _ => (h r).symm)

/-- Enabled rules that stand in ascending order stay where they are. -/
theorem enabledInOrder_of_ascending {rules : List Rule}
    (h : rules.Pairwise fun a b => a.id < b.id) :
    enabledInOrder rules = rules.filter Rule.enabled := by
  refine List.mergeSort_of_pairwise ((h.filter _).imp ?_)
  intro a b hlt
  exact decide_eq_true (Int64.le_of_lt hlt)

/-- The block of a chain is made of the contents of its rules. -/
theorem chainLines_contents (d : Defaults) (rules : List Rule) (chain : Chain) :
    chainLines d rules chain = chainLines d (rules.map Rule.contents) chain := by
  have hchain : ∀ r : Rule, (r.contents.chain == chain) = (r.chain == chain) := fun _ => rfl
  unfold chainLines
  rw [← map_contents_filter hchain, List.map_map]
  rfl

/-- Rules in ascending order make the same script under all numbers. -/
theorem script_of_contents (d : Defaults) {rules others : List Rule}
    (hrules : rules.Pairwise fun a b => a.id < b.id)
    (hothers : others.Pairwise fun a b => a.id < b.id)
    (hcontents : rules.map Rule.contents = others.map Rule.contents) :
    script d rules = script d others := by
  have henabled : ∀ r : Rule, r.contents.enabled = r.enabled := fun _ => rfl
  -- the order of the numbers is the order of the lists, so sorting by them may be left out
  have hlines : ∀ chain, chainLines d (enabledInOrder rules) chain =
      chainLines d (enabledInOrder others) chain := by
    intro chain
    rw [enabledInOrder_of_ascending hrules, enabledInOrder_of_ascending hothers,
      chainLines_contents, map_contents_filter henabled, hcontents,
      ← map_contents_filter henabled, ← chainLines_contents]
  unfold script scriptLines
  rw [funext hlines]

end PacketPolicy
