import PacketPolicy.Proofs.Json.Members
import PacketPolicy.Proofs.Json.Spacing

/-!
# Readers and what they accept

A reader that makes a value of a tree has found nothing wrong with the tree, also where it needed
nothing of it.

* `Reader.Sound` -- such a reader; `Reader.sound_text`, `Reader.sound_optional`, `Reader.sound_list`
  and others;
* `Record.Sound`, `Record.sound_reader` -- structures, from objects and from lists;
* `ofText_eq_ok_iff` -- a text is read if it writes a tree that is read.
-/

namespace PacketPolicy
namespace Json

variable {α β : Type}

/-- Nothing is wrong with the trees of which the reader makes values. -/
def Reader.Sound (r : Reader α) : Prop :=
  ∀ source t a, r source t = .ok a → t.WellFormed

theorem ending_eq_ok_iff (e : Ending) : Reader.ending e = .ok () ↔ e = .closed := by
  cases e <;> simp [Reader.ending, Ending.fault?, unless?]

/-! ## Single values -/

namespace Reader

theorem sound_text : Sound text := by
  intro source t a h
  cases t with
  | string s => rfl
  | _ => cases h

theorem sound_boolean : Sound boolean := by
  intro source t a h
  cases t with
  | bool b => rfl
  | _ => cases h

theorem sound_within (least greatest : Int) (wanted : String) :
    Sound (within least greatest wanted) := by
  intro source t a h
  cases t with
  | number n => rfl
  | _ => cases h

theorem sound_map {r : Reader α} (hr : Sound r) (f : α → β) : Sound (map f r) := by
  intro source t b h
  cases hread : r source t with
  | ok a => exact hr source t a hread
  | error p =>
      unfold map at h
      rw [hread] at h
      cases h

theorem sound_signed64 : Sound signed64 :=
  sound_map (sound_within _ _ _) _

theorem sound_optional {r : Reader α} (hr : Sound r) : Sound (optional r) := by
  intro source t a h
  cases t with
  | null => rfl
  | _ => exact sound_map hr some source _ a h

theorem sound_list {r : Reader α} (hr : Sound r) : Sound (list r) := by
  intro source t as h
  cases t with
  | array items e =>
      obtain ⟨values, hvalues, hrest⟩ := bind_eq_ok_iff.mp h
      obtain ⟨⟨⟩, hend, -⟩ := bind_eq_ok_iff.mp hrest
      refine (Tree.wellFormed_array_iff items e).mpr ⟨fun t ht => ?_, (ending_eq_ok_iff e).mp hend⟩
      obtain ⟨a, -, ha⟩ := exists_of_mapM_eq_ok hvalues ht
      exact hr source t a ha
  | _ => cases h

end Reader

/-! ## Structures -/

namespace Record

/-- Nothing is wrong with the values that fit the fields of the structure. -/
def Sound (r : Record α) : Prop :=
  ∀ f ∈ r.fields, ∀ source t, f.check source t = none → t.WellFormed

theorem sound_pure (a : α) : Sound (Record.pure a) :=
  fun _ hf => absurd hf List.not_mem_nil

theorem Sound.seq {f : Record (α → β)} {x : Record α} (hf : Sound f) (hx : Sound x) :
    Sound (Record.seq f x) := by
  intro g hg
  rcases List.mem_append.mp hg with hg | hg
  · exact hf g hg
  · exact hx g hg

theorem sound_field {names : List String} {r : Reader α} {absent : Option α}
    (hr : Reader.Sound r) : Sound (field names r absent) := by
  intro f hf source t hcheck
  obtain rfl := List.mem_singleton.mp hf
  cases hread : r source t with
  | ok a => exact hr source t a hread
  | error p => simp [problem?, hread] at hcheck

/-- Values in the order of the fields, as many as there are fields or fewer. -/
theorem wellFormed_of_itemProblem? {fields : List Field} {source : Source}
    (hfields : ∀ f ∈ fields, ∀ source t, f.check source t = none → t.WellFormed)
    {items : List Tree} (hitems : itemProblem? source fields items = none)
    (hlength : items.length ≤ fields.length) : ∀ t ∈ items, t.WellFormed := by
  induction items generalizing fields with
  | nil => simp
  | cons t rest ih =>
      cases fields with
      | nil => simp at hlength
      | cons f fields =>
          rw [itemProblem?, Option.orElse_eq_none] at hitems
          obtain ⟨hf, hmore⟩ := List.forall_mem_cons.mp hfields
          have hrest := ih hmore hitems.2 (by simpa using hlength)
          exact List.forall_mem_cons.mpr ⟨hf source t hitems.1, hrest⟩

theorem sound_reader {r : Record α} (hr : Sound r) (title : String) :
    Reader.Sound (r.reader title) := by
  intro source t a h
  cases t with
  | object members e =>
      obtain ⟨hproblem, hend, -⟩ := reader_object_eq_ok_iff.mp h
      refine (Tree.wellFormed_object_iff members e).mpr ⟨fun m hm => ?_, hend⟩
      obtain ⟨name, hname, hfits⟩ := ((memberProblem?_eq_none_iff members).mp hproblem).1 m hm
      rw [hname]
      refine ⟨rfl, ?_⟩
      cases hfield : fieldOf? r.fields name with
      | none =>
          rw [hfield] at hfits
          exact hfits
      | some f =>
          rw [hfield] at hfits
          exact hr f (of_fieldOf? hfield).1 source m.2 hfits
  | array items e =>
      obtain ⟨⟨⟩, hproblem, hrest⟩ := bind_eq_ok_iff.mp h
      split at hrest
      · cases hrest
      · rename_i hlength
        obtain ⟨⟨⟩, hend, -⟩ := bind_eq_ok_iff.mp hrest
        refine (Tree.wellFormed_array_iff items e).mpr ⟨?_, (ending_eq_ok_iff e).mp hend⟩
        have hnone : itemProblem? source r.fields items = none := by
          cases hitems : itemProblem? source r.fields items with
          | none => rfl
          | some p => simp [hitems, unless?] at hproblem
        exact wellFormed_of_itemProblem? hr hnone (by omega)
  | _ => cases h

end Record

/-! ## Whole texts -/

/-- A text is read if it writes a tree that is read. -/
theorem ofText_eq_ok_iff {r : Reader α} (hr : r.Sound) {s : String} {a : α} :
    r.ofText s = .ok a ↔ ∃ t, Writes s t ∧ r .text t = .ok a := by
  have hdocument : r.ofText s = .ok a ↔
      (Document.ofText s).more = false ∧ r .text (Document.ofText s).root = .ok a := by
    unfold Reader.ofText
    cases hread : r .text (Document.ofText s).root with
    | error p => simp [bind, Except.bind, hread]
    | ok b =>
        cases hmore : (Document.ofText s).more <;>
          simp [bind, Except.bind, hread, hmore, pure, Except.pure]
  rw [hdocument]
  constructor
  · rintro ⟨hmore, hread⟩
    refine ⟨_, writes_iff.mpr ⟨?_, hr _ _ _ hread⟩, hread⟩
    rw [← hmore]
  · rintro ⟨t, hwrites, hread⟩
    rw [(writes_iff.mp hwrites).1]
    exact ⟨rfl, hread⟩

end Json
end PacketPolicy
