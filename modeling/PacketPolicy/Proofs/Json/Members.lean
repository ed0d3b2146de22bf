import Mathlib.Data.List.Nodup
import Mathlib.Data.Option.Basic
import PacketPolicy.Proofs.Json.Records
import PacketPolicy.Proofs.Json.Words

/-!
# Objects whose members are recast

A structure is read from its object by the names of the members, whatever order they are in and
whatever others stand among them.  A name is a text: what cannot be read as one is refused in the
place of a name, also where its value would have been passed over.

* `Record.memberProblem?_eq_none_iff` -- a reader finds no problem if every member fits and no field
  has two values;
* `Record.valuesOf` -- the values of a field; where no problem is found there is at most one;
* `Record.Recasts` -- members in another order, members more or fewer that no field is named after,
  other names, values left out and values replaced;
* `Record.Respects` -- a structure for which the values left out and replaced make no difference;
* `reader_recast` -- it is read from the recast object as from the first one.
-/

namespace PacketPolicy
namespace Json
namespace Record

variable {α β : Type} {fields : List Field} {source : Source}

/-! ## Fields and their names -/

/-- The field that goes by a name. -/
def fieldOf? (fields : List Field) (name : String) : Option Field :=
  fields.find? fun f => f.names.contains name

theorem fieldOf?_eq_none_iff {name : String} :
    fieldOf? fields name = none ↔ name ∉ fields.flatMap Field.names := by
  simp [fieldOf?]

theorem of_fieldOf? {name : String} {f : Field} (h : fieldOf? fields name = some f) :
    f ∈ fields ∧ name ∈ f.names := by
  unfold fieldOf? at h
  exact ⟨List.mem_of_find?_eq_some h, by simpa using List.find?_some h⟩

/-- No name belongs to two fields. -/
def Separate (fields : List Field) : Prop :=
  ∀ f ∈ fields, ∀ name ∈ f.names, fieldOf? fields name = some f

theorem separate_of_nodup (h : (fields.flatMap Field.names).Nodup) : Separate fields := by
  induction fields with
  | nil => simp [Separate]
  | cons g rest ih =>
      rw [List.flatMap_cons, List.nodup_append] at h
      obtain ⟨-, hrest, hapart⟩ := h
      refine List.forall_mem_cons.mpr ⟨fun name hname => ?_, fun f hf name hname => ?_⟩
      · simp [fieldOf?, hname]
      · have hg : name ∉ g.names := by
          intro hg
          exact hapart name hg name (List.mem_flatMap.mpr ⟨f, hf, hname⟩) rfl
        have hfind := ih hrest f hf name hname
        unfold fieldOf? at hfind ⊢
        rw [List.find?_cons, hfind]
        simp [hg]

/-! ## Members without a problem -/

/-- The names of the field that a member gives a value. -/
def givenBy? (fields : List Field) (m : Key × Tree) : Option (List String) :=
  match m.1 with
  | .name s => (fieldOf? fields s).map Field.names
  | _ => none

/-- The fields that are given values, in the order of the members. -/
def given (fields : List Field) (members : List (Key × Tree)) : List (List String) :=
  members.filterMap (givenBy? fields)

/-- A member has a name, and its value fits the field that goes by it; if there is none, nothing is
wrong with the value. -/
def Fits (fields : List Field) (source : Source) (m : Key × Tree) : Prop :=
  ∃ name, m.1 = .name name ∧
    match fieldOf? fields name with
    | some f => f.check source m.2 = none
    | none => m.2.WellFormed

theorem fits_field_iff {name : String} {f : Field} (h : fieldOf? fields name = some f) (t : Tree) :
    Fits fields source (.name name, t) ↔ f.check source t = none := by
  simp only [Fits, Key.name.injEq, exists_eq_left', h]

theorem fits_other_iff {name : String} (h : fieldOf? fields name = none) (t : Tree) :
    Fits fields source (.name name, t) ↔ t.WellFormed := by
  simp only [Fits, Key.name.injEq, exists_eq_left', h]

theorem memberProblem?_eq_none_iff_of_seen (seen : List (List String))
    (members : List (Key × Tree)) :
    memberProblem? fields source seen members = none ↔
      (∀ m ∈ members, Fits fields source m) ∧ (given fields members).Nodup ∧
        ∀ names ∈ given fields members, names ∉ seen := by
  induction members generalizing seen with
  | nil => simp [memberProblem?, given]
  | cons m rest ih =>
      obtain ⟨key, t⟩ := m
      cases key with
      | name s =>
          cases hfield : fieldOf? fields s with
          | none =>
              have hgiven : given fields ((.name s, t) :: rest) = given fields rest := by
                simp [given, givenBy?, hfield]
              unfold fieldOf? at hfield
              rw [memberProblem?, hfield]
              simp only [List.forall_mem_cons, fits_other_iff hfield, hgiven]
              rw [Option.orElse_eq_none, Option.map_eq_none_iff, ih, Tree.WellFormed, and_assoc]
          | some f =>
              have hgiven : given fields ((.name s, t) :: rest) = f.names :: given fields rest := by
                simp [given, givenBy?, hfield]
              unfold fieldOf? at hfield
              rw [memberProblem?, hfield]
              simp only [List.forall_mem_cons, fits_field_iff hfield, hgiven, List.nodup_cons]
              split
              · rename_i hseen
                have hmem : f.names ∈ seen := by simpa using hseen
                simp [hmem]
              · rename_i hseen
                have hmem : f.names ∉ seen := by simpa using hseen
                rw [Option.orElse_eq_none, ih]
                grind
      | brokenName read passed | other w | absent =>
          have hfits : ∀ key, (∀ s, key ≠ .name s) → ¬ Fits fields source (key, t) := by
            rintro key hkey ⟨name, hname, -⟩
            exact hkey name hname
          simp [memberProblem?, hfits]

/-- A reader finds no problem if every member fits and no field is given two values. -/
theorem memberProblem?_eq_none_iff (members : List (Key × Tree)) :
    memberProblem? fields source [] members = none ↔
      (∀ m ∈ members, Fits fields source m) ∧ (given fields members).Nodup := by
  rw [memberProblem?_eq_none_iff_of_seen]
  simp

/-! ## The values of a field -/

/-- The value of a member that goes by one of the names. -/
def valueBy? (names : List String) (m : Key × Tree) : Option Tree :=
  match m.1 with
  | .name s => if s ∈ names then some m.2 else none
  | _ => none

/-- The values of all members that go by one of the names. -/
def valuesOf (names : List String) (members : List (Key × Tree)) : List Tree :=
  members.filterMap (valueBy? names)

/-- The first of them counts. -/
theorem memberValue?_eq_head? (names : List String) (members : List (Key × Tree)) :
    memberValue? members names = (valuesOf names members).head? := by
  rw [valuesOf, List.head?_filterMap, memberValue?]
  congr 1
  funext m
  obtain ⟨key, t⟩ := m
  cases key <;> simp [valueBy?]

theorem valuesOf_append (names : List String) (before after : List (Key × Tree)) :
    valuesOf names (before ++ after) = valuesOf names before ++ valuesOf names after :=
  List.filterMap_append

theorem valuesOf_cons_of_mem {names : List String} {name : String} (h : name ∈ names) (t : Tree)
    (rest : List (Key × Tree)) :
    valuesOf names ((.name name, t) :: rest) = t :: valuesOf names rest := by
  simp [valuesOf, valueBy?, h]

theorem valuesOf_cons_of_not_mem {names : List String} {name : String} (h : name ∉ names)
    (t : Tree) (rest : List (Key × Tree)) :
    valuesOf names ((.name name, t) :: rest) = valuesOf names rest := by
  simp [valuesOf, valueBy?, h]

/-- Every value counts as a member that is given to the field. -/
theorem length_valuesOf_le (hseparate : Separate fields) {f : Field} (hf : f ∈ fields)
    (members : List (Key × Tree)) :
    (valuesOf f.names members).length ≤ (given fields members).count f.names := by
  induction members with
  | nil => simp [valuesOf]
  | cons m rest ih =>
      have hmono :
          (given fields rest).count f.names ≤ (given fields (m :: rest)).count f.names := by
        refine List.Sublist.count_le _ ?_
        exact List.Sublist.filterMap _ (List.sublist_cons_self m rest)
      obtain ⟨key, t⟩ := m
      cases key with
      | name s =>
          by_cases hs : s ∈ f.names
          · have hfield := hseparate f hf s hs
            have hgiven : given fields ((.name s, t) :: rest) = f.names :: given fields rest := by
              simp [given, givenBy?, hfield]
            rw [valuesOf_cons_of_mem hs, hgiven, List.length_cons, List.count_cons_self]
            omega
          · rw [valuesOf_cons_of_not_mem hs]
            omega
      | brokenName read passed | other w | absent => exact Nat.le_trans ih hmono

/-- Where no problem is found a field has at most one value. -/
theorem length_valuesOf_le_one (hseparate : Separate fields) {f : Field} (hf : f ∈ fields)
    {members : List (Key × Tree)} (h : (given fields members).Nodup) :
    (valuesOf f.names members).length ≤ 1 :=
  Nat.le_trans (length_valuesOf_le hseparate hf members) (List.nodup_iff_count_le_one.mp h _)

/-! ## Recasting objects -/

/-- An object with these fields is recast: its members are put in another order, a member is put in
or taken out that no field is named after, a field goes by another of its names, a field is left
out whose value is to `spare`, or its value is replaced by one that it may `swap` with. -/
inductive Recasts (fields : List Field) (spare : String → Tree → Prop)
    (swap : String → Tree → Tree → Prop) : List (Key × Tree) → List (Key × Tree) → Prop
  | permuted {members members' : List (Key × Tree)} (h : members.Perm members') :
      Recasts fields spare swap members members'
  | added {name : String} {t : Tree} (hname : name ∉ fields.flatMap Field.names)
      (ht : t.WellFormed) (before after : List (Key × Tree)) :
      Recasts fields spare swap (before ++ after) (before ++ (.name name, t) :: after)
  | removed {name : String} {t : Tree} (hname : name ∉ fields.flatMap Field.names)
      (before after : List (Key × Tree)) :
      Recasts fields spare swap (before ++ (.name name, t) :: after) (before ++ after)
  | renamed {names : List String} (hnames : names ∈ fields.map Field.names)
      {name other : String} (hname : name ∈ names) (hother : other ∈ names) (t : Tree)
      (before after : List (Key × Tree)) :
      Recasts fields spare swap (before ++ (.name name, t) :: after)
        (before ++ (.name other, t) :: after)
  | omitted {name : String} {t : Tree} (h : spare name t) (before after : List (Key × Tree)) :
      Recasts fields spare swap (before ++ (.name name, t) :: after) (before ++ after)
  | replaced {name : String} (hname : name ∈ fields.flatMap Field.names) {t t' : Tree}
      (h : swap name t t') (before after : List (Key × Tree)) :
      Recasts fields spare swap (before ++ (.name name, t) :: after)
        (before ++ (.name name, t') :: after)

/-- What becomes of the value of a field when the object is recast. -/
def Alike (spare : String → Tree → Prop) (swap : String → Tree → Tree → Prop)
    (names : List String) (value value' : Option Tree) : Prop :=
  value' = value ∨
    (∃ name ∈ names, ∃ t, spare name t ∧ value = some t ∧ value' = none) ∨
    ∃ name ∈ names, ∃ t t', swap name t t' ∧ value = some t ∧ value' = some t'

/-- Values that are left out and replaced make no difference to the structure. -/
structure Respects (spare : String → Tree → Prop) (swap : String → Tree → Tree → Prop)
    (r : Record α) : Prop where
  check : ∀ f ∈ r.fields, ∀ name ∈ f.names, ∀ source t t', swap name t t' →
    f.check source t = none → f.check source t' = none
  build : ∀ env env' : Lookup, env'.source = env.source →
    (∀ f ∈ r.fields, Alike spare swap f.names (env.value? f.names) (env'.value? f.names)) →
    ∀ place a, r.build place env = .ok a → r.build place env' = .ok a

variable {spare : String → Tree → Prop} {swap : String → Tree → Tree → Prop}

theorem respects_pure (a : α) : Respects spare swap (Record.pure a) where
  check _ hf := absurd hf List.not_mem_nil
  build _ _ _ _ _ _ h := h

theorem Respects.seq {f : Record (α → β)} {x : Record α} (hf : Respects spare swap f)
    (hx : Respects spare swap x) : Respects spare swap (Record.seq f x) where
  check g hg := by
    rcases List.mem_append.mp hg with hg | hg
    · exact hf.check g hg
    · exact hx.check g hg
  build env env' hsource halike place b hbuild := by
    obtain ⟨halikef, halikex⟩ := List.forall_mem_append.mp halike
    obtain ⟨g, hg, hrest⟩ := bind_eq_ok_iff.mp hbuild
    obtain ⟨a, ha, hb⟩ := bind_eq_ok_iff.mp hrest
    refine bind_eq_ok_iff.mpr ⟨g, hf.build env env' hsource halikef place g hg, ?_⟩
    exact bind_eq_ok_iff.mpr ⟨a, hx.build env env' hsource halikex _ a ha, hb⟩

/-- A value that is left out is the one that its field holds where it is left out, and one that is
replaced is read as the one in its place. -/
theorem respects_field {names : List String} {r : Reader α} {absent : Option α}
    (hspare : ∀ name ∈ names, ∀ t, spare name t →
      ∀ source a, r source t = .ok a → absent = some a)
    (hswap : ∀ name ∈ names, ∀ t t', swap name t t' →
      ∀ source a, r source t = .ok a → r source t' = .ok a) :
    Respects spare swap (field names r absent) where
  check f hf name hname source t t' h hcheck := by
    obtain rfl : f = ⟨names, problem? r⟩ := List.mem_singleton.mp hf
    cases hread : r source t with
    | error p => simp [problem?, hread] at hcheck
    | ok a => exact problem?_of_ok (hswap name hname t t' h source a hread)
  build env env' hsource halike place a hbuild := by
    have hvalue := halike ⟨names, problem? r⟩ (List.mem_singleton_self _)
    unfold field at hbuild ⊢
    simp only [hsource] at hbuild ⊢
    rcases hvalue with hsame | ⟨name, hname, t, h, hsome, hnone⟩ |
      ⟨name, hname, t, t', h, hsome, hsome'⟩
    · rw [hsame]
      cases hvalue : env.value? names with
      | some t =>
          rw [hvalue] at hbuild
          exact hbuild
      | none =>
          rw [hvalue] at hbuild
          cases absent with
          | some b => exact hbuild
          | none => cases hbuild
    · rw [hsome] at hbuild
      rw [hnone, hspare name hname t h env.source a hbuild]
    · rw [hsome] at hbuild
      rw [hsome']
      exact hswap name hname t t' h env.source a hbuild

/-- A field that is never left out, and whose value is never replaced. -/
theorem respects_kept {names : List String} {r : Reader α} {absent : Option α}
    (hspare : ∀ name ∈ names, ∀ t, ¬ spare name t)
    (hswap : ∀ name ∈ names, ∀ t t', ¬ swap name t t') :
    Respects spare swap (field names r absent) :=
  respects_field (fun name hname t h => absurd h (hspare name hname t))
    fun name hname t t' h => absurd h (hswap name hname t t')

/-- A field that may be left out with one value, which is read as what it then holds. -/
theorem respects_spared {name : String} {r : Reader α} {a : α} {value : Tree}
    (hspare : ∀ t, spare name t → t = value) (hread : ∀ source, r source value = .ok a)
    (hswap : ∀ t t', ¬ swap name t t') : Respects spare swap (defaulted name r a) := by
  refine respects_field (fun other hother t h source b hb => ?_) fun other hother t t' h => ?_
  · obtain rfl := List.mem_singleton.mp hother
    rw [hspare t h, hread source] at hb
    exact congrArg some (Except.ok.inj hb)
  · obtain rfl := List.mem_singleton.mp hother
    exact absurd h (hswap t t')

/-! ## Reading a recast object -/

theorem given_append (before after : List (Key × Tree)) :
    given fields (before ++ after) = given fields before ++ given fields after :=
  List.filterMap_append

theorem given_cons_field {name : String} {f : Field} (h : fieldOf? fields name = some f) (t : Tree)
    (rest : List (Key × Tree)) :
    given fields ((.name name, t) :: rest) = f.names :: given fields rest := by
  simp [given, givenBy?, h]

theorem given_cons_other {name : String} (h : fieldOf? fields name = none) (t : Tree)
    (rest : List (Key × Tree)) : given fields ((.name name, t) :: rest) = given fields rest := by
  simp [given, givenBy?, h]

/-- All members fit if those around one of them do, and it does. -/
theorem forall_fits_insert_iff (before after : List (Key × Tree)) (m : Key × Tree) :
    (∀ m' ∈ before ++ m :: after, Fits fields source m') ↔
      Fits fields source m ∧ ∀ m' ∈ before ++ after, Fits fields source m' := by
  simp only [List.forall_mem_append, List.forall_mem_cons]
  tauto

/-- In the recast object there is no problem either. -/
theorem memberProblem?_recast {r : Record α} (hr : Respects spare swap r)
    (hseparate : Separate r.fields) {members members' : List (Key × Tree)}
    (hrecast : Recasts r.fields spare swap members members')
    (h : memberProblem? r.fields source [] members = none) :
    memberProblem? r.fields source [] members' = none := by
  rw [memberProblem?_eq_none_iff] at h ⊢
  obtain ⟨hfits, hgiven⟩ := h
  cases hrecast with
  | permuted hperm =>
      refine ⟨fun m hm => hfits m (hperm.mem_iff.mpr hm), ?_⟩
      exact (hperm.filterMap (givenBy? r.fields)).nodup_iff.mp hgiven
  | added hname ht before after =>
      have hother := fieldOf?_eq_none_iff.mpr hname
      rw [given_append, given_cons_other hother, ← given_append]
      exact ⟨(forall_fits_insert_iff _ _ _).mpr ⟨(fits_other_iff hother _).mpr ht, hfits⟩, hgiven⟩
  | removed hname before after =>
      have hother := fieldOf?_eq_none_iff.mpr hname
      rw [given_append, given_cons_other hother, ← given_append] at hgiven
      exact ⟨((forall_fits_insert_iff _ _ _).mp hfits).2, hgiven⟩
  | renamed hnames hname hother t before after =>
      obtain ⟨f, hf, rfl⟩ := List.mem_map.mp hnames
      have hfield := hseparate _ hf _ hname
      have hfield' := hseparate _ hf _ hother
      rw [given_append, given_cons_field hfield] at hgiven
      rw [given_append, given_cons_field hfield']
      refine ⟨?_, hgiven⟩
      rw [forall_fits_insert_iff] at hfits ⊢
      exact ⟨(fits_field_iff hfield' t).mpr ((fits_field_iff hfield t).mp hfits.1), hfits.2⟩
  | omitted hspare before after =>
      refine ⟨((forall_fits_insert_iff _ _ _).mp hfits).2, ?_⟩
      refine hgiven.sublist (List.Sublist.filterMap _ ?_)
      exact List.Sublist.append_left (List.sublist_cons_self _ _) before
  | replaced hname hswap before after =>
      obtain ⟨f, hf, hname⟩ := List.mem_flatMap.mp hname
      have hfield := hseparate _ hf _ hname
      rw [given_append, given_cons_field hfield] at hgiven ⊢
      refine ⟨?_, hgiven⟩
      rw [forall_fits_insert_iff, fits_field_iff hfield] at hfits ⊢
      exact ⟨hr.check _ hf _ hname source _ _ hswap hfits.1, hfits.2⟩

/-- A field with one value has no other in front of it or behind it. -/
theorem valuesOf_insert {names : List String} {name : String} (hname : name ∈ names) {t : Tree}
    {before after : List (Key × Tree)}
    (h : (valuesOf names (before ++ (.name name, t) :: after)).length ≤ 1) :
    valuesOf names (before ++ after) = [] ∧
      ∀ other ∈ names, ∀ t', valuesOf names (before ++ (.name other, t') :: after) = [t'] := by
  rw [valuesOf_append, valuesOf_cons_of_mem hname, List.length_append, List.length_cons] at h
  have hbefore : valuesOf names before = [] := List.eq_nil_of_length_eq_zero (by omega)
  have hafter : valuesOf names after = [] := List.eq_nil_of_length_eq_zero (by omega)
  refine ⟨by rw [valuesOf_append, hbefore, hafter, List.nil_append], fun other hother t' => ?_⟩
  rw [valuesOf_append, valuesOf_cons_of_mem hother, hbefore, hafter, List.nil_append]

theorem valuesOf_insert_of_not_mem {names : List String} {name : String} (hname : name ∉ names)
    (t : Tree) (before after : List (Key × Tree)) :
    valuesOf names (before ++ (.name name, t) :: after) = valuesOf names (before ++ after) := by
  rw [valuesOf_append, valuesOf_cons_of_not_mem hname, ← valuesOf_append]

theorem eq_of_perm_of_length_le_one {xs ys : List α} (h : xs.Perm ys) (hone : xs.length ≤ 1) :
    xs = ys := by
  match xs, hone with
  | [], _ => exact h.nil_eq
  | [x], _ => exact List.singleton_perm.mp h

/-- The values in the recast object, field by field. -/
theorem alike_recast (hseparate : Separate fields) {members members' : List (Key × Tree)}
    (hrecast : Recasts fields spare swap members members')
    (hgiven : (given fields members).Nodup) {f : Field} (hf : f ∈ fields) :
    Alike spare swap f.names (memberValue? members f.names) (memberValue? members' f.names) := by
  have hone := length_valuesOf_le_one hseparate hf hgiven
  have hother : ∀ {name}, name ∉ fields.flatMap Field.names → name ∉ f.names :=
    fun hname h => hname (List.mem_flatMap.mpr ⟨f, hf, h⟩)
  simp only [memberValue?_eq_head?]
  cases hrecast with
  | permuted hperm =>
      have hvalues := eq_of_perm_of_length_le_one (hperm.filterMap (valueBy? f.names)) hone
      exact Or.inl (congrArg List.head? hvalues.symm)
  | added hname ht before after =>
      exact Or.inl (congrArg List.head? (valuesOf_insert_of_not_mem (hother hname) _ before after))
  | @removed name t hname before after =>
      have hsame := valuesOf_insert_of_not_mem (hother hname) t before after
      exact Or.inl (congrArg List.head? hsame.symm)
  | @renamed names hnames name name' hname hname' t before after =>
      obtain ⟨g, hg, rfl⟩ := List.mem_map.mp hnames
      refine Or.inl ?_
      -- the two names belong to one field, which is this one or another
      by_cases hmem : name ∈ f.names
      · obtain rfl : f = g := Option.some_injective _ ((hseparate f hf name hmem).symm.trans
          (hseparate g hg name hname))
        obtain ⟨-, hvalues⟩ := valuesOf_insert hname hone
        rw [hvalues name hname t, hvalues name' hname' t]
      · have hmem' : name' ∉ f.names := by
          intro hmem'
          obtain rfl : f = g := Option.some_injective _ ((hseparate f hf name' hmem').symm.trans
            (hseparate g hg name' hname'))
          exact hmem hname
        rw [valuesOf_insert_of_not_mem hmem, valuesOf_insert_of_not_mem hmem']
  | @omitted name t hspare before after =>
      by_cases hmem : name ∈ f.names
      · obtain ⟨hnone, hvalues⟩ := valuesOf_insert hmem hone
        refine Or.inr (Or.inl ⟨name, hmem, t, hspare, ?_, ?_⟩)
        · rw [hvalues name hmem t, List.head?_cons]
        · rw [hnone, List.head?_nil]
      · have hsame := valuesOf_insert_of_not_mem hmem t before after
        exact Or.inl (congrArg List.head? hsame.symm)
  | @replaced name hname t t' hswap before after =>
      by_cases hmem : name ∈ f.names
      · obtain ⟨-, hvalues⟩ := valuesOf_insert hmem hone
        refine Or.inr (Or.inr ⟨name, hmem, t, t', hswap, ?_, ?_⟩)
        · rw [hvalues name hmem t, List.head?_cons]
        · rw [hvalues name hmem t', List.head?_cons]
      · refine Or.inl ?_
        rw [valuesOf_insert_of_not_mem hmem, valuesOf_insert_of_not_mem hmem]

/-- A structure is read from the recast object as from the first one. -/
theorem reader_recast {r : Record α} (hr : Respects spare swap r) (hseparate : Separate r.fields)
    {members members' : List (Key × Tree)} (hrecast : Recasts r.fields spare swap members members')
    {title : String} {a : α} (h : r.reader title source (.object members .closed) = .ok a) :
    r.reader title source (.object members' .closed) = .ok a := by
  rw [reader_object_eq_ok_iff] at h ⊢
  obtain ⟨hproblem, -, hbuild⟩ := h
  have hgiven := ((memberProblem?_eq_none_iff members).mp hproblem).2
  refine ⟨memberProblem?_recast hr hseparate hrecast hproblem, rfl, ?_⟩
  exact hr.build (inObject source members) (inObject source members') rfl
    (fun f hf => alike_recast hseparate hrecast hgiven hf) 0 a hbuild

end Record
end Json
end PacketPolicy
