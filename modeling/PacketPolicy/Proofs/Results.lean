import Mathlib.Data.List.Forall2

/-!
# Results of steps that may fail

When a sequence of steps that may fail succeeds, and what it then results in.

* `bind_eq_ok_iff`, `bind_eq_error_iff` -- one step after another;
* `map_eq_ok_iff` -- a step whose result is told in another form;
* `mapError_eq_ok_iff`, `mapError_eq_error_iff` -- a step whose failures are told in other words;
* `mapM_eq_ok_iff`, `mapM_eq_ok_iff_eq_map`, `mapM_bind_mapM_eq_ok_iff`, `exists_forall₂_iff`,
  `exists_mapM_eq_ok_iff`, `exists_mapM_eq_error_iff`, `exists_of_mapM_eq_ok`,
  `map_eq_of_mapM_eq_ok`, `mapM_eq_ok_of_mem`, `mapM_congr_of_mem`, `mapM_map_ok`,
  `mapM_eq_self_iff`, `mapM_map_self` -- one step for each item of a list.
-/

namespace PacketPolicy

variable {ε δ α β γ : Type} {f : α → Except ε β}

theorem bind_eq_ok_iff {x : Except ε α} {b : β} :
    x >>= f = .ok b ↔ ∃ a, x = .ok a ∧ f a = .ok b := by
  cases x <;> simp [bind, Except.bind]

theorem bind_eq_error_iff {x : Except ε α} {e : ε} :
    x >>= f = .error e ↔ x = .error e ∨ ∃ a, x = .ok a ∧ f a = .error e := by
  cases x <;> simp [bind, Except.bind]

theorem map_eq_ok_iff {x : Except ε α} {tell : α → β} {b : β} :
    x.map tell = .ok b ↔ ∃ a, x = .ok a ∧ tell a = b := by
  cases x <;> simp [Except.map]

theorem mapError_eq_ok_iff {x : Except ε α} {tell : ε → δ} {a : α} :
    x.mapError tell = .ok a ↔ x = .ok a := by
  cases x with
  | ok b => constructor <;> rintro ⟨⟩ <;> rfl
  | error e => constructor <;> intro h <;> cases h

theorem mapError_eq_error_iff {x : Except ε α} {tell : ε → δ} {e : δ} :
    x.mapError tell = .error e ↔ ∃ f, x = .error f ∧ tell f = e := by
  cases x with
  | ok b =>
      constructor
      · intro h
        cases h
      · rintro ⟨_, h, -⟩
        cases h
  | error f =>
      constructor
      · intro h
        exact ⟨f, rfl, Except.error.inj h⟩
      · rintro ⟨_, h, rfl⟩
        cases h
        rfl

/-- Where every member can be written back, the members come from one list only. -/
theorem mapM_eq_ok_iff {g : β → α} {P : β → Prop} (hf : ∀ a b, f a = .ok b ↔ a = g b ∧ P b)
    (as : List α) (bs : List β) :
    as.mapM f = .ok bs ↔ as = bs.map g ∧ ∀ b ∈ bs, P b := by
  induction as generalizing bs with
  | nil => cases bs <;> simp [pure, Except.pure]
  | cons a as ih =>
      rw [List.mapM_cons, bind_eq_ok_iff]
      constructor
      · rintro ⟨b, hb, hrest⟩
        obtain ⟨rest, hmap, heq⟩ := bind_eq_ok_iff.mp hrest
        obtain rfl : b :: rest = bs := Except.ok.inj heq
        obtain ⟨rfl, hmember⟩ := (hf a b).mp hb
        obtain ⟨rfl, hmembers⟩ := (ih rest).mp hmap
        exact ⟨rfl, List.forall_mem_cons.mpr ⟨hmember, hmembers⟩⟩
      · rintro ⟨heq, hall⟩
        cases bs with
        | nil => cases heq
        | cons b rest =>
            obtain ⟨rfl, rfl⟩ := List.cons.inj heq
            obtain ⟨hmember, hmembers⟩ := List.forall_mem_cons.mp hall
            exact ⟨b, (hf _ b).mpr ⟨rfl, hmember⟩,
              bind_eq_ok_iff.mpr ⟨rest, (ih rest).mpr ⟨rfl, hmembers⟩, rfl⟩⟩

theorem mapM_eq_ok_iff_eq_map {g : β → α} (hf : ∀ a b, f a = .ok b ↔ a = g b) {as : List α}
    {bs : List β} : as.mapM f = .ok bs ↔ as = bs.map g := by
  rw [mapM_eq_ok_iff (P := fun _ => True) (fun a b => (hf a b).trans (and_iff_left trivial).symm)]
  exact and_iff_left fun _ _ => trivial

/-- Two steps for each item, all the first ones before the second ones, give each item the result
of its own two steps. -/
theorem mapM_bind_mapM_eq_ok_iff {γ : Type} {g : β → Except ε γ} {as : List α} {cs : List γ} :
    (as.mapM f >>= fun bs => bs.mapM g) = .ok cs ↔
      List.Forall₂ (fun a c => (f a >>= g) = .ok c) as cs := by
  induction as generalizing cs with
  | nil => cases cs <;> simp [pure, Except.pure, bind, Except.bind]
  | cons a rest ih =>
      simp only [List.mapM_cons, bind_eq_ok_iff] at ih ⊢
      constructor
      · rintro ⟨bs, ⟨b, hb, others, hothers, hbs⟩, hcs⟩
        obtain rfl := Except.ok.inj hbs
        rw [List.mapM_cons] at hcs
        obtain ⟨c, hc, hcs⟩ := bind_eq_ok_iff.mp hcs
        obtain ⟨more, hmore, hcs⟩ := bind_eq_ok_iff.mp hcs
        obtain rfl := Except.ok.inj hcs
        exact .cons ⟨b, hb, hc⟩ (ih.mp ⟨others, hothers, hmore⟩)
      · rintro (_ | ⟨⟨b, hb, hc⟩, hrest⟩)
        obtain ⟨others, hothers, hmore⟩ := ih.mpr hrest
        refine ⟨b :: others, ⟨b, hb, others, hothers, rfl⟩, ?_⟩
        rw [List.mapM_cons]
        exact bind_eq_ok_iff.mpr ⟨_, hc, bind_eq_ok_iff.mpr ⟨_, hmore, rfl⟩⟩

/-- A list has results for its items if each item has one. -/
theorem exists_forall₂_iff {R : α → β → Prop} (as : List α) :
    (∃ bs, List.Forall₂ R as bs) ↔ ∀ a ∈ as, ∃ b, R a b := by
  induction as with
  | nil => simp
  | cons a rest ih =>
      rw [List.forall_mem_cons, ← ih]
      constructor
      · rintro ⟨_, _ | ⟨hb, hrest⟩⟩
        exact ⟨⟨_, hb⟩, _, hrest⟩
      · rintro ⟨⟨b, hb⟩, bs, hrest⟩
        exact ⟨b :: bs, .cons hb hrest⟩

theorem exists_mapM_eq_ok_iff (as : List α) :
    (∃ bs, as.mapM f = .ok bs) ↔ ∀ a ∈ as, ∃ b, f a = .ok b := by
  induction as with
  | nil => simp [pure, Except.pure]
  | cons a as ih =>
      rw [List.forall_mem_cons, ← ih]
      constructor
      · rintro ⟨bs, hbs⟩
        rw [List.mapM_cons] at hbs
        obtain ⟨b, hb, hrest⟩ := bind_eq_ok_iff.mp hbs
        obtain ⟨rest, hmap, -⟩ := bind_eq_ok_iff.mp hrest
        exact ⟨⟨b, hb⟩, rest, hmap⟩
      · rintro ⟨⟨b, hb⟩, rest, hmap⟩
        refine ⟨b :: rest, ?_⟩
        rw [List.mapM_cons]
        exact bind_eq_ok_iff.mpr ⟨b, hb, bind_eq_ok_iff.mpr ⟨rest, hmap, rfl⟩⟩

/-- A list that cannot be gone through has an item that fails. -/
theorem exists_mapM_eq_error_iff (as : List α) :
    (∃ e, as.mapM f = .error e) ↔ ∃ a ∈ as, ∃ e, f a = .error e := by
  have hfails {γ : Type} (x : Except ε γ) : (∃ e, x = .error e) ↔ ¬ ∃ c, x = .ok c := by
    cases x <;> simp
  simp only [hfails, exists_mapM_eq_ok_iff, Classical.not_forall, exists_prop]

/-- Each item of a list that was gone through has its result there. -/
theorem exists_of_mapM_eq_ok {as : List α} {bs : List β} (h : as.mapM f = .ok bs) {a : α}
    (ha : a ∈ as) : ∃ b ∈ bs, f a = .ok b := by
  induction as generalizing bs with
  | nil => cases ha
  | cons x rest ih =>
      rw [List.mapM_cons] at h
      obtain ⟨b, hb, h⟩ := bind_eq_ok_iff.mp h
      obtain ⟨others, hothers, h⟩ := bind_eq_ok_iff.mp h
      obtain rfl := Except.ok.inj h
      rcases List.mem_cons.mp ha with rfl | hrest
      · exact ⟨b, List.mem_cons_self, hb⟩
      · obtain ⟨c, hc, hresult⟩ := ih hothers hrest
        exact ⟨c, List.mem_cons_of_mem _ hc, hresult⟩

/-- What each item shares with its result, a list shares with its results. -/
theorem map_eq_of_mapM_eq_ok {g : α → γ} {h : β → γ} (hf : ∀ a b, f a = .ok b → h b = g a)
    {as : List α} {bs : List β} (hbs : as.mapM f = .ok bs) : bs.map h = as.map g := by
  induction as generalizing bs with
  | nil =>
      obtain rfl := Except.ok.inj hbs
      rfl
  | cons a rest ih =>
      rw [List.mapM_cons] at hbs
      obtain ⟨b, hb, hrest⟩ := bind_eq_ok_iff.mp hbs
      obtain ⟨others, hothers, heq⟩ := bind_eq_ok_iff.mp hrest
      obtain rfl := Except.ok.inj heq
      rw [List.map_cons, List.map_cons, hf a b hb, ih hothers]

/-- Going through a list item by item, each of which has its result. -/
theorem mapM_eq_ok_of_mem {as : List α} {g : α → β} (h : ∀ a ∈ as, f a = .ok (g a)) :
    as.mapM f = .ok (as.map g) := by
  induction as with
  | nil => rfl
  | cons a rest ih =>
      obtain ⟨hfirst, hrest⟩ := List.forall_mem_cons.mp h
      rw [List.mapM_cons, hfirst, ih hrest]
      rfl

theorem mapM_congr_of_mem {g : α → Except ε β} {as : List α} (h : ∀ a ∈ as, f a = g a) :
    as.mapM f = as.mapM g := by
  induction as with
  | nil => rfl
  | cons a rest ih =>
      obtain ⟨hfirst, hrest⟩ := List.forall_mem_cons.mp h
      rw [List.mapM_cons, List.mapM_cons, hfirst, ih hrest]

/-- Reading what was written item by item. -/
theorem mapM_map_ok {read : β → Except ε γ} {write : α → β} {result : α → γ}
    (items : List α) (h : ∀ a, read (write a) = .ok (result a)) :
    (items.map write).mapM read = .ok (items.map result) := by
  rw [List.mapM_map]
  exact mapM_eq_ok_of_mem fun a _ => h a

/-- Every item of a list is its own result just when the list is. -/
theorem mapM_eq_self_iff {f : α → Except ε α} (as : List α) :
    as.mapM f = .ok as ↔ ∀ a ∈ as, f a = .ok a := by
  constructor
  · intro h
    induction as with
    | nil => exact fun _ ha => absurd ha List.not_mem_nil
    | cons a rest ih =>
        rw [List.mapM_cons] at h
        obtain ⟨b, hb, h⟩ := bind_eq_ok_iff.mp h
        obtain ⟨others, hothers, h⟩ := bind_eq_ok_iff.mp h
        obtain ⟨rfl, rfl⟩ := List.cons.inj (Except.ok.inj h)
        exact List.forall_mem_cons.mpr ⟨hb, ih hothers⟩
  · intro h
    exact (mapM_eq_ok_of_mem (g := id) h).trans (congrArg Except.ok (List.map_id as))

/-- Reading back what was written item by item. -/
theorem mapM_map_self {read : β → Except ε α} {write : α → β} {items : List α}
    (h : ∀ a ∈ items, read (write a) = .ok a) : (items.map write).mapM read = .ok items := by
  rw [List.mapM_map]
  exact (mapM_eq_self_iff items).mpr h

end PacketPolicy
