import Mathlib.Data.List.Forall2

/-! # Traversals that may fail

How `List.mapM` over `Except` succeeds and how it fails: at the first element that fails, with that
element's error. -/

namespace Except
variable {ε α β γ : Type} {f : α → Except ε β} {l : List α}

@[simp] theorem ok_bind (a : α) (g : α → Except ε β) : ((ok a : Except ε α) >>= g) = g a := rfl

@[simp] theorem error_bind (e : ε) (g : α → Except ε β) : ((error e : Except ε α) >>= g) = error e := rfl

theorem bind_eq_ok_iff {x : Except ε α} {g : α → Except ε β} {b : β} :
    (x >>= g) = ok b ↔ ∃ a, x = ok a ∧ g a = ok b := by
  cases x with
  | error e => exact iff_of_false (fun h => by cases h) fun h => by obtain ⟨a, ha, -⟩ := h; cases ha
  | ok a => exact ⟨fun h => ⟨a, rfl, h⟩, fun h => by obtain ⟨a', ha, hg⟩ := h; cases ha; exact hg⟩

theorem mapM_cons_ok {a : α} {b : β} (h : f a = ok b) : (a :: l).mapM f = (l.mapM f).map (b :: ·) := by
  rw [List.mapM_cons, h]
  rfl

theorem mapM_cons_error {a : α} {e : ε} (h : f a = error e) : (a :: l).mapM f = error e := by
  rw [List.mapM_cons, h]
  rfl

theorem map_eq_ok_iff {x : Except ε α} {g : α → β} {b : β} : x.map g = ok b ↔ ∃ a, x = ok a ∧ g a = b := by
  cases x <;> simp [Except.map]

theorem map_eq_error_iff {x : Except ε α} {g : α → β} {e : ε} : x.map g = error e ↔ x = error e := by
  cases x <;> simp [Except.map]

/-- A traversal returns the results of its elements, in order. -/
theorem mapM_eq_ok_iff {bs : List β} : l.mapM f = ok bs ↔ List.Forall₂ (fun a b => f a = ok b) l bs := by
  induction l generalizing bs with
  | nil =>
    rw [List.forall₂_nil_left_iff]
    exact ⟨fun h => by cases h; rfl, fun h => by rw [h]; rfl⟩
  | cons a l ih =>
    rw [List.forall₂_cons_left_iff]
    cases ha : f a with
    | error e =>
      rw [mapM_cons_error ha]
      simp
    | ok b =>
      rw [mapM_cons_ok ha, map_eq_ok_iff]
      constructor
      · intro hex
        obtain ⟨bs', h, rfl⟩ := hex
        exact ⟨b, bs', rfl, ih.mp h, rfl⟩
      · intro hex
        obtain ⟨b', bs', hb, h, rfl⟩ := hex
        cases hb
        exact ⟨bs', ih.mpr h, rfl⟩

/-- A traversal fails with the error of the first element that fails. -/
theorem mapM_eq_error_iff {e : ε} :
    l.mapM f = error e ↔ ∃ before bad after, l = before ++ bad :: after ∧ (∀ a ∈ before, ∃ b, f a = ok b) ∧
      f bad = error e := by
  induction l with
  | nil =>
    refine ⟨fun h => (by cases h), ?_⟩
    intro hex
    obtain ⟨before, bad, after, h, -⟩ := hex
    exact absurd h (by simp)
  | cons a l ih =>
    cases ha : f a with
    | error e' =>
      rw [mapM_cons_error ha]
      constructor
      · intro h
        cases h
        exact ⟨[], a, l, rfl, by simp, ha⟩
      · intro hex
        rcases hex with ⟨_ | ⟨a', before⟩, bad, after, h, hb, hbad⟩
        · cases h
          cases ha.symm.trans hbad
          rfl
        · cases h
          obtain ⟨b, hb⟩ := hb a List.mem_cons_self
          rw [hb] at ha
          cases ha
    | ok b =>
      rw [mapM_cons_ok ha, map_eq_error_iff, ih]
      constructor
      · intro hex
        obtain ⟨before, bad, after, rfl, hb, hbad⟩ := hex
        exact ⟨a :: before, bad, after, rfl, List.forall_mem_cons.mpr ⟨⟨b, ha⟩, hb⟩, hbad⟩
      · intro hex
        rcases hex with ⟨_ | ⟨a', before⟩, bad, after, h, hb, hbad⟩
        · cases h
          rw [hbad] at ha
          cases ha
        · cases h
          exact ⟨before, bad, after, rfl, fun x hx => hb x (List.mem_cons_of_mem _ hx), hbad⟩

theorem mapM_eq_map {g : α → β} (h : ∀ a ∈ l, f a = ok (g a)) : l.mapM f = ok (l.map g) := by
  rw [mapM_eq_ok_iff, List.forall₂_map_right_iff]
  exact List.forall₂_same.mpr h

/-- A traversal that undoes a map. -/
theorem mapM_map_eq {g : β → α} {bs : List β} (h : ∀ b ∈ bs, f (g b) = ok b) : (bs.map g).mapM f = ok bs := by
  rw [mapM_eq_ok_iff, List.forall₂_map_left_iff]
  exact List.forall₂_same.mpr h

theorem toOption_eq_some_iff {x : Except ε α} {a : α} : x.toOption = some a ↔ x = ok a := by
  cases x <;> simp [Except.toOption]

theorem exists_of_mem_left {R : α → β → Prop} {bs : List β} (h : List.Forall₂ R l bs) {a : α} (ha : a ∈ l) :
    ∃ b ∈ bs, R a b := by
  induction h with
  | nil => cases ha
  | cons hab _ ih =>
    rcases List.mem_cons.mp ha with rfl | ha
    · exact ⟨_, List.mem_cons_self, hab⟩
    · obtain ⟨b, hb, hR⟩ := ih ha
      exact ⟨b, List.mem_cons_of_mem _ hb, hR⟩

theorem exists_mapM_eq_ok (h : ∀ a ∈ l, ∃ b, f a = ok b) : ∃ bs, l.mapM f = ok bs := by
  induction l with
  | nil => exact ⟨[], rfl⟩
  | cons a l ih =>
    obtain ⟨b, hb⟩ := h a List.mem_cons_self
    obtain ⟨bs, hbs⟩ := ih fun x hx => h x (List.mem_cons_of_mem _ hx)
    exact ⟨b :: bs, by rw [mapM_cons_ok hb, hbs]; rfl⟩

end Except
