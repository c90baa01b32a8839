import Mathlib.Data.List.Forall2

/-!
# A computation for each element

`xs.mapM f` in `Option` and in `Except`: what it gives is, element by element, what `f` gives, and it
gives something exactly when `f` does for each element.
-/

namespace ControlPlane

section Option

variable {A B : Type} {f : A → Option B} {xs : List A} {ys : List B}

/-- The results of a computation for each element. -/
theorem forall₂_of_mapM (h : xs.mapM f = some ys) : List.Forall₂ (fun x y => f x = some y) xs ys := by
  induction xs generalizing ys with
  | nil =>
    obtain rfl : ys = [] := by simpa using h.symm
    exact .nil
  | cons x xs ih =>
    rw [List.mapM_cons] at h
    simp only [Option.bind_eq_bind, Option.bind_eq_some_iff, Option.pure_def] at h
    obtain ⟨y, hy, ys', hys, heq⟩ := h
    obtain rfl := Option.some_inj.mp heq
    exact .cons hy (ih hys)

/-- Each result is that of an element. -/
theorem exists_of_mem_mapM (h : xs.mapM f = some ys) {y : B} (hy : y ∈ ys) :
    ∃ x ∈ xs, f x = some y := by
  have hall := forall₂_of_mapM h
  clear h
  induction hall with
  | nil => exact absurd hy List.not_mem_nil
  | cons hx _ ih =>
    rcases List.mem_cons.mp hy with rfl | hy
    · exact ⟨_, List.mem_cons_self, hx⟩
    · obtain ⟨x, hxs, hx⟩ := ih hy
      exact ⟨x, List.mem_cons_of_mem _ hxs, hx⟩

/-- Each element has a result. -/
theorem exists_mem_of_mapM (h : xs.mapM f = some ys) {x : A} (hx : x ∈ xs) :
    ∃ y ∈ ys, f x = some y := by
  have hall := forall₂_of_mapM h
  clear h
  induction hall with
  | nil => exact absurd hx List.not_mem_nil
  | cons hy _ ih =>
    rcases List.mem_cons.mp hx with rfl | hx
    · exact ⟨_, List.mem_cons_self, hy⟩
    · obtain ⟨y, hys, hy⟩ := ih hx
      exact ⟨y, List.mem_cons_of_mem _ hys, hy⟩

/-- A computation for each element has a result when each of them has one. -/
theorem mapM_isSome : (xs.mapM f).isSome = true ↔ ∀ x ∈ xs, (f x).isSome = true := by
  induction xs with
  | nil => simp
  | cons x xs ih =>
    rw [List.mapM_cons, List.forall_mem_cons, ← ih]
    cases f x with
    | none => simp
    | some y => cases xs.mapM f <;> simp

/-- A computation with known results. -/
theorem mapM_of_forall {g : A → B} (h : ∀ x ∈ xs, f x = some (g x)) :
    xs.mapM f = some (xs.map g) := by
  induction xs with
  | nil => rfl
  | cons x xs ih =>
    obtain ⟨hx, hxs⟩ := List.forall_mem_cons.mp h
    rw [List.mapM_cons, hx, ih hxs]
    rfl

/-- Where each element has a result, none is passed over. -/
theorem filterMap_of_mapM (h : xs.mapM f = some ys) : xs.filterMap f = ys := by
  have hall := forall₂_of_mapM h
  clear h
  induction hall with
  | nil => rfl
  | cons hy _ ih => rw [List.filterMap_cons_some hy, ih]

end Option

section Except

variable {A B E : Type} {f : A → Except E B} {xs : List A} {ys : List B}

/-- The results of a computation for each element that does not raise. -/
theorem mapM_eq_ok : xs.mapM f = .ok ys ↔ List.Forall₂ (fun x y => f x = .ok y) xs ys := by
  induction xs generalizing ys with
  | nil => simp [pure, Except.pure, eq_comm]
  | cons x xs ih =>
    rw [List.mapM_cons]
    constructor
    · intro h
      cases hx : f x with
      | error e =>
        rw [hx] at h
        cases h
      | ok y =>
        cases hxs : xs.mapM f with
        | error e =>
          rw [hx, hxs] at h
          cases h
        | ok more =>
          rw [hx, hxs] at h
          obtain rfl := Except.ok.inj h
          exact .cons hx (ih.mp hxs)
    · rintro (_ | ⟨hy, hmore⟩)
      rw [hy, ih.mpr hmore]
      rfl

/-- A computation for each element returns exactly when it does for each of them. -/
theorem exists_mapM_eq_ok : (∃ ys, xs.mapM f = .ok ys) ↔ ∀ x ∈ xs, ∃ y, f x = .ok y := by
  constructor
  · rintro ⟨ys, hys⟩
    have hall := mapM_eq_ok.mp hys
    clear hys
    induction hall with
    | nil => exact fun x hx => absurd hx List.not_mem_nil
    | cons hy _ ih => exact List.forall_mem_cons.mpr ⟨⟨_, hy⟩, ih⟩
  · intro h
    induction xs with
    | nil => exact ⟨[], rfl⟩
    | cons x xs ih =>
      obtain ⟨⟨y, hy⟩, hxs⟩ := List.forall_mem_cons.mp h
      obtain ⟨ys, hys⟩ := ih hxs
      exact ⟨y :: ys, mapM_eq_ok.mpr (.cons hy (mapM_eq_ok.mp hys))⟩

/-- Each result is that of an element. -/
theorem exists_of_mem_mapM_ok (h : xs.mapM f = .ok ys) {y : B} (hy : y ∈ ys) :
    ∃ x ∈ xs, f x = .ok y := by
  have hall := mapM_eq_ok.mp h
  clear h
  induction hall with
  | nil => exact absurd hy List.not_mem_nil
  | cons hx _ ih =>
    rcases List.mem_cons.mp hy with rfl | hy
    · exact ⟨_, List.mem_cons_self, hx⟩
    · obtain ⟨x, hxs, hx⟩ := ih hy
      exact ⟨x, List.mem_cons_of_mem _ hxs, hx⟩

/-- Each element has a result. -/
theorem exists_mem_of_mapM_ok (h : xs.mapM f = .ok ys) {x : A} (hx : x ∈ xs) :
    ∃ y ∈ ys, f x = .ok y := by
  have hall := mapM_eq_ok.mp h
  clear h
  induction hall with
  | nil => exact absurd hx List.not_mem_nil
  | cons hy _ ih =>
    rcases List.mem_cons.mp hx with rfl | hx
    · exact ⟨_, List.mem_cons_self, hy⟩
    · obtain ⟨y, hys, hy⟩ := ih hx
      exact ⟨y, List.mem_cons_of_mem _ hys, hy⟩

end Except

section Related

variable {A B C : Type} {R : A → B → Prop} {S : B → C → Prop} {T : A → C → Prop} {xs : List A}
  {ys : List B} {zs : List C}

theorem exists_of_forall₂ (h : List.Forall₂ R xs ys) {x : A} (hx : x ∈ xs) : ∃ y ∈ ys, R x y := by
  induction h with
  | nil => exact absurd hx List.not_mem_nil
  | @cons a b _ _ hab _ ih =>
    rcases List.mem_cons.mp hx with rfl | hx
    · exact ⟨b, List.mem_cons_self, hab⟩
    · obtain ⟨y, hy, hxy⟩ := ih hx
      exact ⟨y, List.mem_cons_of_mem _ hy, hxy⟩

theorem exists_of_forall₂_right (h : List.Forall₂ R xs ys) {y : B} (hy : y ∈ ys) :
    ∃ x ∈ xs, R x y :=
  exists_of_forall₂ h.flip hy

/-- For each element something that it is related to. -/
theorem exists_forall₂ (h : ∀ x ∈ xs, ∃ y, R x y) : ∃ ys, List.Forall₂ R xs ys := by
  induction xs with
  | nil => exact ⟨[], .nil⟩
  | cons x xs ih =>
    obtain ⟨⟨y, hy⟩, hxs⟩ := List.forall_mem_cons.mp h
    obtain ⟨ys, hys⟩ := ih hxs
    exact ⟨y :: ys, .cons hy hys⟩

/-- One step more for each element. -/
theorem exists_forall₂_step (h : List.Forall₂ R xs ys)
    (hstep : ∀ x ∈ xs, ∀ y, R x y → ∃ z, S y z ∧ T x z) :
    ∃ zs, List.Forall₂ S ys zs ∧ List.Forall₂ T xs zs := by
  induction h with
  | nil => exact ⟨[], .nil, .nil⟩
  | @cons x y xs ys hxy _ ih =>
    obtain ⟨hx, hxs⟩ := List.forall_mem_cons.mp hstep
    obtain ⟨z, hyz, hxz⟩ := hx y hxy
    obtain ⟨zs, hyszs, hxszs⟩ := ih hxs
    exact ⟨z :: zs, .cons hyz hyszs, .cons hxz hxszs⟩

theorem forall₂_trans (h : List.Forall₂ R xs ys) (h' : List.Forall₂ S ys zs) :
    List.Forall₂ (fun x z => ∃ y, R x y ∧ S y z) xs zs := by
  induction h generalizing zs with
  | nil =>
    obtain rfl := List.forall₂_nil_left_iff.mp h'
    exact .nil
  | @cons x y xs ys hxy _ ih =>
    obtain ⟨z, more, hz, hmore, rfl⟩ := List.forall₂_cons_left_iff.mp h'
    exact .cons ⟨y, hxy, hz⟩ (ih hmore)

/-- What is apart on one side is apart on the other. -/
theorem pairwise_of_forall₂ {P : A → A → Prop} {Q : B → B → Prop} (h : List.Forall₂ R xs ys)
    (hxs : xs.Pairwise P) (hPQ : ∀ x y x' y', R x y → R x' y' → P x x' → Q y y') :
    ys.Pairwise Q := by
  induction h with
  | nil => exact List.Pairwise.nil
  | @cons x y xs ys hxy hrest ih =>
    obtain ⟨hhead, htail⟩ := List.pairwise_cons.mp hxs
    refine List.pairwise_cons.mpr ⟨fun y' hy' => ?_, ih htail⟩
    obtain ⟨x', hx', hxy'⟩ := exists_of_forall₂_right hrest hy'
    exact hPQ x y x' y' hxy hxy' (hhead x' hx')

end Related

end ControlPlane
