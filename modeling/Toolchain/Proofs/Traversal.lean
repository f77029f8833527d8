import Mathlib.Data.List.Forall2

namespace Toolchain

variable {α β ε : Type} {f : α → Except ε β} {xs : List α} {ys : List β}

theorem isOk_iff {x : Except ε α} : x.isOk = true ↔ ∃ a, x = .ok a := by
  cases x <;> simp [Except.isOk, Except.toBool]

theorem mapM_eq_ok_iff : xs.mapM f = .ok ys ↔ List.Forall₂ (fun x y => f x = .ok y) xs ys := by
  induction xs generalizing ys with
  | nil => cases ys <;> simp [pure, Except.pure]
  | cons x xs ih =>
      rw [List.mapM_cons, List.forall₂_cons_left_iff]
      cases hx : f x with
      | error e => simp [bind, Except.bind]
      | ok y =>
          simp only [← ih, Except.ok.injEq]
          cases xs.mapM f <;> simp [bind, Except.bind, pure, Except.pure, eq_comm]

theorem mapM_congr {g : α → Except ε β} (h : ∀ x ∈ xs, f x = g x) : xs.mapM f = xs.mapM g := by
  induction xs with
  | nil => rfl
  | cons x xs ih =>
      obtain ⟨hx, hxs⟩ := List.forall_mem_cons.mp h
      rw [List.mapM_cons, List.mapM_cons, hx, ih hxs]

theorem exists_forall₂_iff {R : α → β → Prop} :
    (∃ ys, List.Forall₂ R xs ys) ↔ ∀ x ∈ xs, ∃ y, R x y := by
  constructor
  · rintro ⟨ys, h⟩
    induction h with
    | nil => simp
    | cons hx _ ih => exact List.forall_mem_cons.mpr ⟨⟨_, hx⟩, ih⟩
  · intro h
    induction xs with
    | nil => exact ⟨[], .nil⟩
    | cons x xs ih =>
        obtain ⟨⟨y, hy⟩, hxs⟩ := List.forall_mem_cons.mp h
        obtain ⟨ys, hys⟩ := ih hxs
        exact ⟨y :: ys, .cons hy hys⟩

theorem exists_mapM_eq_ok_iff : (∃ ys, xs.mapM f = .ok ys) ↔ ∀ x ∈ xs, ∃ y, f x = .ok y := by
  simp only [mapM_eq_ok_iff, exists_forall₂_iff]

theorem eq_map_of_mapM {g : α → β} (hg : ∀ x y, f x = .ok y → y = g x) (h : xs.mapM f = .ok ys) :
    ys = xs.map g := by
  rw [mapM_eq_ok_iff] at h
  induction h with
  | nil => rfl
  | cons hx _ ih => rw [List.map_cons, hg _ _ hx, ih]

theorem forall_mem_of_mapM {P : β → Prop} (hP : ∀ x y, f x = .ok y → P y)
    (h : xs.mapM f = .ok ys) : ∀ y ∈ ys, P y := by
  rw [mapM_eq_ok_iff] at h
  induction h with
  | nil => simp
  | cons hx _ ih => exact List.forall_mem_cons.mpr ⟨hP _ _ hx, ih⟩

def failure? : Except ε α → Option ε
  | .error e => some e
  | .ok _ => none

theorem failure?_mapM (f : α → Except ε β) (xs : List α) :
    failure? (xs.mapM f) = xs.findSome? fun x => failure? (f x) := by
  induction xs with
  | nil => rfl
  | cons x xs ih =>
      rw [List.mapM_cons, List.findSome?_cons, ← ih]
      cases f x with
      | error e => rfl
      | ok y => cases xs.mapM f <;> rfl

theorem findSome?_flatMap (f : α → List β) (g : β → Option ε) (xs : List α) :
    (xs.flatMap f).findSome? g = xs.findSome? fun x => (f x).findSome? g := by
  induction xs with
  | nil => rfl
  | cons x xs ih =>
      rw [List.flatMap_cons, List.findSome?_append, List.findSome?_cons, ih]
      cases (f x).findSome? g <;> rfl

end Toolchain
