import Mathlib.Data.List.Induction
import Mathlib.Data.List.Nodup
import Toolchain.Proofs.Ty.Assignment

namespace Toolchain

section occurrences

variable {α β : Type} [BEq α] [LawfulBEq α] {x : α} {xs xs' ys ys' : List α}

theorem eraseDups_concat_of_mem (h : x ∈ xs) : (xs ++ [x]).eraseDups = xs.eraseDups := by
  rw [List.eraseDups_append, List.removeAll]
  simp [h]

theorem eraseDups_concat_of_not_mem (h : x ∉ xs) :
    (xs ++ [x]).eraseDups = xs.eraseDups ++ [x] := by
  rw [List.eraseDups_append, List.removeAll]
  simp [h, List.eraseDups_cons]

theorem nodup_eraseDups (xs : List α) : xs.eraseDups.Nodup := by
  induction xs using List.reverseRecOn with
  | nil => exact List.nodup_nil
  | append_singleton xs x ih =>
      by_cases hx : x ∈ xs
      · rwa [eraseDups_concat_of_mem hx]
      · rw [eraseDups_concat_of_not_mem hx, List.nodup_append_comm]
        exact List.nodup_cons.mpr ⟨mt List.mem_eraseDups.mp hx, ih⟩

theorem eraseDups_eraseDups (xs : List α) : xs.eraseDups.eraseDups = xs.eraseDups := by
  induction xs using List.reverseRecOn with
  | nil => rfl
  | append_singleton xs x ih =>
      by_cases hx : x ∈ xs
      · rwa [eraseDups_concat_of_mem hx]
      · have hx' : x ∉ xs.eraseDups := mt List.mem_eraseDups.mp hx
        rw [eraseDups_concat_of_not_mem hx, eraseDups_concat_of_not_mem hx', ih]

theorem eraseDups_filter (p : α → Bool) (xs : List α) :
    (xs.filter p).eraseDups = xs.eraseDups.filter p := by
  induction xs using List.reverseRecOn with
  | nil => rfl
  | append_singleton xs x ih =>
      rw [List.filter_append]
      cases hp : p x with
      | false =>
          rw [List.filter_cons_of_neg (by simp [hp]), List.filter_nil, List.append_nil, ih]
          by_cases hx : x ∈ xs
          · rw [eraseDups_concat_of_mem hx]
          · simp [eraseDups_concat_of_not_mem hx, hp]
      | true =>
          rw [List.filter_cons_of_pos hp, List.filter_nil]
          by_cases hx : x ∈ xs
          · have hx' : x ∈ xs.filter p := List.mem_filter.mpr ⟨hx, hp⟩
            rw [eraseDups_concat_of_mem hx, eraseDups_concat_of_mem hx', ih]
          · have hx' : x ∉ xs.filter p := fun h => hx (List.mem_filter.mp h).1
            simp [eraseDups_concat_of_not_mem hx, eraseDups_concat_of_not_mem hx', ih, hp]

theorem eraseDups_append_eq (xs ys : List α) :
    (xs ++ ys).eraseDups = xs.eraseDups ++ ys.eraseDups.filter fun y => !xs.eraseDups.elem y := by
  have helem (y : α) : xs.eraseDups.elem y = xs.elem y := by simp
  simp only [List.eraseDups_append, List.removeAll, eraseDups_filter, helem]

theorem eraseDups_append_congr (hx : xs.eraseDups = xs'.eraseDups)
    (hy : ys.eraseDups = ys'.eraseDups) : (xs ++ ys).eraseDups = (xs' ++ ys').eraseDups := by
  rw [eraseDups_append_eq, eraseDups_append_eq, hx, hy]

theorem eraseDups_append_of_subset (h : ys ⊆ xs) : (xs ++ ys).eraseDups = xs.eraseDups := by
  have hnone : ys.removeAll xs = [] := by
    rw [List.removeAll, List.filter_eq_nil_iff]
    intro y hy
    simpa using h hy
  rw [List.eraseDups_append, hnone, List.eraseDups_nil, List.append_nil]

theorem eraseDups_flatMap_congr {zs : List β} {f g : β → List α}
    (h : ∀ z ∈ zs, (f z).eraseDups = (g z).eraseDups) :
    (zs.flatMap f).eraseDups = (zs.flatMap g).eraseDups := by
  induction zs with
  | nil => rfl
  | cons z zs ih =>
      obtain ⟨hz, hzs⟩ := List.forall_mem_cons.mp h
      rw [List.flatMap_cons, List.flatMap_cons]
      exact eraseDups_append_congr hz (ih hzs)

theorem eraseDups_flatMap_eraseDups [BEq β] [LawfulBEq β] (zs : List β) (f : β → List α) :
    (zs.eraseDups.flatMap f).eraseDups = (zs.flatMap f).eraseDups := by
  induction zs using List.reverseRecOn with
  | nil => rfl
  | append_singleton zs z ih =>
      rw [List.flatMap_append, List.flatMap_singleton]
      by_cases hz : z ∈ zs
      · -- what `z` stands for has been listed where `z` was met first
        have hsub : f z ⊆ zs.flatMap f := fun x hx => List.mem_flatMap.mpr ⟨z, hz, hx⟩
        rw [eraseDups_concat_of_mem hz, ih, eraseDups_append_of_subset hsub]
      · rw [eraseDups_concat_of_not_mem hz, List.flatMap_append, List.flatMap_singleton]
        exact eraseDups_append_congr ih rfl

end occurrences

namespace Ty

variable {t : Ty}

theorem children_induction {motive : Ty → Prop} (var : ∀ v, motive (.var v))
    (node : ∀ t, (∀ v, t ≠ .var v) → (∀ c ∈ t.children, motive c) → motive t) (t : Ty) :
    motive t := by
  induction t with
  | var v => exact var v
  | absent => exact node _ (by simp) (by simp [children])
  | con n => exact node _ (by simp) (by simp [children])
  | generic n ts ih => exact node _ (by simp) ih
  | product ts ih => exact node _ (by simp) ih
  | sum ts ih => exact node _ (by simp) ih
  | tuple ts ih => exact node _ (by simp) ih
  | func ps r ih ihr =>
      refine node _ (by simp) fun c hc => ?_
      rcases List.mem_append.mp hc with hc | hc
      · exact ih c hc
      · exact List.mem_singleton.mp hc ▸ ihr
  | unary c t ih => exact node _ (by simp) (List.forall_mem_singleton.mpr ih)
  | binary c t u iht ihu =>
      exact node _ (by simp) (List.forall_mem_cons.mpr ⟨iht, List.forall_mem_singleton.mpr ihu⟩)

theorem vars_eq_flatMap_children (h : ∀ v, t ≠ .var v) : t.vars = t.children.flatMap vars := by
  cases t with
  | var v => exact absurd rfl (h v)
  | _ => simp [vars, children, varsAll_eq_flatMap]

theorem children_apply (s : Subst) (h : ∀ v, t ≠ .var v) :
    (t.apply s).children = t.children.map (apply s) := by
  cases t with
  | var v => exact absurd rfl (h v)
  | _ => simp [apply, children, applyAll_eq_map]

theorem apply_ne_var (s : Subst) (h : ∀ v, t ≠ .var v) : ∀ v, t.apply s ≠ .var v := by
  cases t with
  | var v => exact absurd rfl (h v)
  | _ => simp [apply]

theorem vars_apply (t : Ty) (s : Subst) :
    (t.apply s).vars = t.vars.flatMap fun v => (s.image v).vars := by
  induction t using children_induction with
  | var v => simp [apply, vars, Subst.image]
  | node t h ih =>
      calc (t.apply s).vars
          = (t.apply s).children.flatMap vars := vars_eq_flatMap_children (apply_ne_var s h)
        _ = t.children.flatMap fun c => (c.apply s).vars := by
            rw [children_apply s h, List.flatMap_map]
        _ = t.children.flatMap fun c => c.vars.flatMap fun v => (s.image v).vars :=
            List.flatMap_congr ih
        _ = t.vars.flatMap fun v => (s.image v).vars := by
            rw [vars_eq_flatMap_children h, List.flatMap_assoc]

theorem freeVars_eq_children (h : ∀ v, t ≠ .var v) :
    t.freeVars = (t.children.flatMap freeVars).eraseDups := by
  rw [freeVars, vars_eq_flatMap_children h]
  exact eraseDups_flatMap_congr fun c _ => (eraseDups_eraseDups c.vars).symm

theorem freeVars_image (s : Subst) (v : String) :
    (s.image v).freeVars = (s.get? v).elim [v] freeVars := by
  rw [Subst.image]
  cases s.get? v <;> rfl

theorem freeVars_apply (t : Ty) (s : Subst) : (t.apply s).freeVars =
    (t.freeVars.flatMap fun v => (s.image v).freeVars).eraseDups := by
  calc (t.apply s).freeVars
      = (t.vars.flatMap fun v => (s.image v).vars).eraseDups := by rw [freeVars, vars_apply]
    _ = (t.freeVars.flatMap fun v => (s.image v).vars).eraseDups :=
        (eraseDups_flatMap_eraseDups t.vars _).symm
    _ = (t.freeVars.flatMap fun v => (s.image v).freeVars).eraseDups :=
        eraseDups_flatMap_congr fun v _ => (eraseDups_eraseDups _).symm

theorem freeVars_of_instance (t : Ty) (s : Subst) :
    (t.apply s).freeVars =
      (t.freeVars.flatMap fun v => (s.get? v).elim [v] freeVars).eraseDups ∧
    t.freeVars.Nodup ∧
    (∀ v, t = .var v → t.freeVars = [v]) ∧
    ((∀ v, t ≠ .var v) → t.freeVars = (t.children.flatMap freeVars).eraseDups) := by
  refine ⟨?_, nodup_eraseDups t.vars, ?_, freeVars_eq_children⟩
  · simp only [freeVars_apply, freeVars_image]
  · rintro v rfl
    rfl

end Ty

end Toolchain
