import Toolchain.Proofs.Ty.MinimalBinding
import Toolchain.Proofs.Ty.Subtyping

namespace Toolchain

namespace Subst

def andThen (s s' : Subst) : Subst := s.map (fun p => (p.1, p.2.apply s')) ++ s'

theorem get?_map_apply (s s' : Subst) (v : String) :
    get? (s.map fun p => (p.1, p.2.apply s')) v = (s.get? v).map (Ty.apply s') := by
  simp only [get?]
  induction s with
  | nil => rfl
  | cons p s ih =>
      rw [List.map_cons, List.lookup_cons, List.lookup_cons, ih]
      cases v == p.1 <;> rfl

theorem get?_andThen (s s' : Subst) (v : String) :
    (s.andThen s').get? v = ((s.get? v).map (Ty.apply s')).or (s'.get? v) := by
  rw [← get?_map_apply, get?, andThen, List.lookup_append]
  rfl

theorem image_andThen (s s' : Subst) (v : String) :
    (s.andThen s').image v = (s.image v).apply s' := by
  rw [image, get?_andThen, image]
  cases s.get? v <;> rfl

end Subst

namespace Ty

variable {a b : Ty} {as bs : List Ty}

theorem apply_andThen (t : Ty) (s s' : Subst) : (t.apply s).apply s' = t.apply (s.andThen s') := by
  rw [apply_eq_under, apply_eq_under, apply_eq_under, under_under]
  congr 1
  funext v
  rw [Subst.image_andThen, apply_eq_under]

theorem apply_congr_iff {t : Ty} {s s' : Subst} :
    t.apply s = t.apply s' ↔ ∀ v ∈ t.freeVars, s.image v = s'.image v := by
  simp only [apply_eq_under, under_congr_iff, mem_freeVars]

theorem substitutions_compose (t : Ty) (s₁ s₂ : Subst) :
    (∀ v u, s₁.get? v = some u → (s₁.andThen s₂).get? v = some (u.apply s₂)) ∧
    (∀ v, s₁.get? v = none → (s₁.andThen s₂).get? v = s₂.get? v) ∧
    (t.apply s₁).apply s₂ = t.apply (s₁.andThen s₂) ∧
    ∀ s s' : Subst, t.apply s = t.apply s' ↔ ∀ v ∈ t.freeVars, s.image v = s'.image v := by
  refine ⟨fun v u hu => ?_, fun v hv => ?_, apply_andThen t s₁ s₂, fun s s' => apply_congr_iff⟩
  · rw [Subst.get?_andThen, hu]
    rfl
  · rw [Subst.get?_andThen, hv]
    rfl

theorem below_of_mem_zip_map {f : Ty → Ty}
    (h : ∀ a b, (a, b) ∈ as.zip bs → Below (f a) (f b)) :
    ∀ a b, (a, b) ∈ (as.map f).zip (bs.map f) → Below a b := by
  intro a b hab
  rw [List.zip_map] at hab
  obtain ⟨⟨a', b'⟩, hmem, heq⟩ := List.mem_map.mp hab
  obtain ⟨rfl, rfl⟩ := Prod.mk.inj heq
  exact h a' b' hmem

-- By the rules and not by the search: no rule asks what a variable is, so each applies again
-- whatever has been put for the variables, while the search may take another branch.
theorem Below.apply (s : Subst) (h : Below a b) : Below (a.apply s) (b.apply s) := by
  induction h with
  | refl => exact .refl
  | trans _ _ ihab ihbc => exact .trans ihab ihbc
  | any => exact .any
  | member hm _ ih =>
      rw [Ty.apply, applyAll_eq_map]
      exact .member (List.mem_map_of_mem hm) ih
  | product hl _ ih =>
      rw [Ty.apply, Ty.apply, applyAll_eq_map, applyAll_eq_map]
      exact .product (by simpa using hl) (below_of_mem_zip_map ih)
  | func hl _ _ ihp ihr =>
      rw [Ty.apply, Ty.apply, applyAll_eq_map, applyAll_eq_map]
      exact .func (by simpa using hl) (below_of_mem_zip_map ihp) ihr

theorem isSubtype_apply (s : Subst) (h : isSubtype a b = true) :
    isSubtype (a.apply s) (b.apply s) = true :=
  isSubtype_of_below ((below_of_isSubtype _ a b (Nat.lt_succ_self _) h).apply s)

theorem apply_nil (t : Ty) : t.apply [] = t := by
  rw [apply_eq_under]
  exact under_var t

theorem isSubtype_iff_instances (a b : Ty) :
    isSubtype a b = true ↔ ∀ s : Subst, isSubtype (a.apply s) (b.apply s) = true := by
  constructor
  · exact fun h s => isSubtype_apply s h
  · intro h
    have hnil := h []
    rwa [apply_nil, apply_nil] at hnil

end Ty

end Toolchain
