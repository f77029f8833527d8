import Toolchain.Ty.Subst

namespace Toolchain

namespace Ty

variable {θ η : String → Ty} {t : Ty} {ts : List Ty} {n : String}

mutual
def under (θ : String → Ty) : Ty → Ty
  | .absent => .absent
  | .con n => .con n
  | .var n => θ n
  | .generic n ts => .generic n (underAll θ ts)
  | .product ts => .product (underAll θ ts)
  | .sum ts => .sum (underAll θ ts)
  | .tuple ts => .tuple (underAll θ ts)
  | .func ps r => .func (underAll θ ps) (under θ r)
  | .unary c t => .unary c (under θ t)
  | .binary c t u => .binary c (under θ t) (under θ u)
def underAll (θ : String → Ty) : List Ty → List Ty
  | [] => []
  | t :: ts => under θ t :: underAll θ ts
end

theorem underAll_eq_map (θ : String → Ty) (ts : List Ty) : underAll θ ts = ts.map (under θ) := by
  induction ts with
  | nil => rfl
  | cons t ts ih => rw [underAll, ih, List.map_cons]

theorem underAll_congr_iff
    (ih : ∀ t ∈ ts, t.under θ = t.under η ↔ ∀ n ∈ t.vars, θ n = η n) :
    underAll θ ts = underAll η ts ↔ ∀ n ∈ varsAll ts, θ n = η n := by
  induction ts with
  | nil => simp [underAll, varsAll]
  | cons t ts ihts =>
      obtain ⟨ht, hts⟩ := List.forall_mem_cons.mp ih
      simp only [underAll, varsAll, List.cons.injEq, List.forall_mem_append, ht, ihts hts]

theorem under_congr_iff : t.under θ = t.under η ↔ ∀ n ∈ t.vars, θ n = η n := by
  induction t with
  | absent => simp [under, vars]
  | con n => simp [under, vars]
  | var n => simp [under, vars]
  | generic n ts ih => simp [under, vars, underAll_congr_iff ih]
  | product ts ih => simp [under, vars, underAll_congr_iff ih]
  | sum ts ih => simp [under, vars, underAll_congr_iff ih]
  | tuple ts ih => simp [under, vars, underAll_congr_iff ih]
  | func ps r ih ihr =>
      simp only [under, vars, func.injEq, List.forall_mem_append, underAll_congr_iff ih, ihr]
  | unary c t ih => simp [under, vars, ih]
  | binary c t u iht ihu => simp only [under, vars, binary.injEq, List.forall_mem_append, iht, ihu,
      true_and]

structure Homomorphic (F : Ty → Ty) : Prop where
  absent : F .absent = .absent
  con : ∀ n, F (.con n) = .con n
  generic : ∀ n ts, F (.generic n ts) = .generic n (ts.map F)
  product : ∀ ts, F (.product ts) = .product (ts.map F)
  sum : ∀ ts, F (.sum ts) = .sum (ts.map F)
  tuple : ∀ ts, F (.tuple ts) = .tuple (ts.map F)
  func : ∀ ps r, F (.func ps r) = .func (ps.map F) (F r)
  unary : ∀ c t, F (.unary c t) = .unary c (F t)
  binary : ∀ c t u, F (.binary c t u) = .binary c (F t) (F u)

theorem Homomorphic.eq_under {F : Ty → Ty} (h : Homomorphic F) (t : Ty) :
    F t = t.under fun n => F (.var n) := by
  have all {ts : List Ty} (ih : ∀ t ∈ ts, F t = t.under fun n => F (.var n)) :
      ts.map F = underAll (fun n => F (.var n)) ts := by
    rw [underAll_eq_map]
    exact List.map_congr_left ih
  induction t with
  | absent => exact h.absent
  | con n => exact h.con n
  | var n => rfl
  | generic n ts ih => rw [h.generic, under, all ih]
  | product ts ih => rw [h.product, under, all ih]
  | sum ts ih => rw [h.sum, under, all ih]
  | tuple ts ih => rw [h.tuple, under, all ih]
  | func ps r ih ihr => rw [h.func, under, all ih, ihr]
  | unary c t ih => rw [h.unary, under, ih]
  | binary c t u iht ihu => rw [h.binary, under, iht, ihu]

theorem under_under (θ η : String → Ty) (t : Ty) :
    (t.under θ).under η = t.under fun n => (θ n).under η := by
  have h : Homomorphic fun t => (t.under θ).under η := by
    constructor <;> simp [under, underAll_eq_map]
  exact h.eq_under t

theorem under_var (t : Ty) : t.under .var = t := by
  have h : Homomorphic fun t => t := by constructor <;> simp
  exact (h.eq_under t).symm

theorem under_of_vars_eq_nil (h : t.vars = []) : t.under θ = t := by
  have hcongr : t.under θ = t.under .var := under_congr_iff.mpr (by simp [h])
  rw [hcongr, under_var]

end Ty

def Subst.image (s : Subst) (n : String) : Ty := (s.get? n).getD (.var n)

theorem Ty.apply_eq_under (s : Subst) (t : Ty) : t.apply s = t.under s.image := by
  have h : Homomorphic (apply s) := by constructor <;> simp [apply, applyAll_eq_map]
  exact h.eq_under t

end Toolchain
