import Toolchain.Ty.Basic

namespace Toolchain

abbrev Subst := List (String × Ty)

namespace Subst

def get? (s : Subst) (name : String) : Option Ty := s.lookup name

def bind (s : Subst) (name : String) (t : Ty) : Subst := s ++ [(name, t)]

end Subst

namespace Ty

mutual
/-- Replaces every bound variable once; replacements are not substituted again. -/
def apply (s : Subst) : Ty → Ty
  | .absent => .absent
  | .con n => .con n
  | .var n => (s.get? n).getD (.var n)
  | .generic n ts => .generic n (applyAll s ts)
  | .product ts => .product (applyAll s ts)
  | .sum ts => .sum (applyAll s ts)
  | .tuple ts => .tuple (applyAll s ts)
  | .func ps r => .func (applyAll s ps) (apply s r)
  | .unary c t => .unary c (apply s t)
  | .binary c t u => .binary c (apply s t) (apply s u)
def applyAll (s : Subst) : List Ty → List Ty
  | [] => []
  | t :: ts => apply s t :: applyAll s ts
end

theorem applyAll_eq_map (s : Subst) (ts : List Ty) : applyAll s ts = ts.map (apply s) := by
  induction ts with
  | nil => rfl
  | cons t ts ih => simp [applyAll, ih]

mutual
def vars : Ty → List String
  | .absent | .con _ => []
  | .var n => [n]
  | .generic _ ts | .product ts | .sum ts | .tuple ts => varsAll ts
  | .func ps r => varsAll ps ++ vars r
  | .unary _ t => vars t
  | .binary _ t u => vars t ++ vars u
def varsAll : List Ty → List String
  | [] => []
  | t :: ts => vars t ++ varsAll ts
end

theorem varsAll_eq_flatMap (ts : List Ty) : varsAll ts = ts.flatMap vars := by
  induction ts with
  | nil => rfl
  | cons t ts ih => simp [varsAll, ih]

def freeVars (t : Ty) : List String := t.vars.eraseDups

theorem vars_eq_nil_of_freeVars {t : Ty} (h : t.freeVars = []) : t.vars = [] := by
  rw [List.eq_nil_iff_forall_not_mem]
  intro n hn
  have hmem : n ∈ t.freeVars := List.mem_eraseDups.mpr hn
  rw [h] at hmem
  exact absurd hmem (by simp)

end Ty

end Toolchain
