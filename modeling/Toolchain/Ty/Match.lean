import Toolchain.Ty.Subst

namespace Toolchain.Ty

mutual
def instantiate (s : Subst) : Ty → Ty → Bool × Subst
  | .var n, t =>
      match s.get? n with
      | some u => (decide (u = t), s)
      | none => (true, s.bind n t)
  | .absent, .absent => (true, s)
  | .con m, .con n => (decide (m = n), s)
  | .generic m as, .generic n bs =>
      if m = n ∧ as.length = bs.length then instantiateAll s as bs else (false, s)
  | .product as, .product bs =>
      if as.length = bs.length then instantiateAll s as bs else (false, s)
  | .sum as, .sum bs => if as.length = bs.length then instantiateAll s as bs else (false, s)
  | .tuple as, .tuple bs => if as.length = bs.length then instantiateAll s as bs else (false, s)
  | .func as r, .func bs u =>
      if as.length = bs.length then
        match instantiateAll s as bs with
        | (true, s') => instantiate s' r u
        | (false, s') => (false, s')
      else (false, s)
  | .unary c a, .unary d b => if c = d then instantiate s a b else (false, s)
  | .binary c a a', .binary d b b' =>
      if c = d then
        match instantiate s a b with
        | (true, s') => instantiate s' a' b'
        | (false, s') => (false, s')
      else (false, s)
  | _, _ => (false, s)
def instantiateAll (s : Subst) : List Ty → List Ty → Bool × Subst
  | a :: as, b :: bs =>
      match instantiate s a b with
      | (true, s') => instantiateAll s' as bs
      | (false, s') => (false, s')
  | _, _ => (true, s)
end

end Toolchain.Ty
