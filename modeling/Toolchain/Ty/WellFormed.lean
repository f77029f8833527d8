import Toolchain.Ty.Basic

namespace Toolchain.Ty

mutual
def firstMalformed : Ty → Option Ty
  | .absent => some .absent
  | .con n => if n ∈ primitives then none else some (.con n)
  | .var _ => none
  | .generic n ts => if n = "" then some (.generic n ts) else firstMalformedOf ts
  | .product ts | .sum ts | .tuple ts => firstMalformedOf ts
  | .func ps r => (firstMalformedOf ps).or (firstMalformed r)
  | .unary _ t => firstMalformed t
  | .binary _ t u => (firstMalformed t).or (firstMalformed u)
def firstMalformedOf : List Ty → Option Ty
  | [] => none
  | t :: ts => (firstMalformed t).or (firstMalformedOf ts)
end

theorem firstMalformedOf_eq_none_iff {ts : List Ty} :
    firstMalformedOf ts = none ↔ ∀ t ∈ ts, t.firstMalformed = none := by
  induction ts with
  | nil => simp [firstMalformedOf]
  | cons t ts ih => rw [firstMalformedOf, Option.or_eq_none_iff, ih, List.forall_mem_cons]

def isWellFormed (t : Ty) : Bool := t.firstMalformed.isNone

end Toolchain.Ty
