import Toolchain.Ty.Basic

namespace Toolchain.Ty

mutual
def isSubtype (a b : Ty) : Bool :=
  match a, b with
  | a, .sum members => belowSome a members || decide (a = .sum members)
  | .product as, .product bs => allBelow as bs
  | .func ps r, .func qs s => allBelow qs ps && isSubtype r s
  | a, b => decide (b = .any) || decide (a = b)
termination_by sizeOf a + sizeOf b
def belowSome (a : Ty) (members : List Ty) : Bool :=
  match members with
  | [] => false
  | m :: ms => isSubtype a m || belowSome a ms
termination_by sizeOf a + sizeOf members
def allBelow (as bs : List Ty) : Bool :=
  match as, bs with
  | [], [] => true
  | a :: as, b :: bs => isSubtype a b && allBelow as bs
  | _, _ => false
termination_by sizeOf as + sizeOf bs
end

def isCompatible (a b : Ty) : Bool := isSubtype a b || isSubtype b a

end Toolchain.Ty
