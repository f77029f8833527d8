import Toolchain.Value.Basic

namespace Toolchain.Value

def untyped (arity : Nat) : Ty := .func (List.replicate arity .any) .any

mutual
def runtimeType? : Value → Option Ty
  | .absent => Option.none
  | .none | .ref _ => some .any
  | .int _ => some .int
  | .float _ => some .float
  | .bool _ => some .bool
  | .str _ => some .str
  | .type t => some (if t = .absent then .any else t)
  | .struct _ n _ | .enum _ n _ _ => some (.generic n [])
  | .tuple _ vs => (runtimeTypes? vs).map .tuple
  | .vec _ [] => some (.unary .vec .any)
  | .vec _ (v :: _) => (runtimeType? v).map (.unary .vec)
  | .set _ [] => some (.unary .set .any)
  | .set _ (v :: _) => (runtimeType? v).map (.unary .set)
  | .map _ [] => some (.binary .map .any .any)
  | .map _ ((k, v) :: _) => do return .binary .map (← runtimeType? k) (← runtimeType? v)
  | .func _ _ ps _ | .closure _ ps _ => some (untyped ps.length)
  | .builtin _ _ t => some (if t = .absent then untyped 0 else t)
  | .channel .. => some (.generic "Channel" [])
  | .task .. => some (.unary .task .any)
def runtimeTypes? : List Value → Option (List Ty)
  | [] => some []
  | v :: vs => do return (← runtimeType? v) :: (← runtimeTypes? vs)
end

end Toolchain.Value
