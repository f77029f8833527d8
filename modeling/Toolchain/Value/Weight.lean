import Toolchain.Value.Basic

namespace Toolchain.Value

mutual
def size : Value → Nat
  | .absent | .none => 0
  | .int _ | .float _ | .ref _ | .type _ => 8
  | .bool _ => 1
  | .str s => s.utf8ByteSize + 8
  | .struct _ _ fs => sizeFields fs + 8
  | .enum _ _ _ vs | .tuple _ vs | .vec _ vs | .set _ vs => sizeAll vs + 8
  | .map _ es => sizeEntries es + 8
  | .func .. | .closure .. | .builtin .. | .channel .. | .task .. => 16
def sizeAll : List Value → Nat
  | [] => 0
  | v :: vs => size v + sizeAll vs
def sizeFields : List (String × Value) → Nat
  | [] => 0
  | (_, v) :: fs => size v + sizeFields fs
def sizeEntries : List (Value × Value) → Nat
  | [] => 0
  | (k, v) :: es => size k + size v + sizeEntries es
end

mutual
/-- The object ids of the references in a value, from left to right. Buffers of channels and
results of tasks are not looked into. -/
def references : Value → List ObjectId
  | .ref id => [id]
  | .struct _ _ fs | .func _ _ _ fs | .closure _ _ fs => referencesFields fs
  | .enum _ _ _ vs | .tuple _ vs | .vec _ vs | .set _ vs => referencesAll vs
  | .map _ es => referencesEntries es
  | _ => []
def referencesAll : List Value → List ObjectId
  | [] => []
  | v :: vs => references v ++ referencesAll vs
def referencesFields : List (String × Value) → List ObjectId
  | [] => []
  | (_, v) :: fs => references v ++ referencesFields fs
def referencesEntries : List (Value × Value) → List ObjectId
  | [] => []
  | (k, v) :: es => references k ++ references v ++ referencesEntries es
end

end Toolchain.Value
