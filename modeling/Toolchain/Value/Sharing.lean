import Toolchain.Value.Basic

namespace Toolchain.Value

mutual
def stamps : Value → List Stamp
  | .struct s _ fs | .func s _ _ fs | .closure s _ fs => s :: stampsFields fs
  | .enum s _ _ xs | .tuple s xs | .vec s xs | .set s xs | .channel s _ xs => s :: stampsAll xs
  | .map s es => s :: stampsEntries es
  | .builtin s _ _ => [s]
  | .task s _ r _ => s :: stamps r
  | _ => []
def stampsAll : List Value → List Stamp
  | [] => []
  | v :: vs => stamps v ++ stampsAll vs
def stampsFields : List (String × Value) → List Stamp
  | [] => []
  | (_, v) :: fs => stamps v ++ stampsFields fs
def stampsEntries : List (Value × Value) → List Stamp
  | [] => []
  | (k, v) :: es => stamps k ++ stamps v ++ stampsEntries es
end

mutual
/-- A value below others: where it comes back to one of those `above`, or to itself, no parts are
kept. -/
def cut (above : List Stamp) : Value → Value
  | .struct s n fs => .struct s n (if s ∈ above then [] else cutFields (s :: above) fs)
  | .enum s n c xs => .enum s n c (if s ∈ above then [] else cutAll (s :: above) xs)
  | .tuple s xs => .tuple s (if s ∈ above then [] else cutAll (s :: above) xs)
  | .vec s xs => .vec s (if s ∈ above then [] else cutAll (s :: above) xs)
  | .set s xs => .set s (if s ∈ above then [] else cutAll (s :: above) xs)
  | .map s es => .map s (if s ∈ above then [] else cutEntries (s :: above) es)
  | .func s n ps fs => .func s n ps (if s ∈ above then [] else cutFields (s :: above) fs)
  | .closure s ps fs => .closure s ps (if s ∈ above then [] else cutFields (s :: above) fs)
  | .channel s c xs => .channel s c (if s ∈ above then [] else cutAll (s :: above) xs)
  | .task s i r e => .task s i (if s ∈ above then .absent else cut (s :: above) r) e
  | v => v
def cutAll (above : List Stamp) : List Value → List Value
  | [] => []
  | v :: vs => cut above v :: cutAll above vs
def cutFields (above : List Stamp) : List (String × Value) → List (String × Value)
  | [] => []
  | (n, v) :: fs => (n, cut above v) :: cutFields above fs
def cutEntries (above : List Stamp) : List (Value × Value) → List (Value × Value)
  | [] => []
  | (k, v) :: es => (cut above k, cut above v) :: cutEntries above es
end

structure Change where
  value : Value
  inner : List Stamp

namespace Change

def of (v : Value) : Change := ⟨v, v.stamps⟩

def below (c : Change) (above : List Stamp) : Value :=
  if above.any (c.inner.contains ·) then c.value.cut above else c.value

def isOf (c : Change) (s : Stamp) : Bool := c.value.stamp? = some s

mutual
def applyBelow (c : Change) (above : List Stamp) : Value → Value
  | .struct s n fs =>
      if c.isOf s then c.below above else .struct s n (applyFields c (s :: above) fs)
  | .enum s n v xs =>
      if c.isOf s then c.below above else .enum s n v (applyAll c (s :: above) xs)
  | .tuple s xs => if c.isOf s then c.below above else .tuple s (applyAll c (s :: above) xs)
  | .vec s xs => if c.isOf s then c.below above else .vec s (applyAll c (s :: above) xs)
  | .set s xs => if c.isOf s then c.below above else .set s (applyAll c (s :: above) xs)
  | .map s es => if c.isOf s then c.below above else .map s (applyEntries c (s :: above) es)
  | .func s n ps fs =>
      if c.isOf s then c.below above else .func s n ps (applyFields c (s :: above) fs)
  | .closure s ps fs =>
      if c.isOf s then c.below above else .closure s ps (applyFields c (s :: above) fs)
  | .channel s n xs =>
      if c.isOf s then c.below above else .channel s n (applyAll c (s :: above) xs)
  | .task s i r e =>
      if c.isOf s then c.below above else .task s i (applyBelow c (s :: above) r) e
  | v => v
def applyAll (c : Change) (above : List Stamp) : List Value → List Value
  | [] => []
  | v :: vs => applyBelow c above v :: applyAll c above vs
def applyFields (c : Change) (above : List Stamp) : List (String × Value) → List (String × Value)
  | [] => []
  | (n, v) :: fs => (n, applyBelow c above v) :: applyFields c above fs
def applyEntries (c : Change) (above : List Stamp) : List (Value × Value) → List (Value × Value)
  | [] => []
  | (k, v) :: es => (applyBelow c above k, applyBelow c above v) :: applyEntries c above es
end

/-- Every part with the identity of the changed value becomes that value: a change in place shows
wherever the value is held. -/
def apply (c : Change) (v : Value) : Value := c.applyBelow [] v

end Change

def asPartOf (v c : Value) : Value := (Change.of v).below c.stamp?.toList

end Toolchain.Value
