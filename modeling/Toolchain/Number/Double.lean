import Toolchain.Number.Basic

namespace Toolchain

/-- A double-precision number. A finite one is a sign and a whole number of units, a unit being
`2 ^ -1074`, the least positive magnitude. -/
inductive Double where
  | nan
  | infinite (negative : Bool)
  | finite (negative : Bool) (units : Nat)
  deriving DecidableEq, Repr, Inhabited

namespace Double

def signed (negative : Bool) (units : Nat) : Int :=
  if negative then -(units : Int) else units

def equal : Double → Double → Bool
  | .infinite s, .infinite t => decide (s = t)
  | .finite s m, .finite t n => decide (signed s m = signed t n)
  | _, _ => false

def le : Double → Double → Bool
  | .nan, _ => false
  | _, .nan => false
  | .infinite true, _ => true
  | _, .infinite false => true
  | .infinite false, _ => false
  | _, .infinite true => false
  | .finite s m, .finite t n => decide (signed s m ≤ signed t n)

def lt (a b : Double) : Bool := le a b && !le b a

def isNaN : Double → Bool
  | .nan => true
  | _ => false

def isZero : Double → Bool
  | .finite _ 0 => true
  | _ => false

theorem equal_self (a : Double) : equal a a = !a.isNaN := by
  cases a <;> simp [equal, isNaN]

theorem equal_comm (a b : Double) : equal a b = equal b a := by
  cases a <;> cases b <;> simp [equal, eq_comm]

theorem equal_trans {a b c : Double} (hab : equal a b = true) (hbc : equal b c = true) :
    equal a c = true := by
  cases a <;> cases b <;> cases c <;> simp_all [equal]

def zero : Double := .finite false 0

def unitExponent : Nat := 1074

def divNearest (num den : Nat) : Nat :=
  let q := num / den
  let r := num % den
  if 2 * r < den then q
  else if den < 2 * r then q + 1
  else if q % 2 = 0 then q
  else q + 1

def ofRatio (negative : Bool) (num den : Nat) : Double :=
  if num = 0 then .finite negative 0
  else
    let scaled := num * twoTo unitExponent
    let coarse := (scaled / den).log2
    let drop := coarse - 52
    let units := divNearest scaled (den * twoTo drop) * twoTo drop
    if twoTo (1024 + unitExponent) ≤ units then .infinite negative else .finite negative units

def ofInt (n : Int) : Double := ofRatio (n < 0) n.natAbs 1

def ofNat (n : Nat) : Double := ofRatio false n 1

def ofCounts (num den : Nat) : Double :=
  if den = 0 then (if num = 0 then .nan else .infinite false) else ofRatio false num den

def mul : Double → Double → Double
  | .nan, _ => .nan
  | _, .nan => .nan
  | .infinite s, .infinite t => .infinite (s != t)
  | .infinite s, .finite t n => if n = 0 then .nan else .infinite (s != t)
  | .finite s m, .infinite t => if m = 0 then .nan else .infinite (s != t)
  | .finite s m, .finite t n => ofRatio (s != t) (m * n) (twoTo (2 * unitExponent))

def div : Double → Double → Double
  | .nan, _ => .nan
  | _, .nan => .nan
  | .infinite _, .infinite _ => .nan
  | .infinite s, .finite t _ => .infinite (s != t)
  | .finite s _, .infinite t => .finite (s != t) 0
  | .finite s m, .finite t n =>
      if n = 0 then (if m = 0 then .nan else .infinite (s != t)) else ofRatio (s != t) m n

def truncate? : Double → Option Int
  | .finite s m => some (signed s (m / twoTo unitExponent))
  | _ => none

end Double

end Toolchain
