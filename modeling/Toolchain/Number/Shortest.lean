import Toolchain.Number.Decimal

namespace Toolchain.Double

/-- The reals that round to a number of `units`, in quarter units, and whether the ends belong. -/
structure Interval where
  low : Nat
  high : Nat
  closed : Bool

def roundingInterval (units : Nat) : Interval :=
  let drop := units.log2 - 52
  let significand := units / twoTo drop
  let below := if significand = twoTo 52 ∧ 0 < drop then twoTo drop else 2 * twoTo drop
  ⟨4 * units - below, 4 * units + 2 * twoTo drop, significand % 2 = 0⟩

def Interval.has (i : Interval) (num den : Nat) : Bool :=
  if i.closed then i.low * den ≤ num && num ≤ i.high * den
  else i.low * den < num && num < i.high * den

def leadingExponent (num den : Nat) : Int :=
  if den ≤ num then ((Nat.toDigits 10 (num / den)).length : Int) - 1
  else
    let n := (Nat.toDigits 10 (den / num)).length
    if den ≤ tenTo (n - 1) * num then 1 - (n : Int) else -(n : Int)

/-- The multiple of `10 ^ g` next to `units` that rounds to it: the nearer one first, and of two
equally near ones the even one first. -/
def onGrid? (units : Nat) (g : Int) : Option Nat :=
  let i := roundingInterval units
  let up := tenTo g.toNat * twoTo (unitExponent + 2)
  let down := tenTo (-g).toNat
  let floor := 4 * units * down / up
  let candidates :=
    if divNearest (4 * units * down) up = floor then [floor, floor + 1] else [floor + 1, floor]
  candidates.find? fun c => c != 0 && i.has (c * up) down

def searchGrids (units : Nat) (top : Int) : (count : Nat) → (places : Nat) → Decimal
  | 0, _ => ⟨false, units, 0⟩
  | n + 1, places =>
      match onGrid? units (top - places) with
      | some c => ⟨false, c, top - places⟩
      | none => searchGrids units top n (places + 1)

def dropZeros : (fuel : Nat) → Decimal → Decimal
  | 0, d => d
  | n + 1, d =>
      if d.digits ≠ 0 ∧ d.digits % 10 = 0 then
        dropZeros n ⟨d.negative, d.digits / 10, d.exponent + 1⟩
      else d

def shortest (units : Nat) : Decimal :=
  let top := leadingExponent units (twoTo unitExponent)
  let d := searchGrids units top 18 0
  dropZeros d.digits.log2 d

def positional (leading : Int) : Bool := -4 ≤ leading && leading < 6

def renderExponent (e : Int) : String :=
  let n := e.natAbs
  (if e < 0 then "e-" else "e+") ++ (if n < 10 then "0" else "") ++ Nat.repr n

def renderDigits (ds : List Char) (leading : Int) : List Char :=
  if leading < 0 then '0' :: '.' :: List.replicate ((-leading).toNat - 1) '0' ++ ds
  else
    let n := leading.toNat + 1
    if ds.length ≤ n then ds ++ List.replicate (n - ds.length) '0'
    else ds.take n ++ '.' :: ds.drop n

def renderUnits (units : Nat) : String :=
  if units = 0 then "0"
  else
    let d := shortest units
    let ds := Nat.toDigits 10 d.digits
    let leading := d.exponent + (ds.length : Int) - 1
    if positional leading then String.ofList (renderDigits ds leading)
    else String.ofList (renderDigits ds 0) ++ renderExponent leading

def render : Double → String
  | .nan => "NaN"
  | .infinite true => "-Inf"
  | .infinite false => "+Inf"
  | .finite true m => "-" ++ renderUnits m
  | .finite false m => renderUnits m

end Toolchain.Double
