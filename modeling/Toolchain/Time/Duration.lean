import Toolchain.Number.Decimal

namespace Toolchain

structure Duration where
  nanos : Int64
  deriving DecidableEq, Repr, Inhabited

abbrev Instant := Int

namespace Duration

def ofInt (n : Int) : Duration := ⟨Int64.ofInt n⟩

def toInt (d : Duration) : Int := d.nanos.toInt

def between (start stop : Instant) : Duration :=
  let d := stop - start
  if d < Int64.minValue.toInt then ⟨Int64.minValue⟩
  else if Int64.maxValue.toInt < d then ⟨Int64.maxValue⟩
  else ofInt d

def add (a b : Duration) : Duration := ⟨a.nanos + b.nanos⟩

def dropTrailingZeros (cs : List Char) : List Char :=
  (cs.reverse.dropWhile (· == '0')).reverse

def renderFraction (n places : Nat) : String :=
  let whole := n / tenTo places
  let digits := Nat.toDigits 10 (n % tenTo places)
  let part := dropTrailingZeros (List.replicate (places - digits.length) '0' ++ digits)
  if part.isEmpty then Nat.repr whole else Nat.repr whole ++ "." ++ String.ofList part

def renderMagnitude (n : Nat) : String :=
  if n = 0 then "0s"
  else if n < 1000 then Nat.repr n ++ "ns"
  else if n < 1000000 then renderFraction n 3 ++ "µs"
  else if n < 1000000000 then renderFraction n 6 ++ "ms"
  else
    let minutes := n / 60000000000
    let seconds := renderFraction (n % 60000000000) 9 ++ "s"
    if minutes = 0 then seconds
    else if minutes < 60 then Nat.repr minutes ++ "m" ++ seconds
    else Nat.repr (minutes / 60) ++ "h" ++ Nat.repr (minutes % 60) ++ "m" ++ seconds

def render (d : Duration) : String :=
  (if d.toInt < 0 then "-" else "") ++ renderMagnitude d.toInt.natAbs

def unitNanos? : List Char → Option Nat
  | ['n', 's'] => some 1
  | ['u', 's'] => some 1000
  | ['µ', 's'] => some 1000
  | ['μ', 's'] => some 1000
  | ['m', 's'] => some 1000000
  | ['s'] => some 1000000000
  | ['m'] => some 60000000000
  | ['h'] => some 3600000000000
  | _ => none

def readLimit : Nat := wordBound

/-- The value and scale of a fraction's digits; digits that would pass the limit are dropped. The
scale is a double, exact as long as it has up to 22 zeros. -/
def readFraction : List Char → (value : Nat) → (scale : Double) → Nat × Double
  | [], v, s => (v, s)
  | c :: cs, v, s =>
      let v' := 10 * v + (c.toNat - 48)
      if (readLimit - 1) / 10 < v || readLimit < v' then (v, s)
      else readFraction cs v' (s.mul (.ofNat 10))

def readTerm (cs : List Char) : Option (Nat × List Char) :=
  let whole := cs.takeWhile Decimal.isDigit
  let rest := cs.dropWhile Decimal.isDigit
  let (part, tail) :=
    match rest with
    | '.' :: r => (r.takeWhile Decimal.isDigit, r.dropWhile Decimal.isDigit)
    | r => ([], r)
  let isUnit := fun (c : Char) => c != '.' && !Decimal.isDigit c
  let name := tail.takeWhile isUnit
  let n := Decimal.digitsValue whole
  if (whole.isEmpty && part.isEmpty) || readLimit < n then none
  else
    match unitNanos? name with
    | none => none
    | some unit =>
        let (f, scale) := readFraction part 0 (.ofNat 1)
        let extra := (((Double.ofNat f).mul ((Double.ofNat unit).div scale)).truncate?.getD 0).toNat
        if readLimit < n * unit || readLimit < n * unit + extra then none
        else some (n * unit + extra, tail.dropWhile isUnit)

/-- A sum of two terms is kept in 64 bits without a sign, so twice the limit comes to nothing. -/
def addTerm (sum n : Nat) : Option Nat :=
  let s := (sum + n) % (2 * wordBound)
  if readLimit < s then none else some s

def readTerms : (fuel : Nat) → List Char → (sum : Nat) → Option Nat
  | _, [], sum => some sum
  | 0, _ :: _, _ => none
  | fuel + 1, cs, sum =>
      match readTerm cs with
      | none => none
      | some (n, rest) =>
          match addTerm sum n with
          | none => none
          | some s => readTerms fuel rest s

def read? (s : String) : Option Duration :=
  let (negative, body) := Decimal.readSign s.toList
  if body = ['0'] then some (ofInt 0)
  else if body.isEmpty then none
  else
    match readTerms body.length body 0 with
    | none => none
    | some n =>
        if negative then some (ofInt (-(n : Int)))
        else if readLimit ≤ n then none
        else some (ofInt n)

end Duration

end Toolchain
