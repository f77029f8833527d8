import Toolchain.Number.Double

namespace Toolchain

structure Decimal where
  negative : Bool
  digits : Nat
  exponent : Int
  deriving DecidableEq, Repr

namespace Decimal

def digitsValue (cs : List Char) : Nat :=
  cs.foldl (fun n c => 10 * n + (c.toNat - 48)) 0

def isDigit (c : Char) : Bool := '0' ≤ c && c ≤ '9'

def separated (isDigit : Char → Bool) : (before : Bool) → List Char → Bool
  | _, [] => true
  | before, '_' :: cs =>
      before && (cs.head?.map isDigit).getD false && separated isDigit false cs
  | _, c :: cs => separated isDigit (isDigit c) cs

def readSign : List Char → Bool × List Char
  | '-' :: cs => (true, cs)
  | '+' :: cs => (false, cs)
  | cs => (false, cs)

def readExponent : List Char → Option Int
  | [] => some 0
  | c :: cs =>
      if c = 'e' || c = 'E' then
        let (negative, ds) := readSign cs
        if ds.isEmpty || !ds.all isDigit then none
        else some (Double.signed negative (digitsValue ds))
      else none

def read? (cs : List Char) : Option Decimal :=
  let (negative, body) := readSign cs
  let whole := body.takeWhile isDigit
  let rest := body.dropWhile isDigit
  let (part, tail) :=
    match rest with
    | '.' :: r => (r.takeWhile isDigit, r.dropWhile isDigit)
    | r => ([], r)
  if whole.isEmpty && part.isEmpty then none
  else
    (readExponent tail).map fun e =>
      ⟨negative, digitsValue (whole ++ part), e - (part.length : Int)⟩

def toDouble (d : Decimal) : Double :=
  if d.digits = 0 then .finite d.negative 0
  else if 400 < d.exponent then .infinite d.negative
  else if d.exponent + (d.digits.log2 : Int) < -1100 then .finite d.negative 0
  else if 0 ≤ d.exponent then
    Double.ofRatio d.negative (d.digits * tenTo d.exponent.toNat) 1
  else Double.ofRatio d.negative d.digits (tenTo (-d.exponent).toNat)

end Decimal

end Toolchain
