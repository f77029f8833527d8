import Toolchain.Number.Decimal
import Toolchain.Text.Hex

namespace Toolchain.Double

def readWord? (cs : List Char) : Option Double :=
  let word := fun (ds : List Char) => String.ofList (ds.map Char.toLower)
  let (negative, body) := Decimal.readSign cs
  if word cs = "nan" then some .nan
  else if word body = "inf" || word body = "infinity" then some (.infinite negative)
  else none

def ofScaled (negative : Bool) (n : Nat) (exponent : Int) : Double :=
  if n = 0 then .finite negative 0
  else if 2000 < exponent then .infinite negative
  else if exponent + (n.log2 : Int) < -1200 then .finite negative 0
  else if 0 ≤ exponent then ofRatio negative (n * twoTo exponent.toNat) 1
  else ofRatio negative n (twoTo (-exponent).toNat)

def isHexDigit (c : Char) : Bool := (Text.hexValue? c).isSome

def readBinaryExponent? : List Char → Option Int
  | c :: cs =>
      let (negative, ds) := Decimal.readSign cs
      if c.toLower != 'p' || ds.isEmpty || !ds.all Decimal.isDigit then none
      else some (signed negative (Decimal.digitsValue ds))
  | [] => none

def readHex? (negative : Bool) (cs : List Char) : Option Double :=
  let whole := cs.takeWhile isHexDigit
  let rest := cs.dropWhile isHexDigit
  let (part, tail) :=
    match rest with
    | '.' :: r => (r.takeWhile isHexDigit, r.dropWhile isHexDigit)
    | r => ([], r)
  if whole.isEmpty && part.isEmpty then none
  else do
    let e ← readBinaryExponent? tail
    let n ← Text.readDigits? 16 (whole ++ part)
    return ofScaled negative n (e - 4 * (part.length : Int))

def readNumber? (cs : List Char) : Option Double :=
  let bare := fun (ds : List Char) => ds.filter (· != '_')
  let (negative, body) := Decimal.readSign cs
  match body with
  | '0' :: 'x' :: ds | '0' :: 'X' :: ds =>
      if Decimal.separated isHexDigit true ds then readHex? negative (bare ds) else none
  | _ =>
      if Decimal.separated Decimal.isDigit false cs then
        (Decimal.read? (bare cs)).map Decimal.toDouble
      else none

def read? (s : String) : Option Double := (readWord? s.toList).or (readNumber? s.toList)

end Toolchain.Double
