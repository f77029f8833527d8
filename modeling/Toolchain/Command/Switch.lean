import Toolchain.Text.Hex

namespace Toolchain.Switch

def isDigit (c : Char) : Bool := '0' ≤ c && c ≤ '9'

def limit : Nat := 2147483647

def number (cs : List Char) : Nat :=
  let digits : Nat × List Char :=
    match cs with
    | '0' :: x :: c :: cs =>
        if (x = 'x' || x = 'X') && (Text.hexValue? c).isSome then
          (16, (c :: cs).takeWhile fun d => (Text.hexValue? d).isSome)
        else (10, ('0' :: x :: c :: cs).takeWhile isDigit)
    | cs => (10, cs.takeWhile isDigit)
  match Text.readDigits? digits.1 digits.2 with
  | some n => if n ≤ limit then n else 0
  | none => 0

/-- Whether a text switches something on: a number whose lowest eight bits are not all zero, or one
of three words. -/
def isOn (s : String) : Bool :=
  match s.toList with
  | [] => false
  | c :: cs =>
      if isDigit c then number (c :: cs) % 256 ≠ 0
      else s.toLower ∈ ["on", "yes", "true"]

end Toolchain.Switch
