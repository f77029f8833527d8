import Toolchain.Number.Double

namespace Toolchain

def Double.toWord (x : Double) : Int64 :=
  match x.truncate? with
  | some n =>
      if Int64.minValue.toInt ≤ n ∧ n ≤ Int64.maxValue.toInt then .ofInt n else Int64.minValue
  | none => Int64.minValue

end Toolchain
