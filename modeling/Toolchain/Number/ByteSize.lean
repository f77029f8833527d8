import Toolchain.Number.Basic
import Toolchain.Number.Double

namespace Toolchain.Number

def byteUnits : List String := ["B", "KiB", "MiB", "GiB", "TiB", "PiB", "EiB"]

/-- A size in the greatest unit that it reaches, a power of 1024: one decimal below ten units,
none from there on, a half going to the even neighbour. -/
def byteSize (n : Nat) : String :=
  if n < 10 then Nat.repr n ++ " B"
  else
    let e := n.log2 / 10
    let unit := twoTo (10 * e)
    let tenths := (20 * n + unit) / (2 * unit)
    let amount :=
      if tenths < 100 then Nat.repr (tenths / 10) ++ "." ++ Nat.repr (tenths % 10)
      else Nat.repr (Double.divNearest tenths 10)
    amount ++ " " ++ byteUnits.getD e ""

end Toolchain.Number
