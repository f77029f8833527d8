import Toolchain.Ty.Basic

namespace Toolchain.Ty

mutual
def render : Ty → String
  | .absent => "<nil>"
  | .con n => n
  | .var n => n
  | .generic n [] => n
  | .generic n (t :: ts) => n ++ "<" ++ renderAll ", " (t :: ts) ++ ">"
  | .product ts => "(" ++ renderAll ", " ts ++ ")"
  | .sum ts => renderAll " | " ts
  | .tuple ts => tupleName ++ "(" ++ renderAll ", " ts ++ ")"
  | .func ps r => "(" ++ renderAll ", " ps ++ ") -> " ++ render r
  | .unary c t => c.name ++ "<" ++ render t ++ ">"
  | .binary c t u => c.name ++ "<" ++ render t ++ ", " ++ render u ++ ">"
def renderAll (sep : String) : List Ty → String
  | [] => ""
  | [t] => render t
  | t :: u :: ts => render t ++ sep ++ renderAll sep (u :: ts)
end

end Toolchain.Ty
