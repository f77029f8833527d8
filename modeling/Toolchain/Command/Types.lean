import Toolchain.Command.World
import Toolchain.Text.Quoted
import Toolchain.Ty.Encoding
import Toolchain.Ty.Kind
import Toolchain.Ty.Parser
import Toolchain.Ty.Render
import Toolchain.Ty.Subst

namespace Toolchain.World

def typeLine (t : Ty) : String :=
  t.render ++ " :: " ++ (t.kind.map Kind.render).getD "" ++
    (if t.freeVars.isEmpty then "" else " forall " ++ String.intercalate " " t.freeVars) ++
    " #" ++ String.ofList (Text.hex 8 t.hash.toNat) ++ "\n"

def types (exprs : List String) : Outcome :=
  let read := exprs.map Ty.parse
  let errors := read.filterMap fun r =>
    match r with
    | .error e => some (e.message ++ "\n")
    | .ok _ => none
  { code := if errors.isEmpty then 0 else 1
    out := String.join ((read.filterMap (·.toOption)).map typeLine)
    err := String.join errors }

end Toolchain.World
