import Toolchain.Number.Shortest
import Toolchain.Ty.Render
import Toolchain.Value.Basic

namespace Toolchain.Value

mutual
def render? : Value → Option String
  | .absent => Option.none
  | .none => some "None"
  | .int n => some (Int.repr n)
  | .float x => some x.render
  | .bool b => some (if b then "true" else "false")
  | .str s => some s
  | .ref id => some ("&#" ++ Nat.repr id)
  | .type t => some ("type(" ++ t.render ++ ")")
  | .struct _ n fs => (renderFields? fs).map fun t => n ++ " \x7b " ++ t ++ " \x7d"
  | .enum _ n c [] => some (n ++ "::" ++ c)
  | .enum _ n c (v :: vs) =>
      (renderAll? (v :: vs)).map fun t => n ++ "::" ++ c ++ " (" ++ t ++ ")"
  | .tuple _ vs => (renderAll? vs).map fun t => "(" ++ t ++ ")"
  | .vec _ vs => (renderAll? vs).map fun t => "[" ++ t ++ "]"
  | .set _ vs => (renderAll? vs).map fun t => "\x7b" ++ t ++ "\x7d"
  | .map _ es => (renderEntries? es).map fun t => "\x7b" ++ t ++ "\x7d"
  | .func _ n ps _ => some ("fn " ++ n ++ "(" ++ String.intercalate ", " ps ++ ")")
  | .closure _ ps _ => some ("|" ++ String.intercalate ", " ps ++ "| <closure>")
  | .builtin _ n _ => some ("builtin " ++ n)
  | .channel _ c vs => some ("<channel " ++ Nat.repr vs.length ++ "/" ++ Nat.repr c ++ ">")
  | .task _ id _ _ => some ("<task " ++ Nat.repr id ++ ">")
def renderAll? : List Value → Option String
  | [] => some ""
  | [v] => render? v
  | v :: w :: vs => do return (← render? v) ++ ", " ++ (← renderAll? (w :: vs))
def renderFields? : List (String × Value) → Option String
  | [] => some ""
  | [(n, v)] => do return n ++ ": " ++ (← render? v)
  | (n, v) :: f :: fs => do return n ++ ": " ++ (← render? v) ++ ", " ++ (← renderFields? (f :: fs))
def renderEntries? : List (Value × Value) → Option String
  | [] => some ""
  | [(k, v)] => do return (← render? k) ++ ": " ++ (← render? v)
  | (k, v) :: e :: es => do
      return (← render? k) ++ ": " ++ (← render? v) ++ ", " ++ (← renderEntries? (e :: es))
end

end Toolchain.Value
