import Toolchain.Number.Shortest
import Toolchain.Text.Quoted
import Toolchain.Ty.Render
import Toolchain.Value.Basic

namespace Toolchain

def Ty.formName : Ty → String
  | .absent => "Type"
  | .con _ => "TCon"
  | .var _ => "TVar"
  | .generic _ _ => "TGeneric"
  | .product _ => "TProduct"
  | .sum _ => "TSum"
  | .tuple _ => "TTuple"
  | .func _ _ => "TFunc"
  | .unary c _ => "T" ++ c.name
  | .binary c _ _ => "T" ++ c.name

namespace Dump

def indent (depth : Nat) : String := String.join (List.replicate depth "  ")

def block (depth : Nat) (opening : String) (entries : List String) (closing : String) : String :=
  let lines := entries.map (indent (depth + 1) ++ ·)
  opening ++ "\n" ++ String.intercalate ",\n" lines ++ (if entries.isEmpty then "" else "\n") ++
    indent depth ++ closing

def record (depth : Nat) (name : String) (fields : List String) : String :=
  block depth ("(*evaluator." ++ name ++ ")(\x7b") fields "\x7d)"

def sized (type : String) (n : Nat) : String := "(" ++ type ++ ") (len=" ++ Nat.repr n ++ ") \x7b"

def sequence (depth : Nat) (type : String) (entries : List String) : String :=
  if entries.isEmpty then "(" ++ type ++ ") <nil>"
  else block depth (sized type entries.length) entries "\x7d"

def table (depth : Nat) (entries : List String) : String :=
  let type := "map[string]evaluator.Value"
  if entries.isEmpty then block depth ("(" ++ type ++ ") \x7b") [] "\x7d"
  else block depth (sized type entries.length) entries "\x7d"

def text (s : String) : String :=
  if s = "" then "(string) \"\""
  else "(string) (len=" ++ Nat.repr s.utf8ByteSize ++ ") " ++ Text.quote s

def texts (depth : Nat) (ss : List String) : String := sequence depth "[]string" (ss.map text)

end Dump

namespace Value

open Dump

def formName : Value → String
  | .absent => "Value"
  | .none => "None"
  | .int _ => "Integer"
  | .float _ => "Float"
  | .bool _ => "Boolean"
  | .str _ => "String"
  | .ref _ => "Reference"
  | .type _ => "TypeValue"
  | .struct .. => "Struct"
  | .enum .. => "Enum"
  | .tuple .. => "Tuple"
  | .vec .. => "Vec"
  | .set .. => "Set"
  | .map .. => "Map"
  | .func .. => "Function"
  | .closure .. => "Closure"
  | .builtin .. => "Builtin"
  | .channel .. => "Channel"
  | .task .. => "Task"

mutual
def dump (above : List Stamp) (depth : Nat) (v : Value) : String :=
  if v.stamp?.any (above.contains ·) then "(*evaluator." ++ v.formName ++ ")(<already shown>)"
  else
    match v with
    | .absent => "(evaluator.Value) <nil>"
    | v => record depth v.formName (dumpParts (v.stamp?.toList ++ above) (depth + 1) v)
termination_by (sizeOf v, 1)
def dumpParts (above : List Stamp) (depth : Nat) : Value → List String
  | .int n => ["Value: (int64) " ++ Int.repr n]
  | .float x => ["Value: (float64) " ++ x.render]
  | .bool b => ["Value: (bool) " ++ (if b then "true" else "false")]
  | .str s => ["Value: " ++ text s]
  | .ref id => ["ID: (evaluator.ObjectID) " ++ Nat.repr id]
  | .type t => ["T: (typesystem." ++ t.formName ++ ") " ++ t.render]
  | .struct _ n fs =>
      ["Name: " ++ text n, "Fields: " ++ table depth (dumpFields above (depth + 1) fs)]
  | .enum _ n c vs =>
      ["Name: " ++ text n, "Variant: " ++ text c,
        "Fields: " ++ sequence depth "[]evaluator.Value" (dumpAll above (depth + 1) vs)]
  | .tuple _ vs | .vec _ vs | .set _ vs =>
      ["Elements: " ++ sequence depth "[]evaluator.Value" (dumpAll above (depth + 1) vs)]
  | .map _ es =>
      ["Entries: " ++ sequence depth "[]evaluator.MapEntry" (dumpEntries above (depth + 1) es)]
  | .func _ n ps fs =>
      ["Name: " ++ text n, "Params: " ++ texts depth ps, "Body: (interface \x7b\x7d) <nil>",
        "Captured: " ++ table depth (dumpFields above (depth + 1) fs)]
  | .closure _ ps fs =>
      ["Params: " ++ texts depth ps, "Body: (interface \x7b\x7d) <nil>",
        "Captured: " ++ table depth (dumpFields above (depth + 1) fs)]
  | _ => []
termination_by v => (sizeOf v, 0)
def dumpAll (above : List Stamp) (depth : Nat) : List Value → List String
  | [] => []
  | v :: vs => dump above depth v :: dumpAll above depth vs
termination_by vs => (sizeOf vs, 0)
def dumpFields (above : List Stamp) (depth : Nat) : List (String × Value) → List String
  | [] => []
  | (n, v) :: fs => (text n ++ ": " ++ dump above depth v) :: dumpFields above depth fs
termination_by fs => (sizeOf fs, 0)
def dumpEntries (above : List Stamp) (depth : Nat) : List (Value × Value) → List String
  | [] => []
  | (k, v) :: es =>
      block depth "(evaluator.MapEntry) \x7b"
        ["Key: " ++ dump above (depth + 1) k, "Value: " ++ dump above (depth + 1) v] "\x7d" ::
        dumpEntries above depth es
termination_by es => (sizeOf es, 0)
end

def dumpWhole : Value → String
  | .absent => "(interface \x7b\x7d) <nil>"
  | v => dump [] 0 v

end Value

end Toolchain
