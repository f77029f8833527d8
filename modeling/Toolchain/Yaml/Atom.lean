import Toolchain.Number.Basic
import Toolchain.Number.Decimal
import Toolchain.Text.Hex

namespace Toolchain.Yaml

inductive Atom where
  | null
  | bool (value : Bool)
  | int (value : Int)
  | float (value : Double)
  | text (value : String)
  deriving DecidableEq, Repr

namespace Atom

def words : List (String × Atom) :=
  [("", .null), ("~", .null), ("null", .null), ("Null", .null), ("NULL", .null),
   ("true", .bool true), ("True", .bool true), ("TRUE", .bool true),
   ("false", .bool false), ("False", .bool false), ("FALSE", .bool false),
   (".nan", .float .nan), (".NaN", .float .nan), (".NAN", .float .nan),
   (".inf", .float (.infinite false)), (".Inf", .float (.infinite false)),
   (".INF", .float (.infinite false)), ("+.inf", .float (.infinite false)),
   ("+.Inf", .float (.infinite false)), ("+.INF", .float (.infinite false)),
   ("-.inf", .float (.infinite true)), ("-.Inf", .float (.infinite true)),
   ("-.INF", .float (.infinite true))]

def magnitude? (base : Nat) (ds : List Char) : Option Nat :=
  if ds.isEmpty then none else Text.readDigits? base ds

def unsigned? : List Char → Option Nat
  | ['0'] => some 0
  | '0' :: c :: d :: ds =>
      match c.toLower with
      | 'x' => magnitude? 16 (d :: ds)
      | 'o' => magnitude? 8 (d :: ds)
      | 'b' => magnitude? 2 (d :: ds)
      | _ => magnitude? 8 (c :: d :: ds)
  | '0' :: ds => magnitude? 8 ds
  | ds => magnitude? 10 ds

def fits (sign : Option Char) (n : Nat) : Option Int :=
  if sign = some '-' then (if n ≤ wordBound then some (-(n : Int)) else none)
  else if n < (if sign = some '+' then wordBound else 2 * wordBound) then some n
  else none

def splitSign : List Char → Option Char × List Char
  | c :: cs => if c = '+' || c = '-' then (some c, cs) else (none, c :: cs)
  | [] => (none, [])

def lateSign? : List Char → Option Int
  | '0' :: 'b' :: ds => signed 2 (splitSign ds)
  | '0' :: 'o' :: ds => signed 8 (splitSign ds)
  | '-' :: '0' :: 'b' :: ds => signed 2 (some '-', ds)
  | '-' :: '0' :: 'o' :: ds => signed 8 (some '-', ds)
  | _ => none
where
  signed (base : Nat) (parts : Option Char × List Char) : Option Int :=
    (magnitude? base parts.2).bind (fits parts.1)

def int? (cs : List Char) : Option Int :=
  let (sign, body) := splitSign cs
  ((unsigned? body).bind (fits sign)).or (lateSign? cs)

def float? (cs : List Char) : Option Double :=
  match (Decimal.read? cs).map Decimal.toDouble with
  | some (.finite s m) => some (.finite s m)
  | _ => none

def number? (cs : List Char) : Option Atom :=
  let bare := cs.filter (· != '_')
  match cs with
  | '.' :: _ =>
      if Decimal.separated Decimal.isDigit false cs then (float? bare).map .float else none
  | c :: _ =>
      if Decimal.isDigit c || c = '+' || c = '-' then
        ((int? bare).map .int).or ((float? bare).map .float)
      else none
  | [] => none

def ofText (s : String) : Atom :=
  match words.lookup s with
  | some a => a
  | none => (number? s.toList).getD (.text s)

end Atom

end Toolchain.Yaml
