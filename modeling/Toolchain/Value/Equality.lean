import Toolchain.Value.Basic

namespace Toolchain.Value

mutual
/-- Structural equality. Callables, channels and tasks are equal only to themselves; a set equals
one of the same size that holds all its elements; a map equals one of the same size whose first
entry for each key holds an equal value. -/
def equal (a b : Value) : Bool :=
  match a, b with
  | .absent, .absent => true
  | .none, .none => true
  | .int m, .int n => m == n
  | .float x, .float y => x.equal y
  | .bool p, .bool q => p == q
  | .str s, .str t => s == t
  | .ref i, .ref j => i == j
  | .type t, .type u => decide (t = u)
  | .struct _ m fs, .struct _ n gs => m == n && fs.length == gs.length && fieldsIn fs gs
  | .enum _ m c xs, .enum _ n d ys => m == n && c == d && equalAll xs ys
  | .tuple _ xs, .tuple _ ys => equalAll xs ys
  | .vec _ xs, .vec _ ys => equalAll xs ys
  | .set _ xs, .set _ ys => xs.length == ys.length && elementsIn xs ys
  | .map _ es, .map _ gs => es.length == gs.length && entriesIn es gs
  | .func s .., .func t .. => s == t
  | .closure s .., .closure t .. => s == t
  | .builtin s .., .builtin t .. => s == t
  | .channel s .., .channel t .. => s == t
  | .task s .., .task t .. => s == t
  | _, _ => false
termination_by sizeOf a + sizeOf b
def equalAll (xs ys : List Value) : Bool :=
  match xs, ys with
  | [], [] => true
  | x :: xs, y :: ys => equal x y && equalAll xs ys
  | _, _ => false
termination_by sizeOf xs + sizeOf ys
def fieldsIn (fs gs : List (String × Value)) : Bool :=
  match fs with
  | [] => true
  | (n, v) :: fs => fieldIn n v gs && fieldsIn fs gs
termination_by sizeOf fs + sizeOf gs
def fieldIn (name : String) (v : Value) (gs : List (String × Value)) : Bool :=
  match gs with
  | [] => false
  | (n, w) :: gs => if name = n then equal v w else fieldIn name v gs
termination_by sizeOf v + sizeOf gs
def elementsIn (xs ys : List Value) : Bool :=
  match xs with
  | [] => true
  | x :: xs => elementIn x ys && elementsIn xs ys
termination_by sizeOf xs + sizeOf ys
def elementIn (x : Value) (ys : List Value) : Bool :=
  match ys with
  | [] => false
  | y :: ys => equal y x || elementIn x ys
termination_by sizeOf x + sizeOf ys
def entriesIn (es gs : List (Value × Value)) : Bool :=
  match es with
  | [] => true
  | (k, v) :: es => entryIn k v gs && entriesIn es gs
termination_by sizeOf es + sizeOf gs
def entryIn (k v : Value) (gs : List (Value × Value)) : Bool :=
  match gs with
  | [] => false
  | (l, w) :: gs => if equal l k then equal v w else entryIn k v gs
termination_by sizeOf k + sizeOf v + sizeOf gs
end

theorem elementIn_eq_any (x : Value) (ys : List Value) :
    elementIn x ys = ys.any fun y => equal y x := by
  induction ys with
  | nil => rw [elementIn]; rfl
  | cons y ys ih => rw [elementIn, ih]; rfl

theorem elementsIn_eq_all (xs ys : List Value) :
    elementsIn xs ys = xs.all fun x => elementIn x ys := by
  induction xs with
  | nil => rw [elementsIn]; rfl
  | cons x xs ih => rw [elementsIn, ih]; rfl

end Toolchain.Value
