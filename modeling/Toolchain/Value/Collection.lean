import Toolchain.Value.Equality

namespace Toolchain.Value

namespace Elements

def add (xs : List Value) (v : Value) : List Value :=
  if elementIn v xs then xs else xs ++ [v]

def ofList (vs : List Value) : List Value := vs.foldl add []

end Elements

namespace Entries

def get? (es : List (Value × Value)) (k : Value) : Option Value :=
  (es.find? fun e => equal e.1 k).map (·.2)

def put : List (Value × Value) → Value → Value → List (Value × Value)
  | [], k, v => [(k, v)]
  | (l, w) :: es, k, v => if equal l k then (l, v) :: es else (l, w) :: put es k v

def ofList (kvs : List (Value × Value)) : List (Value × Value) :=
  kvs.foldl (fun es kv => put es kv.1 kv.2) []

end Entries

namespace Fields

def put : List (String × Value) → String → Value → List (String × Value)
  | [], n, v => [(n, v)]
  | (m, w) :: fs, n, v =>
      if n = m then (n, v) :: fs
      else if n < m then (n, v) :: (m, w) :: fs
      else (m, w) :: put fs n v

def ofList (nvs : List (String × Value)) : List (String × Value) :=
  nvs.foldl (fun fs nv => put fs nv.1 nv.2) []

end Fields

def push? (c : Value) (vs : List Value) : Option Value :=
  match c with
  | .vec s xs => some (.vec s (xs ++ vs))
  | _ => Option.none

def add? (c v : Value) : Option (Bool × Value) :=
  match c with
  | .set s xs => some (!elementIn v xs, .set s (Elements.add xs v))
  | _ => Option.none

def has? (c v : Value) : Option Bool :=
  match c with
  | .set _ xs => some (elementIn v xs)
  | _ => Option.none

def entries? : Value → Option (List (Value × Value))
  | .map _ es => some es
  | _ => Option.none

def put? (c k v : Value) : Option Value :=
  match c with
  | .map s es => some (.map s (Entries.put es k v))
  | _ => Option.none

def fields? : Value → Option (List (String × Value))
  | .struct _ _ fs => some fs
  | _ => Option.none

def setField? (c : Value) (name : String) (v : Value) : Option Value :=
  match c with
  | .struct s n fs => some (.struct s n (Fields.put fs name v))
  | _ => Option.none

def channelBound : Nat := twoTo 44

def channel? (stamp : Stamp) (capacity : Int) (buffer : List Value) : Option Value :=
  if capacity < 0 || channelBound ≤ capacity then Option.none
  else some (.channel stamp capacity.toNat buffer)

def send? (c v : Value) : Option Value :=
  match c with
  | .channel s n vs => some (.channel s n (vs ++ [v]))
  | _ => Option.none

def receive? : Value → Option (Value × Value)
  | .channel s c (v :: vs) => some (v, .channel s c vs)
  | _ => Option.none

def wait? : Value → Option (Value × Option String)
  | .task _ _ r e => some (r, e)
  | _ => Option.none

end Toolchain.Value
