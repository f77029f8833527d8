import Toolchain.Number.Double
import Toolchain.Ty.Basic

namespace Toolchain

abbrev ObjectId := Nat

abbrev Stamp := Nat

/-- A run-time value; `absent` stands where a value is missing. Fields and captured variables are
kept in the order of their names. -/
inductive Value where
  | absent
  | none
  | int (n : Int)
  | float (x : Double)
  | bool (b : Bool)
  | str (s : String)
  | ref (id : ObjectId)
  | type (t : Ty)
  | struct (stamp : Stamp) (name : String) (fields : List (String × Value))
  | enum (stamp : Stamp) (name variant : String) (payload : List Value)
  | tuple (stamp : Stamp) (elements : List Value)
  | vec (stamp : Stamp) (elements : List Value)
  | set (stamp : Stamp) (elements : List Value)
  | map (stamp : Stamp) (entries : List (Value × Value))
  | func (stamp : Stamp) (name : String) (params : List String) (captured : List (String × Value))
  | closure (stamp : Stamp) (params : List String) (captured : List (String × Value))
  | builtin (stamp : Stamp) (name : String) (signature : Ty)
  | channel (stamp : Stamp) (capacity : Nat) (buffer : List Value)
  | task (stamp : Stamp) (id : Nat) (result : Value) (error : Option String)
  deriving Inhabited

namespace Value

@[induction_eliminator]
theorem ind {motive : Value → Prop}
    (absent : motive .absent)
    (none : motive .none)
    (int : ∀ n, motive (.int n))
    (float : ∀ x, motive (.float x))
    (bool : ∀ b, motive (.bool b))
    (str : ∀ s, motive (.str s))
    (ref : ∀ id, motive (.ref id))
    (type : ∀ t, motive (.type t))
    (struct : ∀ stamp name fields, (∀ f ∈ fields, motive f.2) → motive (.struct stamp name fields))
    (enum : ∀ stamp name variant payload, (∀ v ∈ payload, motive v) →
      motive (.enum stamp name variant payload))
    (tuple : ∀ stamp elements, (∀ v ∈ elements, motive v) → motive (.tuple stamp elements))
    (vec : ∀ stamp elements, (∀ v ∈ elements, motive v) → motive (.vec stamp elements))
    (set : ∀ stamp elements, (∀ v ∈ elements, motive v) → motive (.set stamp elements))
    (map : ∀ stamp entries, (∀ e ∈ entries, motive e.1 ∧ motive e.2) → motive (.map stamp entries))
    (func : ∀ stamp name params captured, (∀ f ∈ captured, motive f.2) →
      motive (.func stamp name params captured))
    (closure : ∀ stamp params captured, (∀ f ∈ captured, motive f.2) →
      motive (.closure stamp params captured))
    (builtin : ∀ stamp name signature, motive (.builtin stamp name signature))
    (channel : ∀ stamp capacity buffer, (∀ v ∈ buffer, motive v) →
      motive (.channel stamp capacity buffer))
    (task : ∀ stamp id result error, motive result → motive (.task stamp id result error)) :
    ∀ v, motive v :=
  @Value.rec motive (fun fs => ∀ f ∈ fs, motive f.2) (fun vs => ∀ v ∈ vs, motive v)
    (fun es => ∀ e ∈ es, motive e.1 ∧ motive e.2) (fun f => motive f.2)
    (fun e => motive e.1 ∧ motive e.2)
    absent none int float bool str ref type struct enum tuple vec set map func closure builtin
    channel task
    (fun _ h => nomatch h) (fun _ _ hd tl => List.forall_mem_cons.2 ⟨hd, tl⟩)
    (fun _ h => nomatch h) (fun _ _ hd tl => List.forall_mem_cons.2 ⟨hd, tl⟩)
    (fun _ h => nomatch h) (fun _ _ hd tl => List.forall_mem_cons.2 ⟨hd, tl⟩)
    (fun _ _ h => h) (fun _ _ h h' => ⟨h, h'⟩)

def kindName : Value → Option String
  | .absent => Option.none
  | .none => some "NONE"
  | .int _ => some "INTEGER"
  | .float _ => some "FLOAT"
  | .bool _ => some "BOOLEAN"
  | .str _ => some "STRING"
  | .ref _ => some "REFERENCE"
  | .type _ => some "TYPE"
  | .struct .. => some "STRUCT"
  | .enum .. => some "ENUM"
  | .tuple .. => some "TUPLE"
  | .vec .. => some "VEC"
  | .set .. => some "SET"
  | .map .. => some "MAP"
  | .func .. => some "FUNCTION"
  | .closure .. => some "CLOSURE"
  | .builtin .. => some "BUILTIN"
  | .channel .. => some "CHANNEL"
  | .task .. => some "TASK"

def isTruthy : Value → Bool
  | .absent | .none => false
  | .bool b => b
  | .int n => n != 0
  | .float x => !x.isZero
  | .str s => s != ""
  | .vec _ vs | .set _ vs => !vs.isEmpty
  | .map _ es => !es.isEmpty
  | _ => true

def stamp? : Value → Option Stamp
  | .struct s .. | .enum s .. | .tuple s _ | .vec s _ | .set s _ | .map s _ | .func s ..
  | .closure s .. | .builtin s .. | .channel s .. | .task s .. => some s
  | _ => Option.none

end Value

end Toolchain
