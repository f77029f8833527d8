import Std.Data.ExtTreeSet
import Std.Data.TreeMap
import Toolchain.Number.Basic
import Toolchain.Time.Clock
import Toolchain.Value.Sharing
import Toolchain.Value.Weight

namespace Toolchain

inductive Generation where
  | young
  | old
  deriving DecidableEq, Repr

def Generation.name : Generation → String
  | .young => "young"
  | .old => "old"

/-- A heap cell. `scanned` and `size` are what the value held when it was last looked at; `linked`
are edges added by hand; `dirty` asks for a new look at the next collection. -/
structure Object where
  value : Value
  generation : Generation
  size : Nat
  scanned : List ObjectId
  linked : List ObjectId
  dirty : Bool

namespace Object

def ofValue (v : Value) : Object := ⟨v, .young, v.size, v.references, [], false⟩

def edges (o : Object) : List ObjectId := o.scanned ++ o.linked

def rescan (o : Object) : Object :=
  { o with size := o.value.size, scanned := o.value.references, dirty := false }

def current (o : Object) : Object := if o.dirty then o.rescan else o

end Object

structure Tuning where
  low : Double
  high : Double
  grow : Double
  shrink : Double
  deriving DecidableEq, Repr

structure Policy where
  threshold : Int64
  interval : Duration
  tuning : Tuning
  deriving DecidableEq, Repr

def Policy.default : Policy where
  threshold := 1000
  interval := .ofInt 100000000
  tuning := ⟨.ofRatio false 1 10, .ofRatio false 1 2, .ofRatio false 3 2, .ofRatio false 4 5⟩

structure HeapStats where
  collections : Nat
  reclaimed : Nat
  freed : Nat
  time : Duration
  lastTime : Duration
  deriving DecidableEq, Repr

structure Cycle where
  number : Nat
  collected : Nat
  freed : Nat
  promoted : Nat
  live : Nat
  before : Int64
  after : Int64
  deriving DecidableEq, Repr

def Cycle.message (c : Cycle) : String :=
  "gc #" ++ Nat.repr c.number ++ ": collected " ++ Nat.repr c.collected ++ " objects (" ++
    Nat.repr c.freed ++ " bytes), promoted " ++ Nat.repr c.promoted ++ ", live " ++
    Nat.repr c.live ++ ", threshold " ++ Int.repr c.before.toInt ++ " -> " ++
    Int.repr c.after.toInt

abbrev Objects := Std.TreeMap ObjectId Object

/-- An order in which a set of roots is gone through. -/
structure Enumeration where
  order : Std.ExtTreeSet ObjectId → List ObjectId
  mem_order : ∀ (roots : Std.ExtTreeSet ObjectId) (id : ObjectId), id ∈ order roots ↔ id ∈ roots

def Enumeration.ascending : Enumeration where
  order := fun roots => roots.toList
  mem_order := fun _ _ => Std.ExtTreeSet.mem_toList

/-- A heap of two generations. The generations list ids in the order of allocation; `objects` holds
the cells. -/
structure Heap where
  young : Array ObjectId
  old : Array ObjectId
  objects : Objects
  roots : Std.ExtTreeSet ObjectId
  nextId : ObjectId
  stats : HeapStats
  threshold : Int64
  interval : Duration
  tuning : Tuning
  lastCollection : Instant
  clock : Clock
  journal : Array Cycle

namespace Heap

def empty (p : Policy) (c : Clock) : Heap :=
  let (now, c) := c.read
  { young := #[], old := #[], objects := {}, roots := {}, nextId := 0,
    stats := ⟨0, 0, 0, .ofInt 0, .ofInt 0⟩, threshold := p.threshold, interval := p.interval,
    tuning := p.tuning, lastCollection := now, clock := c, journal := #[] }

def count (h : Heap) : Nat := h.young.size + h.old.size

def ids (h : Heap) : List ObjectId := h.old.toList ++ h.young.toList

def sizeAt (h : Heap) (id : ObjectId) : Nat := (h.objects[id]?.map (·.size)).getD 0

def memory (h : Heap) : Nat := total (h.ids.map h.sizeAt)

def get? (h : Heap) (id : ObjectId) : Option Value := h.objects[id]?.map (·.value)

def generation? (h : Heap) (id : ObjectId) : Option Generation := h.objects[id]?.map (·.generation)

def modify (h : Heap) (id : ObjectId) (f : Object → Object) : Option Heap :=
  h.objects[id]?.map fun o => { h with objects := h.objects.insert id (f o) }

def touch? (h : Heap) (id : ObjectId) : Option Heap := h.modify id fun o => { o with dirty := true }

def set? (h : Heap) (id : ObjectId) (v : Value) : Option Heap :=
  h.modify id fun o => { o with value := v, dirty := true }

def link? (h : Heap) (source target : ObjectId) : Option Heap :=
  h.modify source fun o => { o with linked := o.linked ++ [target] }

/-- A value changed in place, of which the heap is not told: it shows in every object that holds
it. -/
def refresh (h : Heap) (c : Value.Change) : Heap :=
  { h with objects := h.objects.map fun _ o => { o with value := c.apply o.value } }

def isRoot (h : Heap) (id : ObjectId) : Bool := h.roots.contains id

def addRoot (h : Heap) (id : ObjectId) : Heap := { h with roots := h.roots.insert id }

def removeRoot (h : Heap) (id : ObjectId) : Heap := { h with roots := h.roots.erase id }

def advance (h : Heap) (d : Int) : Heap := { h with clock := h.clock.advance d }

end Heap

end Toolchain
