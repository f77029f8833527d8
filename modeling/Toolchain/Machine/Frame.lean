import Toolchain.Heap.Collect

namespace Toolchain

structure Frame where
  bindings : List (String × ObjectId)
  outer : Option Nat

namespace Frame

def empty (outer : Option Nat) : Frame := ⟨[], outer⟩

def get? (f : Frame) (name : String) : Option ObjectId := f.bindings.lookup name

def bind (f : Frame) (name : String) (id : ObjectId) : Frame :=
  { f with bindings := (name, id) :: f.bindings.filter (·.1 != name) }

end Frame

structure Machine where
  heap : Heap
  frames : Array Frame

namespace Machine

def ofHeap (h : Heap) : Machine := ⟨h, #[]⟩

def openFrame (m : Machine) (outer : Option Nat) : Nat × Machine :=
  (m.frames.size, { m with frames := m.frames.push (.empty outer) })

def bindIn? (e : Enumeration) (m : Machine) (f : Nat) (name : String) (v : Value) :
    Option (ObjectId × Machine) :=
  m.frames[f]?.map fun frame =>
    let (id, h) := m.heap.allocateIn e v
    let h := h.addRoot id
    let h := match frame.get? name with
      | some prev => h.removeRoot prev
      | none => h
    (id, { heap := h, frames := m.frames.setIfInBounds f (frame.bind name id) })

def bind? (m : Machine) (f : Nat) (name : String) (v : Value) : Option (ObjectId × Machine) :=
  m.bindIn? .ascending f name v

def openBoundIn (e : Enumeration) : Machine → Option Nat → String → Value → ObjectId × Machine
  | ⟨heap, frames⟩, outer, name, v =>
      let (id, heap) := heap.allocateIn e v
      (id, ⟨heap.addRoot id, frames.push ((Frame.empty outer).bind name id)⟩)

def resolve (m : Machine) (f : Nat) (name : String) : Option ObjectId :=
  match m.frames[f]? with
  | none => none
  | some frame =>
      match frame.get? name, frame.outer with
      | some id, _ => some id
      | none, none => none
      | none, some o => if o < f then resolve m o name else none
termination_by f

def lookup (m : Machine) (f : Nat) (name : String) : Option Value :=
  (m.resolve f name).bind m.heap.get?

def close : Machine → Nat → Machine
  | ⟨heap, frames⟩, f =>
      match frames[f]? with
      | some ⟨bindings, outer⟩ =>
          ⟨bindings.foldl (fun h b => h.removeRoot b.2) heap,
            frames.setIfInBounds f (.empty outer)⟩
      | none => ⟨heap, frames⟩

def close? (m : Machine) (f : Nat) : Option Machine :=
  if f < m.frames.size then some (m.close f) else none

end Machine

def danglingMessage (id : ObjectId) : String := "dangling reference #" ++ Nat.repr id

end Toolchain
