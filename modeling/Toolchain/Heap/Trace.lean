import Toolchain.Heap.Basic

namespace Toolchain.Heap

theorem size_erase_lt {objects : Objects} {id : ObjectId} {o : Object}
    (h : objects[id]? = some o) : (objects.erase id).size < objects.size := by
  have hm : objects.contains id = true := by
    rw [Std.TreeMap.contains_eq_isSome_getElem?, h]
    rfl
  have hs : objects.size ≠ 0 := by
    intro h0
    have he : objects.isEmpty = true := by simp [Std.TreeMap.isEmpty_eq_size_eq_zero, h0]
    rw [Std.TreeMap.isEmpty_iff_forall_contains] at he
    simp [he id] at hm
  rw [Std.TreeMap.size_erase, if_pos hm]
  omega

/-- Moves the objects that can be reached along edges from the ids on the stack out of `pending`
into `reached`; each is looked at again on the way if it is dirty. What is left pending cannot be
reached. -/
def trace (pending reached : Objects) (stack : List ObjectId) : Objects × Objects :=
  match stack with
  | [] => (pending, reached)
  | id :: rest =>
      match h : pending[id]? with
      | none => trace pending reached rest
      | some o =>
          have := size_erase_lt h
          trace (pending.erase id) (reached.insert id o.current) (o.current.edges ++ rest)
termination_by (pending.size, stack.length)

def reachable (objects : Objects) (start : List ObjectId) : Objects := (trace objects {} start).2

end Toolchain.Heap
