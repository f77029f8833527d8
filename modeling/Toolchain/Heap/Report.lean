import Toolchain.Heap.Basic
import Toolchain.Number.ByteSize
import Toolchain.Number.Grouped
import Toolchain.Value.Dump

namespace Toolchain

open Number

def HeapStats.render (s : HeapStats) : String :=
  grouped s.collections ++ " collections, " ++ grouped s.reclaimed ++ " objects reclaimed, " ++
    byteSize s.freed ++ " freed in " ++ s.time.render

namespace Heap

def occupancy (h : Heap) : String :=
  grouped h.count ++ " live (" ++ grouped h.young.size ++ " young, " ++ grouped h.old.size ++
    " old), " ++ byteSize h.memory ++ " in use"

def summary (h : Heap) : String := h.stats.render ++ ", " ++ h.occupancy

def renderIds (ids : List ObjectId) : String :=
  "[" ++ String.intercalate " " (ids.map Nat.repr) ++ "]"

def dumpObject (id : ObjectId) (o : Object) : String :=
  "#" ++ Nat.repr id ++ " " ++ o.generation.name ++ " size=" ++ Nat.repr o.size ++ " refs=" ++
    renderIds o.edges ++ "\n" ++ o.value.dumpWhole ++ "\n"

def dump (h : Heap) : String :=
  "threshold=" ++ Int.repr h.threshold.toInt ++ " " ++ h.summary ++ "\n" ++
    String.join (h.ids.map fun id => (h.objects[id]?.map (dumpObject id)).getD "") ++
    "roots: " ++ renderIds h.roots.toList ++ "\n"

end Heap

end Toolchain
