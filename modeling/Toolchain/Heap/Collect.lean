import Toolchain.Heap.Trace
import Toolchain.Number.Basic
import Toolchain.Number.Word

namespace Toolchain

def Tuning.adjust (t : Tuning) (threshold : Int64) (s : HeapStats) : Int64 :=
  let efficiency := Double.ofCounts s.reclaimed s.collections
  let scaled := fun (factor : Double) => ((Double.ofInt threshold.toInt).mul factor).toWord
  let next :=
    if efficiency.lt t.low then max (threshold + 1) (scaled t.grow)
    else if t.high.lt efficiency then scaled t.shrink
    else threshold
  if next < 1 then 1 else next

namespace Heap

def promote (o : Object) : Object := { o with generation := .old }

def collectFrom (h : Heap) (start : List ObjectId) : Heap :=
  let (began, clock) := h.clock.read
  let reached := reachable h.objects start
  let live := fun id => reached.contains id
  let dropped := h.ids.filter fun id => !live id
  let freed := total (dropped.map h.sizeAt)
  let young := h.young.filter live
  let old := h.old.filter live ++ young
  let (ended, clock) := clock.read
  let elapsed := Duration.between began ended
  let stats : HeapStats :=
    { collections := h.stats.collections + 1, reclaimed := h.stats.reclaimed + dropped.length,
      freed := h.stats.freed + freed, time := h.stats.time.add elapsed, lastTime := elapsed }
  let threshold := h.tuning.adjust h.threshold stats
  { h with
    young := #[], old, objects := reached.map fun _ o => promote o, stats, threshold,
    lastCollection := began, clock,
    journal := h.journal.push
      { number := stats.collections, collected := dropped.length, freed, promoted := young.size,
        live := old.size, before := h.threshold, after := threshold } }

def collectIn (e : Enumeration) (h : Heap) : Heap := h.collectFrom (e.order h.roots)

def collect (h : Heap) : Heap := h.collectIn .ascending

/-- Whether the population exceeds the threshold or the interval has passed; the clock is asked only
if it does not. -/
def shouldCollect (h : Heap) : Bool × Heap :=
  if h.threshold.toInt < h.count then (true, h)
  else
    let (now, clock) := h.clock.read
    (decide (h.interval.nanos < (Duration.between h.lastCollection now).nanos), { h with clock })

def place (h : Heap) (v : Value) : Heap :=
  { h with
    nextId := h.nextId + 1, young := h.young.push h.nextId,
    objects := h.objects.insert h.nextId (.ofValue v) }

def collectHolding (e : Enumeration) (h : Heap) (id : ObjectId) : Heap :=
  let after := (h.addRoot id).collectIn e
  if h.isRoot id then after else after.removeRoot id

def allocateIn (e : Enumeration) (h : Heap) (v : Value) : ObjectId × Heap :=
  let id := h.nextId
  let (due, h) := (h.place v).shouldCollect
  (id, if due then h.collectHolding e id else h)

def allocate (h : Heap) (v : Value) : ObjectId × Heap := h.allocateIn .ascending v

end Heap

end Toolchain
