import Toolchain.Proofs.Heap.Bookkeeping

namespace Toolchain

theorem Object.dirty_current (o : Object) : o.current.dirty = false := by
  unfold current
  split
  next => rfl
  next hd => simpa using hd

namespace Heap

variable {h : Heap} {id : ObjectId} {start start' : List ObjectId}

theorem current_promote_current (o : Object) : (promote o.current).current = promote o.current :=
  if_neg (by simp [promote, o.dirty_current])

theorem From.mono {objects : Objects} (hs : start ⊆ start') (h : From objects start id) :
    From objects start' id := by
  obtain ⟨r, hr, hri⟩ := h
  exact ⟨r, hs hr, hri⟩

theorem edge_collectFrom {a b : ObjectId} (ha : From h.objects start a)
    (hab : Edge h.objects a b) : Edge (h.collectFrom start).objects a b := by
  obtain ⟨o, ho, hb⟩ := hab
  refine ⟨_, (getElem?_collectFrom h start a _).mpr ⟨ha, o, ho, rfl⟩, ?_⟩
  rw [current_promote_current]
  exact hb

theorem from_collectFrom (hf : From h.objects start id) :
    From (h.collectFrom start).objects start id := by
  refine (hf.of_closed (fun a => From h.objects start a ∧
    From (h.collectFrom start).objects start a) ?_ ?_).2
  · exact fun r hr => ⟨⟨r, hr, .refl⟩, ⟨r, hr, .refl⟩⟩
  · rintro a b ⟨ha, ha'⟩ hab
    exact ⟨ha.tail hab, ha'.tail (edge_collectFrom ha hab)⟩

/-- A heap on which a collection has nothing to do: all that is listed is old and can be reached
from the roots, and no object waits for a new look. What an object knows of its value may well be
out of date. -/
structure Settled (h : Heap) : Prop where
  young : h.young = #[]
  listed : ∀ id ∈ h.old, h.Live id
  fixed : h.All fun o => promote o.current = o
  rooted : ∀ id, h.Live id → From h.objects h.roots.toList id

theorem settled_collectIn (h : Heap) (e : Enumeration) : (h.collectIn e).Settled where
  young := young_collectFrom h _
  listed := fun id hid => by
    have hmem : id ∈ (h.collectIn e).ids := List.mem_append_left _ (Array.mem_toList_iff.mpr hid)
    rw [collectIn, ids_collectFrom, List.mem_filter, contains_reachable_iff] at hmem
    exact hmem.2
  fixed := fun id p hp => by
    obtain ⟨_, o, _, rfl⟩ := (getElem?_collectFrom h _ id p).mp hp
    rw [current_promote_current]
    rfl
  rooted := fun id hl => by
    have hf : From h.objects (e.order h.roots) id := (live_collectFrom_iff_from.mp hl).2
    refine (from_collectFrom hf).mono fun r hr => ?_
    exact Std.ExtTreeSet.mem_toList.mpr ((e.mem_order h.roots r).mp hr)

namespace Settled

theorem from_order (hs : h.Settled) (e : Enumeration) (hl : h.Live id) :
    From h.objects (e.order h.roots) id :=
  (hs.rooted id hl).mono fun r hr => (e.mem_order h.roots r).mpr (Std.ExtTreeSet.mem_toList.mp hr)

theorem getElem?_collectIn (hs : h.Settled) (e : Enumeration) (id : ObjectId) :
    (h.collectIn e).objects[id]? = h.objects[id]? := by
  cases ho : h.objects[id]? with
  | some o =>
      refine (getElem?_collectFrom h _ id o).mpr ⟨?_, o, ho, (hs.fixed id o ho).symm⟩
      exact hs.from_order e (live_iff_object.mpr ⟨o, ho⟩)
  | none =>
      rw [Option.eq_none_iff_forall_ne_some]
      intro p hp
      obtain ⟨_, o, ho', _⟩ := (getElem?_collectFrom h _ id p).mp hp
      exact absurd (ho.symm.trans ho') (by simp)

theorem contains_reachable (hs : h.Settled) (e : Enumeration) (hid : id ∈ h.old) :
    (reachable h.objects (e.order h.roots)).contains id = true := by
  have hl := hs.listed id hid
  exact contains_reachable_iff.mpr (live_collectFrom_iff_from.mpr ⟨hl, hs.from_order e hl⟩)

theorem ids_eq (hs : h.Settled) : h.ids = h.old.toList := by simp [ids, hs.young]

theorem old_collectIn (hs : h.Settled) (e : Enumeration) : (h.collectIn e).old = h.old := by
  have hold :
      h.old.filter (fun id => (reachable h.objects (e.order h.roots)).contains id) = h.old :=
    Array.filter_eq_self.mpr fun id hid => hs.contains_reachable e hid
  simp only [collectIn, collectFrom, hold, hs.young, Array.filter_empty, Array.append_empty]

theorem dropped_eq_nil (hs : h.Settled) (e : Enumeration) :
    (h.ids.filter fun id => !(reachable h.objects (e.order h.roots)).contains id) = [] := by
  rw [hs.ids_eq, List.filter_eq_nil_iff]
  intro id hid
  rw [hs.contains_reachable e (Array.mem_toList_iff.mp hid)]
  simp

theorem reclaimed_collectIn (hs : h.Settled) (e : Enumeration) :
    (h.collectIn e).stats.reclaimed = h.stats.reclaimed := by
  simp only [collectIn, collectFrom, hs.dropped_eq_nil e, List.length_nil, Nat.add_zero]

theorem freed_collectIn (hs : h.Settled) (e : Enumeration) :
    (h.collectIn e).stats.freed = h.stats.freed := by
  simp only [collectIn, collectFrom, hs.dropped_eq_nil e, List.map_nil, total_nil, Nat.add_zero]

theorem memory_collectIn (hs : h.Settled) (e : Enumeration) :
    (h.collectIn e).memory = h.memory := by
  rw [memory, memory, (settled_collectIn h e).ids_eq, hs.ids_eq, hs.old_collectIn e]
  refine congrArg total (List.map_congr_left fun id _ => ?_)
  rw [sizeAt, sizeAt, hs.getElem?_collectIn e id]

end Settled

theorem collection_is_idempotent (h : Heap) (e e' : Enumeration) :
    let once := h.collectIn e
    let twice := once.collectIn e'
    twice.stats.reclaimed = once.stats.reclaimed ∧ twice.stats.freed = once.stats.freed ∧
    twice.young = once.young ∧ twice.old = once.old ∧
    (∀ id : ObjectId, twice.objects[id]? = once.objects[id]?) ∧ twice.roots = once.roots ∧
    twice.memory = once.memory := by
  intro once twice
  have hs : once.Settled := settled_collectIn h e
  exact ⟨hs.reclaimed_collectIn e', hs.freed_collectIn e', rfl, hs.old_collectIn e',
    hs.getElem?_collectIn e', rfl, hs.memory_collectIn e'⟩

end Heap

end Toolchain
