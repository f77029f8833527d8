import Toolchain.Command.Heap
import Toolchain.Proofs.Heap.Bookkeeping
import Toolchain.Proofs.Machine.FrameSafety

namespace Toolchain

namespace Heap

variable {h h' : Heap} {id : ObjectId} {v : Value} {n : Nat}

section ages

def Backward (h : Heap) : Prop := ∀ a b, h.Points a b → b < a

theorem Backward.of_objects (hb : h.Backward) (ho : h'.objects = h.objects) : h'.Backward := by
  intro a b hp
  refine hb a b ?_
  simpa only [Points, get?, links, ho] using hp

theorem Backward.place (hb : h.Backward) (hv : ∀ r ∈ v.references, r < h.nextId) :
    (h.place v).Backward := by
  intro a b hp
  by_cases ha : a = h.nextId
  · subst ha
    rcases hp with ⟨w, hw, hr⟩ | hl
    · rw [get?_place_self, Option.some.injEq] at hw
      exact hv b (hw ▸ hr)
    · simp [links, getElem?_place, Object.ofValue] at hl
  · refine hb a b ?_
    simpa only [Points, get?, links, getElem?_place, if_neg ha] using hp

theorem Backward.collectFrom (hb : h.Backward) (start : List ObjectId) :
    (h.collectFrom start).Backward :=
  fun a b hp => hb a b ((points_collectFrom hp.live).mp hp)

theorem Backward.allocateIn (hb : h.Backward) (hv : ∀ r ∈ v.references, r < h.nextId)
    (e : Enumeration) : (h.allocateIn e v).2.Backward := by
  refine allocateIn_keeps (fun c => ?_) (fun g start hg => hg.collectFrom start) e
  exact (hb.place hv).of_objects rfl

theorem Backward.lt_of_reaches {P : ObjectId → Prop} (hb : h.Backward) (hP : ∀ r, P r → r < n)
    (hr : h.Reaches P id) : id < n := by
  obtain ⟨r, hr, _, hpath⟩ := hr
  induction hpath with
  | refl => exact hP r hr
  | tail _ hab ih => exact Nat.lt_trans (hb _ _ hab) ih

end ages

theorem Bookkept.allocateIn (hb : h.Bookkept) (e : Enumeration) (v : Value) :
    (h.allocateIn e v).2.Bookkept := by
  refine allocateIn_keeps (fun c => ?_) (fun g start hg => hg.collectFrom start) e
  exact (hb.place v).edits (.of_objects rfl rfl rfl rfl rfl rfl)

theorem Bookkept.count_eq (hb : h.Bookkept) (hl : ∀ id, h.Live id ↔ id < n) : h.count = n := by
  have hmem (id : ObjectId) : id ∈ h.ids ↔ id ∈ List.range n := by
    rw [hb.listed, hl, List.mem_range]
  have hperm : h.ids.Perm (List.range n) :=
    (List.perm_ext_iff_of_nodup (hb.increasing.imp Nat.ne_of_lt) List.nodup_range).mpr hmem
  rw [count_eq_length_ids, hperm.length_eq, List.length_range]

end Heap

namespace Machine

variable {m m' : Machine} {size opened last i f : Nat} {name : String} {v : Value}
  {outer : Option Nat}

theorem bindIn?_openFrame (e : Enumeration) (m : Machine) (outer : Option Nat) (name : String)
    (v : Value) : (m.openFrame outer).2.bindIn? e m.frames.size name v =
      some (m.heap.nextId, (m.openBoundIn e outer name v).2) := by
  have hframe : (m.frames.push (.empty outer))[m.frames.size]? = some (Frame.empty outer) :=
    Array.getElem?_push_size
  have hset (frame : Frame) :
      (m.frames.push (.empty outer)).setIfInBounds m.frames.size frame = m.frames.push frame := by
    simp [Array.setIfInBounds, Array.set_push]
  simp only [openFrame, bindIn?, hframe, Option.map_some, hset]
  rfl

/-- The oldest frames are open, each with the object of its own number bound in it, and what the
others had bound is still there. -/
structure Stacked (m : Machine) (size opened : Nat) : Prop where
  owned : m.Owned
  books : m.heap.Bookkept
  backward : m.heap.Backward
  frames : m.frames.size = size
  next : m.heap.nextId = size
  live : ∀ id, m.heap.Live id ↔ id < size
  held : ∀ f id, (∃ name, m.held f name = some id) ↔ f = id ∧ f < opened

theorem stacked_empty (p : Policy) (c : Clock) : Stacked (ofHeap (.empty p c)) 0 0 where
  owned := owned_empty p c
  books := Heap.bookkept_empty p c
  backward := fun a b hp => by
    have hl := hp.live
    simp [ofHeap, Heap.empty, Heap.Live] at hl
  frames := rfl
  next := rfl
  live := fun id => by simp [ofHeap, Heap.empty, Heap.Live]
  held := fun f id => by simp [ofHeap, Machine.held]

namespace Stacked

theorem bound_iff (h : Stacked m size opened) (id : ObjectId) : m.Bound id ↔ id < opened := by
  simp only [Bound, h.held]
  constructor
  · rintro ⟨f, rfl, hf⟩
    exact hf
  · exact fun hid => ⟨id, rfl, hid⟩

theorem openBoundIn (h : Stacked m size size) (hout : ∀ o, outer = some o → o < size)
    (hv : ∀ r ∈ v.references, r < size) (e : Enumeration) (name : String) :
    Stacked (m.openBoundIn e outer name v).2 (size + 1) (size + 1) := by
  have hb := bindIn?_openFrame e m outer name v
  have howned : (m.openBoundIn e outer name v).2.Owned :=
    (h.owned.openFrame (h.frames ▸ hout)).bind hb
  have hheld : ∀ f id, (∃ n, (m.openBoundIn e outer name v).2.held f n = some id) ↔
      f = id ∧ f < size + 1 := by
    intro f id
    simp only [held_bind hb, held_openFrame, h.frames, h.next]
    by_cases hf : f = size
    · subst hf
      constructor
      · rintro ⟨n, hn⟩
        split at hn
        · exact ⟨Option.some.inj hn, Nat.lt_succ_self f⟩
        · exact absurd ((h.held f id).mp ⟨n, hn⟩).2 (Nat.lt_irrefl f)
      · rintro ⟨rfl, _⟩
        exact ⟨name, if_pos ⟨rfl, rfl⟩⟩
    · simp only [hf, false_and, if_false, h.held]
      omega
  have hnext : (m.openBoundIn e outer name v).2.heap.nextId = size + 1 :=
    (Heap.nextId_allocateIn m.heap e v).trans (by rw [h.next])
  refine ⟨howned, ?_, ?_, ?_, hnext, ?_, hheld⟩
  · exact (h.books.allocateIn e v).edits (.of_objects rfl rfl rfl rfl rfl rfl)
  · exact (h.backward.allocateIn (h.next.symm ▸ hv) e).of_objects rfl
  · exact (Array.size_push _).trans (by rw [h.frames])
  · intro id
    constructor
    · intro hl
      have hlt := howned.kept.below id hl
      rwa [hnext] at hlt
    · intro hid
      exact howned.live id ⟨id, (hheld id id).mpr ⟨rfl, hid⟩⟩

theorem close (h : Stacked m size (f + 1)) (hf : f < size) : Stacked (m.close f) size f := by
  have hc : m.close? f = some (m.close f) := if_pos (h.frames.symm ▸ hf)
  have howned := h.owned.close hc
  have hheld : ∀ g id, (∃ n, (m.close f).held g n = some id) ↔ g = id ∧ g < f := by
    intro g id
    simp only [held_close hc]
    by_cases hg : g = f
    · simp [hg]
    · simp only [hg, if_false, h.held]
      omega
  obtain ⟨frame, roots, _, hm, _⟩ := close?_eq_some hc
  rw [hm] at howned hheld ⊢
  exact ⟨howned, h.books.edits (.of_objects rfl rfl rfl rfl rfl rfl), h.backward.of_objects rfl,
    (Array.size_setIfInBounds ..).trans h.frames, h.next, h.live, hheld⟩

theorem pushLinks (h : Stacked m size size) (hlast : last < size)
    (orders : Nat → Enumeration) (count i : Nat) :
    Stacked (pushLinks orders count i m last) (size + count) (size + count) := by
  induction count generalizing m size last i with
  | zero => exact h
  | succ count ih =>
      have hpush : Stacked (m.pushLink orders last i).2 (size + 1) (size + 1) := by
        refine h.openBoundIn ?_ ?_ (orders i) "link"
        · intro o ho
          split at ho
          · exact absurd ho (by simp)
          · rw [← Option.some.inj ho, h.frames]
            omega
        · intro r hr
          rwa [List.mem_singleton.mp hr]
      have hid : (m.pushLink orders last i).1 = size := h.next
      have hlt : (m.pushLink orders last i).1 < size + 1 := by
        rw [hid]
        exact Nat.lt_succ_self size
      have hrest := ih hpush hlt (i + 1)
      rwa [Nat.add_assoc, Nat.add_comm 1] at hrest

theorem closeInner (h : Stacked m size (f + 1)) (hf : f < size) (count : Nat) :
    Stacked (m.closeInner count f) size (f + 1 - min count f) := by
  induction f generalizing m count with
  | zero =>
      rw [Nat.min_zero]
      cases count <;> exact h
  | succ f ih =>
      cases count with
      | zero =>
          rw [Nat.zero_min]
          exact h
      | succ count =>
          have hrest := ih (h.close hf) (by omega) count
          rwa [show f + 1 + 1 - min (count + 1) (f + 1) = f + 1 - min count f by omega]

theorem live_collectIn_iff (h : Stacked m size opened) (ho : opened ≤ size) (e : Enumeration)
    (id : ObjectId) : (m.heap.collectIn e).Live id ↔ id < opened := by
  have hroot (r : ObjectId) : m.heap.isRoot r = true ↔ r < opened :=
    (h.owned.rooted r).trans (h.bound_iff r)
  rw [h.owned.kept.live_collectIn]
  constructor
  · rintro ⟨_, hr⟩
    exact h.backward.lt_of_reaches (fun r => (hroot r).mp) hr
  · intro hid
    have hl := (h.live id).mpr (Nat.lt_of_lt_of_le hid ho)
    exact ⟨hl, id, (hroot id).mpr hid, hl, .refl⟩

end Stacked

theorem stacked_nested {n : Nat} (hn : 1 ≤ n) (orders : Nat → Enumeration) (p : Policy)
    (c : Clock) : Stacked (nested orders n (.empty p c)) n n := by
  have hseed : Stacked ((ofHeap (.empty p c)).openBoundIn (orders 0) none "seed" (.int 0)).2 1 1 :=
    (stacked_empty p c).openBoundIn (by simp) (by simp [Value.references]) (orders 0) "seed"
  have hlinks := hseed.pushLinks (Nat.lt_succ_self 0) orders (n - 1) 1
  rwa [Nat.add_sub_cancel' hn] at hlinks

def closed (n : Nat) : Nat := min (n - n / 2) (n - 1)

theorem stacked_exercise {n : Nat} (hn : 1 ≤ n) (orders : Nat → Enumeration) (p : Policy)
    (c : Clock) : ∃ m, exercise orders n (.empty p c) = m.heap ∧ Stacked m n (n - closed n) := by
  obtain ⟨f, rfl⟩ := Nat.exists_eq_add_of_le' hn
  exact ⟨_, rfl, (stacked_nested hn orders p c).closeInner (Nat.lt_succ_self f) _⟩

theorem count_exercise {n : Nat} (hn : 1 ≤ n) (orders : Nat → Enumeration) (e : Enumeration)
    (p : Policy) (c : Clock) :
    (exercise orders n (.empty p c)).count = n ∧
      ((exercise orders n (.empty p c)).collectIn e).count = n - closed n := by
  obtain ⟨m, he, hm⟩ := stacked_exercise hn orders p c
  rw [he]
  refine ⟨hm.books.count_eq hm.live, ?_⟩
  exact (hm.books.collectFrom _).count_eq (hm.live_collectIn_iff (Nat.sub_le ..) e)

end Machine

namespace World

theorem callAll_heapCalls (e : Enumeration) (h : Heap) : callAll (.ofHeapIn e) heapCalls h =
    ("gc.count => " ++ Int.repr h.count ++ "\n" ++
      ("gc.collect => " ++ Int.repr ((h.count : Int) - (h.collectIn e).count) ++ "\n" ++
        ("gc.stats => " ++ (h.collectIn e).summary ++ "\n" ++ "")), none, h.collectIn e) := by
  rfl

def Reports (n : Nat) (o : Outcome) : Prop :=
  o.code = 0 ∧ ∃ stats, o.out = "gc.count => " ++ Nat.repr n ++ "\n" ++ "gc.collect => " ++
    Nat.repr (min (n - n / 2) (n - 1)) ++ "\n" ++ "gc.stats => " ++ stats ++ "\n"

theorem reports_heapRun {n : Nat} (hn : 1 ≤ n) (orders : Nat → Enumeration) (c : Clock)
    (s : Settings) (debug : Bool) : Reports n (heapRun orders c s debug n) := by
  obtain ⟨hcount, hcollect⟩ := Machine.count_exercise hn orders (orders n) s.gc c
  have hfreed : ((n : Int) - (n - Machine.closed n : Nat)) = (Machine.closed n : Nat) := by
    have : Machine.closed n ≤ n := by
      unfold Machine.closed
      omega
    omega
  unfold heapRun
  simp only [callAll_heapCalls, hcount, hcollect, hfreed]
  refine ⟨rfl, ((Machine.exercise orders n (.empty s.gc c)).collectIn (orders n)).summary, ?_⟩
  simp only [String.append_assoc, String.append_empty]
  rfl

theorem one_le_of_frameCount? {text : String} {n : Nat} (h : frameCount? text = some n) :
    1 ≤ n := by
  unfold frameCount? at h
  split at h
  split at h
  next => exact absurd h (by simp)
  next =>
    simp only [Option.ite_none_left_eq_some, Option.some.injEq, Bool.or_eq_true, decide_eq_true_eq,
      not_or] at h
    omega

theorem heap_numbers_ignore_policy (s : Settings) (debug : Bool) (c : Clock)
    (orders : Nat → Enumeration) :
    (∀ n, 1 ≤ n → Reports n (heapRun orders c s debug n)) ∧
    Reports 100 (heapIn orders c s debug []) ∧
    ∀ text rest n, frameCount? text = some n →
      Reports n (heapIn orders c s debug (text :: rest)) := by
  refine ⟨fun n hn => reports_heapRun hn orders c s debug,
    reports_heapRun (by decide) orders c s debug, ?_⟩
  intro text rest n hn
  rw [heapIn, hn]
  exact reports_heapRun (one_le_of_frameCount? hn) orders c s debug

end World

end Toolchain
