import Toolchain.Proofs.Heap.Liveness

namespace Toolchain.Heap

variable {h : Heap} {id : ObjectId}

inductive Action where
  | allocate (e : Enumeration) (v : Value)
  | set (id : ObjectId) (v : Value)
  | touch (id : ObjectId)
  | link (source target : ObjectId)
  | addRoot (id : ObjectId)
  | removeRoot (id : ObjectId)
  | collect (e : Enumeration)
  | advance (d : Int)

/-- What an action does; one on an object that is not live does nothing. -/
def Action.apply (h : Heap) : Action → Heap
  | .allocate e v => (h.allocateIn e v).2
  | .set id v => (h.set? id v).getD h
  | .touch id => (h.touch? id).getD h
  | .link source target => (h.link? source target).getD h
  | .addRoot id => h.addRoot id
  | .removeRoot id => h.removeRoot id
  | .collect e => h.collectIn e
  | .advance d => h.advance d

def perform (h : Heap) (actions : List Action) : Heap := actions.foldl Action.apply h

theorem kept_empty (p : Policy) (c : Clock) : (empty p c).Kept where
  listed := fun id => by simp [empty, ids, Live]
  below := fun id hl => by simp [empty, Live] at hl
  accurate := fun id o ho => by simp [empty] at ho

theorem Kept.modify_getD (hk : h.Kept) {f : Object → Object}
    (hf : ∀ o, o.Accurate → (f o).Accurate) : ((h.modify id f).getD h).Kept := by
  cases hm : h.modify id f with
  | none => exact hk
  | some h' => exact hk.modify hm hf

theorem Kept.apply (hk : h.Kept) (a : Action) : (a.apply h).Kept := by
  cases a with
  | allocate e v => exact hk.allocateIn e v
  | set id v => exact hk.modify_getD fun o _ => Object.accurate_of_dirty rfl
  | touch id => exact hk.modify_getD fun o _ => Object.accurate_of_dirty rfl
  | link source target => exact hk.modify_getD fun o ho => ho
  | addRoot id => exact hk.of_objects rfl rfl rfl
  | removeRoot id => exact hk.of_objects rfl rfl rfl
  | collect e => exact hk.collectFrom _
  | advance d => exact hk.of_objects rfl rfl rfl

theorem Kept.perform (hk : h.Kept) (actions : List Action) :
    (h.perform actions).Kept := by
  induction actions generalizing h with
  | nil => exact hk
  | cons a as ih => exact ih (hk.apply a)

theorem mem_order_roots (h : Heap) (e : Enumeration) (id : ObjectId) :
    id ∈ e.order h.roots ↔ h.isRoot id = true := by
  rw [e.mem_order, isRoot, Std.ExtTreeSet.contains_iff_mem]

theorem Kept.live_collectIn (hk : h.Kept) (e : Enumeration) (id : ObjectId) :
    (h.collectIn e).Live id ↔ h.Live id ∧ h.Reaches (h.isRoot · = true) id := by
  have hr : (· ∈ e.order h.roots) = (h.isRoot · = true) := by
    funext r
    exact propext (h.mem_order_roots e r)
  rw [collectIn, hk.live_collectFrom, hr]

section change

variable (f : Object → Object)

theorem exists_modify_getD (h : Heap) (id : ObjectId) :
    ∃ objects, (h.modify id f).getD h = { h with objects } ∧ ∀ a : ObjectId,
      objects[a]? = if a = id then h.objects[a]?.map f else h.objects[a]? := by
  cases ho : h.objects[id]? with
  | none =>
      have hm : h.modify id f = none := by rw [modify, ho]; rfl
      refine ⟨h.objects, by rw [hm]; rfl, fun a => ?_⟩
      split
      next ha => rw [ha, ho]; rfl
      next => rfl
  | some o =>
      have hm : h.modify id f = some { h with objects := h.objects.insert id (f o) } := by
        rw [modify, ho]
        rfl
      refine ⟨h.objects.insert id (f o), by rw [hm]; rfl, fun a => ?_⟩
      rw [Std.TreeMap.getElem?_insert]
      by_cases ha : id = a
      · simp [← ha, ho]
      · simp [ha, Ne.symm ha]

theorem getElem?_modify_getD (a : ObjectId) : ((h.modify id f).getD h).objects[a]? =
    if a = id then h.objects[a]?.map f else h.objects[a]? := by
  obtain ⟨objects, heq, hget⟩ := exists_modify_getD f h id
  rw [heq, hget]

theorem nextId_modify_getD : ((h.modify id f).getD h).nextId = h.nextId := by
  obtain ⟨objects, heq, _⟩ := exists_modify_getD f h id
  rw [heq]

theorem roots_modify_getD : ((h.modify id f).getD h).roots = h.roots := by
  obtain ⟨objects, heq, _⟩ := exists_modify_getD f h id
  rw [heq]

theorem live_modify_getD (a : ObjectId) : ((h.modify id f).getD h).Live a ↔ h.Live a := by
  simp only [Live, Std.TreeMap.mem_iff_isSome_getElem?, getElem?_modify_getD]
  split <;> simp

variable {f}

theorem get?_modify_getD {a : ObjectId} (hf : a = id → ∀ o, (f o).value = o.value) :
    ((h.modify id f).getD h).get? a = h.get? a := by
  rw [get?, get?, getElem?_modify_getD]
  split
  next ha => cases h.objects[a]? <;> simp [hf ha]
  next => rfl

end change

theorem Kept.live_apply (hk : h.Kept) (a : Action) (hl : h.Live id)
    (hr : h.Reaches (h.isRoot · = true) id) : (a.apply h).Live id := by
  cases a with
  | allocate e v => exact hk.live_allocateIn e (.inr ⟨hl, hr⟩)
  | set _ _ => exact (live_modify_getD _ id).mpr hl
  | touch _ => exact (live_modify_getD _ id).mpr hl
  | link _ _ => exact (live_modify_getD _ id).mpr hl
  | addRoot _ => exact hl
  | removeRoot _ => exact hl
  | collect e => exact (hk.live_collectIn e id).mpr ⟨hl, hr⟩
  | advance _ => exact hl

theorem Kept.get?_apply (hk : h.Kept) {a : Action} (ha : ∀ v, a ≠ .set id v) (hl : h.Live id)
    (hl' : (a.apply h).Live id) : (a.apply h).get? id = h.get? id := by
  cases a with
  | allocate e v =>
      have hne : id ≠ h.nextId := Nat.ne_of_lt (hk.below id hl)
      exact (get?_allocateIn hl').trans (get?_place hne)
  | set b v =>
      refine get?_modify_getD fun heq => ?_
      exact absurd (congrArg (Action.set · v) heq.symm) (ha v)
  | touch _ => exact get?_modify_getD fun _ _ => rfl
  | link _ _ => exact get?_modify_getD fun _ _ => rfl
  | addRoot _ => rfl
  | removeRoot _ => rfl
  | collect e => exact (survivor_collectFrom hl').1
  | advance _ => rfl

end Toolchain.Heap
