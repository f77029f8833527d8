import Toolchain.Proofs.Heap.Bookkeeping

namespace Toolchain

theorem Object.Flags.accurate {o o' : Object} (hflags : o.Flags o') (hedited : o.Edited o')
    (hscanned : o'.scanned = o.scanned) (h : o.Accurate) : o'.Accurate := by
  intro hclean
  have hvalue : o'.value = o.value := hflags.resolve_left (by simp [hclean])
  have hbefore : o.dirty = false := by
    rw [← Bool.not_eq_true]
    intro hdirty
    exact absurd (hedited.dirty hdirty) (by simp [hclean])
  rw [hscanned, hvalue]
  exact h hbefore

namespace Heap

variable {h h' : Heap} {id : ObjectId} {v : Value}

section knowledge

theorem Kept.edits (hk : h.Kept) (he : h.Edits h') (hflags : Across Object.Flags h h')
    (hscanned : Across (fun o o' => o'.scanned = o.scanned) h h') : h'.Kept where
  listed := fun id => by
    rw [he.ids, he.live]
    exact hk.listed id
  below := fun id hl => by
    rw [he.nextId]
    exact hk.below id ((he.live id).mp hl)
  accurate := fun id o' ho' => by
    obtain ⟨o, ho⟩ := live_iff_object.mp ((he.live id).mp (live_iff_object.mpr ⟨o', ho'⟩))
    exact (hflags id o o' ho ho').accurate (he.edited id o o' ho ho') (hscanned id o o' ho ho')
      (hk.accurate id o ho)

theorem across_refresh {R : Object → Object → Prop} (c : Value.Change)
    (hR : ∀ o : Object, R o { o with value := c.apply o.value }) : Across R h (h.refresh c) := by
  intro id o o' ho ho'
  simp only [refresh, Std.TreeMap.getElem?_map, ho, Option.map_some, Option.some.injEq] at ho'
  exact ho' ▸ hR o

theorem Kept.event {e : Event} (hk : h.Kept) (hr : h.KeepsOrReplaces e) : (e.apply h).Kept := by
  cases e with
  | act a => exact hk.apply a
  | poll =>
      refine hk.edits (edits_poll h) hr.across ?_
      obtain ⟨c, hc⟩ := shouldCollect_snd h
      exact across_of_objects (fun _ => rfl) (by rw [Event.apply, hc])
  | mutate c => exact hk.edits (edits_refresh h c) hr.across (across_refresh c fun _ => rfl)
  | write id v =>
      refine hk.edits (edits_modify_getD fun _ => ⟨rfl, rfl, fun hd => hd⟩) hr.across ?_
      exact across_modify_getD (fun _ => rfl) fun _ _ => rfl

theorem Kept.run {events : List Event} (hk : h.Kept) (halong : h.Along KeepsOrReplaces events) :
    (h.run events).Kept := by
  induction events generalizing h with
  | nil => exact hk
  | cons e es ih => exact ih (hk.event halong.1) halong.2

theorem Kept.keepsOrReplaces (hk : h.Kept) (a : Action) : h.KeepsOrReplaces (.act a) := by
  by_cases hset : ∃ id v, a = .set id v
  · obtain ⟨id, v, rfl⟩ := hset
    exact .inr (.inl ⟨id, v, rfl⟩)
  · refine .inl fun id hl hl' => hk.get?_apply (fun v heq => ?_) hl hl'
    exact hset ⟨id, v, heq⟩

theorem Kept.along_actions (hk : h.Kept) (actions : List Action) :
    h.Along KeepsOrReplaces (actions.map .act) := by
  induction actions generalizing h with
  | nil => trivial
  | cons a as ih => exact ⟨hk.keepsOrReplaces a, ih (hk.apply a)⟩

end knowledge

section trigger

def Due (h : Heap) (population : Nat) : Prop :=
  h.threshold.toInt < population ∨
    h.interval.nanos < (Duration.between h.lastCollection h.clock.read.1).nanos

theorem shouldCollect_iff_due (h : Heap) : h.shouldCollect.1 = true ↔ h.Due h.count := by
  unfold shouldCollect Due
  split
  next hover => simp [hover]
  next hover => simp [hover]

theorem shouldCollect_place_iff (h : Heap) (v : Value) :
    (h.place v).shouldCollect.1 = true ↔ h.Due (h.count + 1) := by
  have hcount : (h.place v).count = h.count + 1 := by
    simp [count, place, Nat.add_right_comm]
  rw [shouldCollect_iff_due, hcount]
  rfl

theorem allocateIn_of_due (e : Enumeration) (hdue : h.Due (h.count + 1)) (v : Value) :
    ∃ c, (h.allocateIn e v).2 =
      { h.place v with clock := c }.collectFrom (e.order (h.roots.insert h.nextId)) := by
  obtain ⟨c, hc⟩ := shouldCollect_snd (h.place v)
  refine ⟨c, ?_⟩
  rw [snd_allocateIn, ← hc]
  exact if_pos ((shouldCollect_place_iff h v).mpr hdue)

theorem allocateIn_of_not_due (e : Enumeration) (hdue : ¬ h.Due (h.count + 1)) (v : Value) :
    ∃ c, (h.allocateIn e v).2 = { h.place v with clock := c } := by
  obtain ⟨c, hc⟩ := shouldCollect_snd (h.place v)
  refine ⟨c, ?_⟩
  rw [← shouldCollect_place_iff h v, Bool.not_eq_true] at hdue
  rw [snd_allocateIn, ← hc]
  exact if_neg (Bool.eq_false_iff.mp hdue)

end trigger

section survival

variable {P : ObjectId → Prop}

def NewOrRoot (h : Heap) (r : ObjectId) : Prop := r = h.nextId ∨ h.isRoot r = true

theorem mem_order_insert_nextId (e : Enumeration) (r : ObjectId) :
    r ∈ e.order (h.roots.insert h.nextId) ↔ h.NewOrRoot r := by
  rw [e.mem_order, Std.ExtTreeSet.mem_insert, Nat.compare_eq_eq, eq_comm,
    ← Std.ExtTreeSet.contains_iff_mem]
  exact Iff.rfl

theorem Kept.live_allocateIn_of_due (hk : h.Kept) (e : Enumeration)
    (hdue : h.Due (h.count + 1)) :
    (h.allocateIn e v).2.Live id ↔ (h.place v).Live id ∧ (h.place v).Reaches h.NewOrRoot id := by
  obtain ⟨c, hc⟩ := allocateIn_of_due e hdue v
  have hplaced : { h.place v with clock := c }.Kept := (hk.place v).of_objects rfl rfl rfl
  have hstart : (· ∈ e.order (h.roots.insert h.nextId)) = h.NewOrRoot :=
    funext fun r => propext (mem_order_insert_nextId e r)
  rw [hc, hplaced.live_collectFrom, hstart]
  exact and_congr (live_congr rfl) (reaches_congr rfl _)

theorem live_allocateIn_of_not_due (e : Enumeration) (hdue : ¬ h.Due (h.count + 1)) :
    (h.allocateIn e v).2.Live id ↔ id = h.nextId ∨ h.Live id := by
  obtain ⟨c, hc⟩ := allocateIn_of_not_due e hdue v
  rw [hc, ← live_place]
  exact live_congr rfl

theorem Reaches.trans {a : ObjectId} (hr : h.Reaches P a)
    (hp : Relation.ReflTransGen h.Points a id) : h.Reaches P id := by
  obtain ⟨r, hr, hl, hra⟩ := hr
  exact ⟨r, hr, hl, hra.trans hp⟩

theorem Kept.reaches_newOrRoot (hk : h.Kept)
    (hr : h.Reaches (fun r => h.isRoot r = true ∨ r ∈ v.references) id) :
    (h.place v).Reaches h.NewOrRoot id := by
  obtain ⟨r, hstart, hl, hpath⟩ := hr
  obtain ⟨_, rfl, hlive, hpath⟩ : (h.place v).Reaches (· = r) id :=
    hk.reaches_place ⟨r, rfl, hl, hpath⟩
  rcases hstart with hroot | href
  · exact ⟨_, .inr hroot, hlive, hpath⟩
  · have hnew : (h.place v).Reaches h.NewOrRoot h.nextId := reaches_nextId h v
    exact (hnew.tail (.inl ⟨v, get?_place_self h v, href⟩)).trans hpath

theorem Kept.get?_nextId_allocateIn (hk : h.Kept) (e : Enumeration) (v : Value) :
    (h.allocateIn e v).2.get? h.nextId = some v := by
  have hlive : (h.allocateIn e v).2.Live h.nextId := hk.live_allocateIn e (.inl rfl)
  rw [get?_allocateIn hlive, get?_place_self]

end survival

theorem allocation_keeps_what_is_reached (p : Policy) (c : Clock) (events : List Event)
    (hrun : (empty p c).Along KeepsOrReplaces events) (e : Enumeration) (v : Value) :
    let before := (empty p c).run events
    let after := (before.allocateIn e v).2
    (before.allocateIn e v).1 = before.nextId ∧ after.nextId = before.nextId + 1 ∧
    after.get? before.nextId = some v ∧ after.roots = before.roots ∧
    (∀ id, before.Live id →
      before.Reaches (fun r => before.isRoot r = true ∨ r ∈ v.references) id →
        after.Live id ∧ after.get? id = before.get? id) ∧
    (before.Due (before.count + 1) → ∀ id, after.Live id ↔
      (before.place v).Live id ∧ (before.place v).Reaches before.NewOrRoot id) ∧
    (¬ before.Due (before.count + 1) → ∀ id, after.Live id ↔ id = before.nextId ∨ before.Live id) ∧
    (∀ id, before.Live id → after.Live id → after.get? id = before.get? id) := by
  intro before after
  have hk : before.Kept := (kept_empty p c).run hrun
  have hvalue (id : ObjectId) (hl : before.Live id) (hl' : after.Live id) :
      after.get? id = before.get? id :=
    hk.get?_apply (a := .allocate e v) (fun _ => by simp) hl hl'
  refine ⟨fst_allocateIn before e v, nextId_allocateIn before e v, hk.get?_nextId_allocateIn e v,
    roots_allocateIn before e v, fun id hl hr => ?_,
    fun hdue id => hk.live_allocateIn_of_due e hdue,
    fun hdue id => live_allocateIn_of_not_due e hdue, hvalue⟩
  have hl' : after.Live id :=
    hk.live_allocateIn_of_reaches e (live_place.mpr (.inr hl)) (hk.reaches_newOrRoot hr)
  exact ⟨hl', hvalue id hl hl'⟩

-- A collection is due. The new id was made a root beforehand, and only the new object holds on to
-- object 1.
theorem allocation_keeps_what_is_reached_rooted :
    let before := (empty { Policy.default with threshold := 2 } (.ticking 0 0)).run
      ([.allocate .ascending (.int 5), .allocate .ascending (.int 7), .addRoot 2].map .act)
    let after := (before.allocateIn .ascending (.ref 1)).2
    before.Due (before.count + 1) ∧ after.get? 2 = some (.ref 1) ∧ after.get? 1 = some (.int 7) ∧
      after.isRoot 2 = true := by
  intro before after
  obtain ⟨-, -, hnew, hroots, hkept, -⟩ :=
    allocation_keeps_what_is_reached { Policy.default with threshold := 2 } (.ticking 0 0) _
      ((kept_empty _ _).along_actions
        [.allocate .ascending (.int 5), .allocate .ascending (.int 7), .addRoot 2])
      .ascending (.ref 1)
  have hone : before.get? 1 = some (.int 7) := rfl
  have hlive : before.Live 1 := live_iff_get?.mpr ⟨_, hone⟩
  refine ⟨.inl (by decide), hnew, ?_, ?_⟩
  · rw [(hkept 1 hlive ⟨1, .inr (List.mem_singleton_self 1), hlive, .refl⟩).2, hone]
  · rw [isRoot, hroots]
    decide

end Heap

end Toolchain
