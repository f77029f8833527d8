import Toolchain.Proofs.Heap.Allocation

namespace Toolchain.Heap

variable {h g : Heap} {id : ObjectId} {seen : ObjectId → Option Value}

def bytes (values : ObjectId → Option Value) (id : ObjectId) : Nat :=
  ((values id).map Value.size).getD 0

def lost (h g : Heap) : List ObjectId := h.ids.filter fun id => !g.objects.contains id

theorem contains_iff_live : h.objects.contains id = true ↔ h.Live id :=
  Std.TreeMap.contains_iff_mem

theorem contains_eq_false_iff : h.objects.contains id = false ↔ ¬ h.Live id := by
  rw [← contains_iff_live, Bool.not_eq_true]

theorem mem_lost : id ∈ h.lost g ↔ id ∈ h.ids ∧ ¬ g.Live id := by
  rw [lost, List.mem_filter, Bool.not_eq_true', contains_eq_false_iff]

section phases

/-- `g` is `h` before a collection that may come: the objects are known as before, and new ones have
just been looked at. -/
structure Readied (h g : Heap) : Prop where
  freed : g.stats.freed = h.stats.freed
  ids : ∃ new, g.ids = h.ids ++ new ∧ ∀ id ∈ new, ¬ h.Live id
  live : ∀ id, h.Live id → g.Live id
  sizeAt : ∀ id, h.Live id → g.sizeAt id = h.sizeAt id
  fresh : ∀ id, g.Live id → ¬ h.Live id → g.sizeAt id = bytes g.get? id

theorem Edits.readied (he : h.Edits g) : h.Readied g where
  freed := by rw [he.stats]
  ids := ⟨[], by rw [he.ids, List.append_nil], List.forall_mem_nil _⟩
  live := fun id hl => (he.live id).mpr hl
  sizeAt := fun id _ => he.sizeAt id
  fresh := fun id hl hnot => absurd ((he.live id).mp hl) hnot

theorem Kept.readied_place (hk : h.Kept) (v : Value) : h.Readied (h.place v) where
  freed := rfl
  ids := by
    refine ⟨[h.nextId], ids_place h v, List.forall_mem_singleton.mpr fun hl => ?_⟩
    exact Nat.lt_irrefl _ (hk.below h.nextId hl)
  live := fun id hl => live_place.mpr (.inr hl)
  sizeAt := fun id hl => by
    rw [Heap.sizeAt, Heap.sizeAt, getElem?_place, if_neg (Nat.ne_of_lt (hk.below id hl))]
  fresh := fun id hl hnot => by
    obtain rfl := (live_place.mp hl).resolve_right hnot
    rw [Heap.sizeAt, bytes, get?_place_self, getElem?_place, if_pos rfl]
    rfl

theorem Readied.clock (hr : h.Readied g) (c : Clock) : h.Readied { g with clock := c } :=
  ⟨hr.freed, hr.ids, hr.live, hr.sizeAt, hr.fresh⟩

theorem Kept.apply_cases (hk : h.Kept) (a : Action) : ∃ g, h.Readied g ∧
    ((Event.act a).collects h = false ∧ a.apply h = g ∨
      (Event.act a).collects h = true ∧ ∃ start, a.apply h = g.collectFrom start ∧
        ∀ id ∈ g.ids, ¬ h.Live id → (a.apply h).Live id) := by
  by_cases hplain : (Event.act a).placed = [] ∧ (Event.act a).collects h = false
  · obtain ⟨hplaced, hquiet⟩ := hplain
    exact ⟨a.apply h, (Event.edits hplaced hquiet).readied, .inl ⟨hquiet, rfl⟩⟩
  · cases a with
    | allocate e v =>
        have hcollects : (Event.act (.allocate e v)).collects h = (h.place v).shouldCollect.1 := rfl
        rw [hcollects]
        cases hdue : (h.place v).shouldCollect.1 with
        | false =>
            rw [Bool.eq_false_iff, ne_eq, shouldCollect_place_iff] at hdue
            obtain ⟨c, hc⟩ := allocateIn_of_not_due e hdue v
            exact ⟨_, (hk.readied_place v).clock c, .inl ⟨rfl, hc⟩⟩
        | true =>
            rw [shouldCollect_place_iff] at hdue
            obtain ⟨c, hc⟩ := allocateIn_of_due e hdue v
            refine ⟨_, (hk.readied_place v).clock c, .inr ⟨rfl, _, hc, fun id hid hnot => ?_⟩⟩
            have hlive : (h.place v).Live id := ((hk.place v).listed id).mp hid
            obtain rfl := (live_place.mp hlive).resolve_right hnot
            exact hk.live_allocateIn e (.inl rfl)
    | collect e =>
        refine ⟨h, (Edits.refl h).readied, .inr ⟨rfl, _, rfl, fun id hid hnot => ?_⟩⟩
        exact absurd ((hk.listed id).mp hid) hnot
    | _ => exact absurd ⟨rfl, rfl⟩ hplain

end phases

section freed

theorem freed_collectFrom (h : Heap) (start : List ObjectId) :
    (h.collectFrom start).stats.freed =
      h.stats.freed + total ((h.lost (h.collectFrom start)).map h.sizeAt) := by
  have hsame (id : ObjectId) : (h.collectFrom start).objects.contains id =
      (reachable h.objects start).contains id := by
    rw [Bool.eq_iff_iff, contains_reachable_iff, contains_iff_live]
  simp only [lost, hsame]
  rfl

theorem lost_eq_nil (hl : ∀ id ∈ h.ids, g.Live id) : h.lost g = [] := by
  rw [List.eq_nil_iff_forall_not_mem]
  intro id hid
  obtain ⟨hlisted, hdead⟩ := mem_lost.mp hid
  exact hdead (hl id hlisted)

theorem Kept.freed_apply (hk : h.Kept) (a : Action) :
    (a.apply h).stats.freed =
      h.stats.freed + total ((h.lost (a.apply h)).map h.sizeAt) := by
  obtain ⟨g, hr, ⟨_, happly⟩ | ⟨_, start, happly, hnew⟩⟩ := hk.apply_cases a
  · have hnone : h.lost g = [] := lost_eq_nil fun id hid => hr.live id ((hk.listed id).mp hid)
    rw [happly, hnone, hr.freed]
    rfl
  · obtain ⟨new, hids, hfar⟩ := hr.ids
    have hnone : (new.filter fun id => !(a.apply h).objects.contains id) = [] := by
      rw [List.filter_eq_nil_iff]
      intro id hid
      have hlive := hnew id (hids ▸ List.mem_append_right _ hid) (hfar id hid)
      simp [contains_iff_live.mpr hlive]
    have hlost : g.lost (a.apply h) = h.lost (a.apply h) := by
      rw [lost, lost, hids, List.filter_append, hnone, List.append_nil]
    have hsize : ∀ id ∈ h.lost (a.apply h), g.sizeAt id = h.sizeAt id := by
      intro id hid
      exact hr.sizeAt id ((hk.listed id).mp (mem_lost.mp hid).1)
    have hfreed := freed_collectFrom g start
    rw [← happly, hlost, List.map_congr_left hsize, hr.freed] at hfreed
    exact hfreed

end freed

section history

/-- What has last been seen of each object, `seen` having been so before the action: an object is
looked at when it is placed and when it is left by a collection. -/
def look (h : Heap) (seen : ObjectId → Option Value) (a : Action) (id : ObjectId) : Option Value :=
  if h.objects.contains id && !(Event.act a).collects h then seen id else (a.apply h).get? id

def lastSeen (h : Heap) (seen : ObjectId → Option Value) : List Action → ObjectId → Option Value
  | [] => seen
  | a :: as => lastSeen (a.apply h) (h.look seen a) as

structure Followed (h : Heap) (seen : ObjectId → Option Value) : Prop where
  kept : h.Kept
  measured : h.All Object.Measured
  known : ∀ id, h.Live id → h.sizeAt id = bytes seen id

theorem Followed.apply (hf : h.Followed seen) (a : Action) :
    (a.apply h).Followed (h.look seen a) where
  kept := hf.kept.apply a
  measured := by
    have hflags := (hf.kept.keepsOrReplaces a).across
    exact (Event.moves Object.Flags.refl h (.act a) fun _ => hflags).measured hf.measured
  known := fun id hl => by
    obtain ⟨g, hr, ⟨hquiet, happly⟩ | ⟨hcollects, _⟩⟩ := hf.kept.apply_cases a
    · rw [happly] at hl
      by_cases hlive : h.Live id
      · have hseen : h.look seen a id = seen id := by
          simp [look, hquiet, contains_iff_live.mpr hlive]
        rw [happly, hr.sizeAt id hlive, hf.known id hlive, bytes, bytes, hseen]
      · have hseen : h.look seen a id = g.get? id := by
          simp [look, contains_eq_false_iff.mpr hlive, happly]
        rw [happly, hr.fresh id hl hlive, bytes, bytes, hseen]
    · have hseen : h.look seen a id = (a.apply h).get? id := by simp [look, hcollects]
      rw [bytes, hseen]
      exact sizeAt_of_sized (sized_of_collects hf.measured hcollects) id

theorem Followed.perform (hf : h.Followed seen) (actions : List Action) :
    (h.perform actions).Followed (h.lastSeen seen actions) := by
  induction actions generalizing h seen with
  | nil => exact hf
  | cons a as ih => exact ih (hf.apply a)

theorem followed_empty (p : Policy) (c : Clock) : (empty p c).Followed fun _ => none where
  kept := kept_empty p c
  measured := all_empty _ p c
  known := fun id hl => absurd hl (by simp [empty, Live])

theorem Kept.look_eq_get? {a : Action} (hk : h.Kept) (ha : ∀ v, a ≠ .set id v)
    (hseen : h.Live id → seen id = h.get? id) (hl : (a.apply h).Live id) :
    h.look seen a id = (a.apply h).get? id := by
  rw [look]
  split
  next hquiet =>
    have hlive : h.Live id := contains_iff_live.mp (Bool.and_eq_true_iff.mp hquiet).1
    rw [hseen hlive, hk.get?_apply ha hlive hl]
  next => rfl

theorem Kept.lastSeen_eq_get? {actions : List Action} (hk : h.Kept)
    (hset : ∀ v, .set id v ∉ actions) (hseen : h.Live id → seen id = h.get? id)
    (hl : (h.perform actions).Live id) :
    h.lastSeen seen actions id = (h.perform actions).get? id := by
  induction actions generalizing h seen with
  | nil => exact hseen hl
  | cons a as ih =>
      have ha (v : Value) : a ≠ .set id v := fun heq => hset v (heq ▸ List.mem_cons_self)
      have has (v : Value) : .set id v ∉ as := fun hmem => hset v (List.mem_cons_of_mem a hmem)
      exact ih (hk.apply a) has (hk.look_eq_get? ha hseen) hl

end history

theorem freed_bytes_match_iff (p : Policy) (c : Clock) (actions : List Action) (a : Action) :
    let start := empty p c
    let before := start.perform actions
    let after := a.apply before
    let gone := before.lost after
    let seen := start.lastSeen (fun _ => none) actions
    after.stats.freed = before.stats.freed + total (gone.map (bytes seen)) ∧
    (after.stats.freed = before.stats.freed + total (gone.map (bytes before.get?)) ↔
      total (gone.map (bytes seen)) = total (gone.map (bytes before.get?))) ∧
    ((∀ id ∈ gone, ∀ v, .set id v ∉ actions) →
      after.stats.freed = before.stats.freed + total (gone.map (bytes before.get?))) := by
  intro start before after gone seen
  have hf : before.Followed seen := (followed_empty p c).perform actions
  have hlive : ∀ id ∈ gone, before.Live id :=
    fun id hid => (hf.kept.listed id).mp (mem_lost.mp hid).1
  have hfreed : after.stats.freed = before.stats.freed + total (gone.map (bytes seen)) := by
    rw [← List.map_congr_left fun id hid => hf.known id (hlive id hid)]
    exact hf.kept.freed_apply a
  refine ⟨hfreed, by rw [hfreed, Nat.add_left_cancel_iff], fun hset => ?_⟩
  have hsame : ∀ id ∈ gone, bytes seen id = bytes before.get? id := by
    intro id hid
    have hseen : seen id = before.get? id := (kept_empty p c).lastSeen_eq_get? (hset id hid)
      (fun hl => absurd hl (by simp [empty, Live])) (hlive id hid)
    rw [bytes, bytes, hseen]
  rw [hfreed, List.map_congr_left hsame]

theorem replaced_garbage_is_miscounted :
    let before := (empty Policy.default (.ticking 0 0)).perform
      [.allocate .ascending (.int 1), .set 0 (.str "replaced")]
    let after := before.collectIn .ascending
    before.lost after = [0] ∧ before.get? 0 = some (.str "replaced") ∧
      total ((before.lost after).map (bytes before.get?)) = 16 ∧
      after.stats.freed = before.stats.freed + 8 := by
  intro before after
  have hk : before.Kept := (kept_empty _ _).perform _
  have hvalue : before.get? 0 = some (.str "replaced") := rfl
  have hdead : ¬ after.Live 0 := by
    rw [hk.live_collectIn]
    rintro ⟨_, r, hroot, _⟩
    have hroots : before.roots = ∅ := rfl
    simp [isRoot, hroots] at hroot
  have hlost : before.lost after = [0] := by
    have hids : before.ids = [0] := rfl
    simp [lost, hids, contains_eq_false_iff.mpr hdead]
  have hfreed : after.stats.freed =
      before.stats.freed + total ((before.lost after).map before.sizeAt) :=
    hk.freed_apply (.collect .ascending)
  refine ⟨hlost, hvalue, ?_, ?_⟩
  · rw [hlost]
    rfl
  · rw [hfreed, hlost]
    rfl

end Toolchain.Heap
