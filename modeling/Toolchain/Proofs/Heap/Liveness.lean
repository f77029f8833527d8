import Toolchain.Heap.Collect
import Toolchain.Proofs.Heap.Tracing

namespace Toolchain

namespace Object

def Accurate (o : Object) : Prop := o.dirty = false → o.scanned = o.value.references

theorem accurate_ofValue (v : Value) : (ofValue v).Accurate := fun _ => rfl

theorem accurate_of_dirty {o : Object} (h : o.dirty = true) : o.Accurate := by
  intro hf
  rw [h] at hf
  exact absurd hf (by simp)

theorem accurate_current {o : Object} (h : o.Accurate) : o.current.Accurate := by
  unfold current
  split
  · exact fun _ => rfl
  · exact h

theorem value_current (o : Object) : o.current.value = o.value := by
  unfold current
  split <;> rfl

theorem linked_current (o : Object) : o.current.linked = o.linked := by
  unfold current
  split <;> rfl

theorem edges_current {o : Object} (h : o.Accurate) :
    o.current.edges = o.value.references ++ o.linked := by
  unfold current
  split
  next => rfl
  next hd => rw [edges, h (by simpa using hd)]

end Object

namespace Heap

variable {h : Heap} {id : ObjectId} {v : Value} {start : List ObjectId}

def Live (h : Heap) (id : ObjectId) : Prop := id ∈ h.objects

def links (h : Heap) (id : ObjectId) : List ObjectId := (h.objects[id]?.map (·.linked)).getD []

def Points (h : Heap) (a b : ObjectId) : Prop :=
  (∃ v, h.get? a = some v ∧ b ∈ v.references) ∨ b ∈ h.links a

def Reaches (h : Heap) (P : ObjectId → Prop) (id : ObjectId) : Prop :=
  ∃ r, P r ∧ h.Live r ∧ Relation.ReflTransGen h.Points r id

theorem live_iff_object : h.Live id ↔ ∃ o, h.objects[id]? = some o := by
  rw [Live, Std.TreeMap.mem_iff_isSome_getElem?, Option.isSome_iff_exists]

theorem live_iff_get? : h.Live id ↔ ∃ v, h.get? id = some v := by
  rw [live_iff_object]
  constructor
  · rintro ⟨o, ho⟩
    exact ⟨o.value, by rw [get?, ho, Option.map_some]⟩
  · rintro ⟨v, hv⟩
    obtain ⟨o, ho, _⟩ := Option.map_eq_some_iff.mp hv
    exact ⟨o, ho⟩

theorem live_congr {h' : Heap} (ho : h'.objects = h.objects) : h'.Live id ↔ h.Live id := by
  rw [Live, Live, ho]

theorem Points.live {a b : ObjectId} (hp : h.Points a b) : h.Live a := by
  rcases hp with ⟨v, hv, _⟩ | hb
  · exact live_iff_get?.mpr ⟨v, hv⟩
  · cases ho : h.objects[a]? with
    | none => simp [links, ho] at hb
    | some o => exact live_iff_object.mpr ⟨o, ho⟩

theorem Reaches.mono {P Q : ObjectId → Prop} (hPQ : ∀ r, P r → Q r) (hr : h.Reaches P id) :
    h.Reaches Q id := by
  obtain ⟨r, hr, hl, hp⟩ := hr
  exact ⟨r, hPQ r hr, hl, hp⟩

theorem Reaches.tail {P : ObjectId → Prop} {a b : ObjectId} (hr : h.Reaches P a)
    (hp : h.Points a b) : h.Reaches P b := by
  obtain ⟨r, hr, hl, hra⟩ := hr
  exact ⟨r, hr, hl, hra.tail hp⟩

theorem reaches_congr {h' : Heap} (ho : h'.objects = h.objects) (P : ObjectId → Prop) :
    h'.Reaches P id ↔ h.Reaches P id := by
  have hp : h'.Points = h.Points := by
    funext a b
    simp only [Points, get?, links, ho]
  simp only [Reaches, live_congr ho, hp]

theorem Reaches.transfer {h' : Heap} {P : ObjectId → Prop} (hr : h.Reaches P id)
    (hl : ∀ a, h.Live a → h.Reaches P a → h'.Live a)
    (hp : ∀ a b, h.Reaches P a → h.Points a b → h'.Points a b) : h'.Reaches P id := by
  obtain ⟨r, hr, hlr, hri⟩ := hr
  refine ⟨r, hr, hl r hlr ⟨r, hr, hlr, .refl⟩, ?_⟩
  induction hri with
  | refl => exact .refl
  | tail hra hab ih => exact ih.tail (hp _ _ ⟨r, hr, hlr, hra⟩ hab)

structure Kept (h : Heap) : Prop where
  listed : ∀ id, id ∈ h.ids ↔ h.Live id
  below : ∀ id, h.Live id → id < h.nextId
  accurate : ∀ (id : ObjectId) (o : Object), h.objects[id]? = some o → o.Accurate

theorem Kept.edge_iff (hk : h.Kept) {a b : ObjectId} : Edge h.objects a b ↔ h.Points a b := by
  cases ho : h.objects[a]? with
  | none => simp [Edge, Points, links, get?, ho]
  | some o =>
      have he := Object.edges_current (hk.accurate a o ho)
      simp [Edge, Points, links, get?, ho, he]

theorem Kept.from_iff (hk : h.Kept) (hl : h.Live id) :
    From h.objects start id ↔ h.Reaches (· ∈ start) id := by
  have hE : Edge h.objects = h.Points := by
    funext a b
    exact propext hk.edge_iff
  rw [From, hE]
  constructor
  · rintro ⟨r, hr, hp⟩
    refine ⟨r, hr, ?_, hp⟩
    rcases hp.cases_head with rfl | ⟨b, hb, _⟩
    · exact hl
    · exact hb.live
  · rintro ⟨r, hr, _, hp⟩
    exact ⟨r, hr, hp⟩

theorem Kept.of_objects {h' : Heap} (hk : h.Kept) (hids : h'.ids = h.ids)
    (ho : h'.objects = h.objects) (hn : h'.nextId = h.nextId) : h'.Kept where
  listed := fun id => by rw [hids, live_congr ho]; exact hk.listed id
  below := fun id hl => by rw [hn]; exact hk.below id ((live_congr ho).mp hl)
  accurate := fun id o hid => hk.accurate id o (ho ▸ hid)

section roots

theorem isRoot_addRoot (h : Heap) (id x : ObjectId) :
    (h.addRoot id).isRoot x = true ↔ x = id ∨ h.isRoot x = true := by
  simp only [isRoot, addRoot, Std.ExtTreeSet.contains_iff_mem, Std.ExtTreeSet.mem_insert,
    Nat.compare_eq_eq, eq_comm (a := x)]

theorem isRoot_removeRoot (h : Heap) (id x : ObjectId) :
    (h.removeRoot id).isRoot x = true ↔ x ≠ id ∧ h.isRoot x = true := by
  simp only [isRoot, removeRoot, Std.ExtTreeSet.contains_iff_mem, Std.ExtTreeSet.mem_erase, ne_eq,
    Nat.compare_eq_eq, eq_comm (a := x)]

theorem roots_ext {h' : Heap} (hr : ∀ x, h'.isRoot x = true ↔ h.isRoot x = true) :
    h'.roots = h.roots := by
  refine Std.ExtTreeSet.ext_mem fun x => ?_
  rw [← Std.ExtTreeSet.contains_iff_mem, ← Std.ExtTreeSet.contains_iff_mem]
  exact hr x

theorem roots_addRoot_of_isRoot (hr : h.isRoot id = true) : (h.addRoot id).roots = h.roots := by
  refine roots_ext fun x => (h.isRoot_addRoot id x).trans (or_iff_right_of_imp ?_)
  rintro rfl
  exact hr

theorem roots_removeRoot_addRoot (hr : h.isRoot id ≠ true) :
    ((h.addRoot id).removeRoot id).roots = h.roots := by
  refine roots_ext fun x => ?_
  rw [isRoot_removeRoot, isRoot_addRoot, and_or_left, not_and_self_iff, false_or]
  refine and_iff_right_of_imp ?_
  rintro hx rfl
  exact hr hx

end roots

section collection

theorem getElem?_collectFrom (h : Heap) (start : List ObjectId) (id : ObjectId) (p : Object) :
    (h.collectFrom start).objects[id]? = some p ↔
      From h.objects start id ∧ ∃ o, h.objects[id]? = some o ∧ p = promote o.current := by
  have hm : (h.collectFrom start).objects[id]? = ((reachable h.objects start)[id]?).map promote :=
    Std.TreeMap.getElem?_map
  rw [hm, Option.map_eq_some_iff]
  constructor
  · rintro ⟨q, hq, rfl⟩
    obtain ⟨hf, o, ho, rfl⟩ := (getElem?_reachable _ _ _ _).mp hq
    exact ⟨hf, o, ho, rfl⟩
  · rintro ⟨hf, o, ho, rfl⟩
    exact ⟨o.current, (getElem?_reachable _ _ _ _).mpr ⟨hf, o, ho, rfl⟩, rfl⟩

theorem live_collectFrom_iff_from :
    (h.collectFrom start).Live id ↔ h.Live id ∧ From h.objects start id := by
  rw [live_iff_object, live_iff_object]
  constructor
  · rintro ⟨p, hp⟩
    obtain ⟨hf, o, ho, _⟩ := (getElem?_collectFrom h start id p).mp hp
    exact ⟨⟨o, ho⟩, hf⟩
  · rintro ⟨⟨o, ho⟩, hf⟩
    exact ⟨_, (getElem?_collectFrom h start id _).mpr ⟨hf, o, ho, rfl⟩⟩

theorem survivor_collectFrom (hl : (h.collectFrom start).Live id) :
    (h.collectFrom start).get? id = h.get? id ∧ (h.collectFrom start).links id = h.links id ∧
      (h.collectFrom start).generation? id = some .old := by
  obtain ⟨p, hp⟩ := live_iff_object.mp hl
  obtain ⟨_, o, ho, rfl⟩ := (getElem?_collectFrom h start id p).mp hp
  refine ⟨?_, ?_, ?_⟩
  · simp [get?, hp, ho, promote, Object.value_current]
  · simp [links, hp, ho, promote, Object.linked_current]
  · simp [generation?, hp, promote]

theorem young_collectFrom (h : Heap) (start : List ObjectId) : (h.collectFrom start).young = #[] :=
  rfl

theorem roots_collectFrom (h : Heap) (start : List ObjectId) :
    (h.collectFrom start).roots = h.roots := rfl

theorem nextId_collectFrom (h : Heap) (start : List ObjectId) :
    (h.collectFrom start).nextId = h.nextId := rfl

theorem ids_collectFrom (h : Heap) (start : List ObjectId) :
    (h.collectFrom start).ids = h.ids.filter ((reachable h.objects start).contains ·) := by
  simp [ids, collectFrom]

theorem contains_reachable_iff :
    (reachable h.objects start).contains id = true ↔ (h.collectFrom start).Live id := by
  rw [Std.TreeMap.contains_iff_mem, Live]
  exact Std.TreeMap.mem_map.symm

theorem Kept.collectFrom (hk : h.Kept) (start : List ObjectId) : (h.collectFrom start).Kept where
  listed := fun id => by
    rw [ids_collectFrom, List.mem_filter, contains_reachable_iff, hk.listed]
    exact and_iff_right_of_imp fun hl => (live_collectFrom_iff_from.mp hl).1
  below := fun id hl => hk.below id (live_collectFrom_iff_from.mp hl).1
  accurate := fun id p hp => by
    obtain ⟨_, o, ho, rfl⟩ := (getElem?_collectFrom h start id p).mp hp
    exact Object.accurate_current (hk.accurate id o ho)

theorem Kept.live_collectFrom (hk : h.Kept) :
    (h.collectFrom start).Live id ↔ h.Live id ∧ h.Reaches (· ∈ start) id := by
  rw [live_collectFrom_iff_from]
  exact and_congr_right fun hl => hk.from_iff hl

theorem points_collectFrom {a b : ObjectId} (hl : (h.collectFrom start).Live a) :
    (h.collectFrom start).Points a b ↔ h.Points a b := by
  obtain ⟨hv, hlinks, _⟩ := survivor_collectFrom hl
  rw [Points, Points, hv, hlinks]

theorem mem_old_collectFrom (hk : h.Kept) :
    id ∈ (h.collectFrom start).old ↔ (h.collectFrom start).Live id := by
  rw [← (hk.collectFrom start).listed id, ids, young_collectFrom]
  simp

end collection

section allocation

theorem roots_collectHolding (h : Heap) (e : Enumeration) (id : ObjectId) :
    (h.collectHolding e id).roots = h.roots := by
  unfold collectHolding
  dsimp only
  split
  next hr => exact roots_addRoot_of_isRoot hr
  next hr => exact roots_removeRoot_addRoot hr

theorem collectHolding_eq (h : Heap) (e : Enumeration) (id : ObjectId) :
    h.collectHolding e id = h.collectFrom (e.order (h.roots.insert id)) := by
  -- but for the roots, neither adding one nor taking it away touches what a collection reads
  have hframe : h.collectHolding e id =
      { h.collectFrom (e.order (h.roots.insert id)) with roots := (h.collectHolding e id).roots } := by
    unfold collectHolding
    dsimp only
    split <;> rfl
  rw [hframe, roots_collectHolding]
  rfl

theorem getElem?_place (h : Heap) (v : Value) (id : ObjectId) :
    (h.place v).objects[id]? = if id = h.nextId then some (.ofValue v) else h.objects[id]? := by
  simp only [place, Std.TreeMap.getElem?_insert, Nat.compare_eq_eq, eq_comm (a := id)]

theorem live_place : (h.place v).Live id ↔ id = h.nextId ∨ h.Live id := by
  rw [live_iff_object, live_iff_object]
  simp only [getElem?_place]
  split
  next heq => simp [heq]
  next hne => simp [hne]

theorem Kept.place (hk : h.Kept) (v : Value) : (h.place v).Kept where
  listed := fun id => by
    have hids : (h.place v).ids = h.ids ++ [h.nextId] := by simp [ids, Heap.place]
    rw [hids, live_place, ← hk.listed]
    simp [or_comm]
  below := fun id hl => by
    rcases live_place.mp hl with rfl | hl
    · exact Nat.lt_succ_self _
    · exact Nat.lt_succ_of_lt (hk.below id hl)
  accurate := fun id o ho => by
    rw [getElem?_place] at ho
    split at ho
    · rw [← Option.some.inj ho]
      exact Object.accurate_ofValue v
    · exact hk.accurate id o ho

theorem shouldCollect_snd (h : Heap) : ∃ c, h.shouldCollect.2 = { h with clock := c } := by
  unfold shouldCollect
  split
  · exact ⟨h.clock, rfl⟩
  · exact ⟨h.clock.read.2, rfl⟩

theorem snd_allocateIn (h : Heap) (e : Enumeration) (v : Value) : (h.allocateIn e v).2 =
    let (due, g) := (h.place v).shouldCollect
    if due then g.collectFrom (e.order (h.roots.insert h.nextId)) else g := by
  obtain ⟨c, hc⟩ := shouldCollect_snd (h.place v)
  have hr : (h.place v).shouldCollect.2.roots = h.roots := by rw [hc]; rfl
  simp only [allocateIn, collectHolding_eq, hr]

theorem allocateIn_cases (e : Enumeration) (h : Heap) (v : Value) :
    ∃ c, (h.allocateIn e v).2 = { h.place v with clock := c } ∨
      (h.allocateIn e v).2 =
        { h.place v with clock := c }.collectFrom (e.order (h.roots.insert h.nextId)) := by
  obtain ⟨c, hc⟩ := shouldCollect_snd (h.place v)
  refine ⟨c, ?_⟩
  rw [← hc, snd_allocateIn]
  dsimp only
  split
  · exact .inr rfl
  · exact .inl rfl

theorem get?_place (hne : id ≠ h.nextId) : (h.place v).get? id = h.get? id := by
  rw [get?, get?, getElem?_place, if_neg hne]

theorem get?_place_self (h : Heap) (v : Value) : (h.place v).get? h.nextId = some v := by
  rw [get?, getElem?_place, if_pos rfl]
  rfl

theorem Kept.reaches_place (hk : h.Kept) {P : ObjectId → Prop} (hr : h.Reaches P id) :
    (h.place v).Reaches P id := by
  refine hr.transfer (fun a ha _ => live_place.mpr (.inr ha)) ?_
  intro a b _ hab
  have hne : a ≠ h.nextId := Nat.ne_of_lt (hk.below a hab.live)
  have hlinks : (h.place v).links a = h.links a := by
    rw [links, links, getElem?_place, if_neg hne]
  rwa [Points, get?_place hne, hlinks]

theorem Kept.live_allocateIn_of_reaches (hk : h.Kept) (e : Enumeration)
    (hl : (h.place v).Live id)
    (hr : (h.place v).Reaches (fun r => r = h.nextId ∨ h.isRoot r = true) id) :
    (h.allocateIn e v).2.Live id := by
  obtain ⟨c, hc | hc⟩ := allocateIn_cases e h v
  · rw [hc]
    exact (live_congr rfl).mpr hl
  · have hkp : { h.place v with clock := c }.Kept := (hk.place v).of_objects rfl rfl rfl
    rw [hc]
    refine hkp.live_collectFrom.mpr ⟨(live_congr rfl).mpr hl, (reaches_congr rfl _).mpr ?_⟩
    refine hr.mono fun r hr => ?_
    rw [e.mem_order, Std.ExtTreeSet.mem_insert, Nat.compare_eq_eq, eq_comm,
      ← Std.ExtTreeSet.contains_iff_mem]
    exact hr

theorem reaches_nextId (h : Heap) (v : Value) :
    (h.place v).Reaches (fun r => r = h.nextId ∨ h.isRoot r = true) h.nextId :=
  ⟨h.nextId, .inl rfl, live_place.mpr (.inl rfl), .refl⟩

theorem Kept.live_allocateIn (hk : h.Kept) (e : Enumeration)
    (hl : id = h.nextId ∨ h.Live id ∧ h.Reaches (h.isRoot · = true) id) :
    (h.allocateIn e v).2.Live id := by
  refine hk.live_allocateIn_of_reaches e (live_place.mpr (hl.imp_right And.left)) ?_
  rcases hl with rfl | ⟨_, hr⟩
  · exact reaches_nextId h v
  · exact (hk.reaches_place hr).mono fun r hr => .inr hr

theorem get?_allocateIn {e : Enumeration} (hl : (h.allocateIn e v).2.Live id) :
    (h.allocateIn e v).2.get? id = (h.place v).get? id := by
  obtain ⟨c, hc | hc⟩ := allocateIn_cases e h v
  · rw [hc]
    rfl
  · rw [hc] at hl ⊢
    exact (survivor_collectFrom hl).1

theorem fst_allocateIn (h : Heap) (e : Enumeration) (v : Value) :
    (h.allocateIn e v).1 = h.nextId := rfl

theorem roots_allocateIn (h : Heap) (e : Enumeration) (v : Value) :
    (h.allocateIn e v).2.roots = h.roots := by
  obtain ⟨c, hc | hc⟩ := allocateIn_cases e h v <;> rw [hc] <;> rfl

theorem nextId_allocateIn (h : Heap) (e : Enumeration) (v : Value) :
    (h.allocateIn e v).2.nextId = h.nextId + 1 := by
  obtain ⟨c, hc | hc⟩ := allocateIn_cases e h v <;> rw [hc] <;> rfl

theorem allocateIn_keeps {P : Heap → Prop} (hp : ∀ c, P { h.place v with clock := c })
    (hc : ∀ g start, P g → P (g.collectFrom start)) (e : Enumeration) :
    P (h.allocateIn e v).2 := by
  obtain ⟨c, hplaced | hcollected⟩ := allocateIn_cases e h v
  · exact hplaced ▸ hp c
  · exact hcollected ▸ hc _ _ (hp c)

theorem Kept.allocateIn (hk : h.Kept) (e : Enumeration) (v : Value) :
    (h.allocateIn e v).2.Kept := by
  refine allocateIn_keeps (fun c => ?_) (fun g start hg => hg.collectFrom start) e
  exact (hk.place v).of_objects rfl rfl rfl

end allocation

section change

variable {h' : Heap} {f : Object → Object}

theorem modify_eq_some (hm : h.modify id f = some h') :
    ∃ o, h.objects[id]? = some o ∧ h' = { h with objects := h.objects.insert id (f o) } := by
  obtain ⟨o, ho, he⟩ := Option.map_eq_some_iff.mp hm
  exact ⟨o, ho, he.symm⟩

theorem live_modify (hm : h.modify id f = some h') (a : ObjectId) : h'.Live a ↔ h.Live a := by
  obtain ⟨o, ho, rfl⟩ := modify_eq_some hm
  simp only [Live, Std.TreeMap.mem_insert, Nat.compare_eq_eq, or_iff_right_iff_imp]
  rintro rfl
  exact live_iff_object.mpr ⟨o, ho⟩

theorem Kept.modify (hk : h.Kept) (hm : h.modify id f = some h')
    (hf : ∀ o, o.Accurate → (f o).Accurate) : h'.Kept := by
  have hl := live_modify hm
  obtain ⟨o, ho, rfl⟩ := modify_eq_some hm
  refine ⟨fun a => (hk.listed a).trans (hl a).symm, fun a ha => hk.below a ((hl a).mp ha), ?_⟩
  intro a p hp
  by_cases ha : id = a
  · simp only [Std.TreeMap.getElem?_insert, Nat.compare_eq_eq, ha, if_true,
      Option.some.injEq] at hp
    exact hp ▸ hf o (hk.accurate id o ho)
  · simp only [Std.TreeMap.getElem?_insert, Nat.compare_eq_eq, ha, if_false] at hp
    exact hk.accurate a p hp

end change

end Heap

end Toolchain
