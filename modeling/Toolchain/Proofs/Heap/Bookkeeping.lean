import Mathlib.Data.List.Sort
import Toolchain.Proofs.Heap.Moves

namespace Toolchain

@[simp]
theorem total_nil : total [] = 0 := rfl

@[simp]
theorem total_cons (n : Nat) (ns : List Nat) : total (n :: ns) = n + total ns := rfl

theorem total_append (ms ns : List Nat) : total (ms ++ ns) = total ms + total ns := by
  induction ms with
  | nil => simp
  | cons m ms ih => simp [ih, Nat.add_assoc]

theorem total_filter_add {α : Type} (p : α → Bool) (f : α → Nat) (xs : List α) :
    total ((xs.filter p).map f) + total ((xs.filter (!p ·)).map f) = total (xs.map f) := by
  induction xs with
  | nil => rfl
  | cons x xs ih =>
      cases hx : p x with
      | false => simp [hx, ← ih, Nat.add_left_comm]
      | true => simp [hx, ← ih, Nat.add_assoc]

namespace Object

def SameValue (o o' : Object) : Prop := o'.value = o.value

def Flags (o o' : Object) : Prop := o'.dirty = true ∨ o.SameValue o'

theorem SameValue.refl (o : Object) : o.SameValue o := rfl

theorem Flags.refl (o : Object) : o.Flags o := .inr rfl

def Sized (o : Object) : Prop := o.size = o.value.size

def Measured (o : Object) : Prop := o.dirty = false → o.Sized

theorem Sized.size_current {o : Object} (h : o.Sized) : o.current.size = o.size := by
  unfold current
  split
  · exact h.symm
  · rfl

theorem Measured.sized_current {o : Object} (h : o.Measured) : o.current.Sized := by
  unfold current
  split
  next => rfl
  next hd => exact h (by simpa using hd)

end Object

namespace Heap

variable {h h' : Heap} {id : ObjectId} {v : Value} {R : Object → Object → Prop} {vs : List Value}
  {n : Nat}

section books

structure Bookkept (h : Heap) : Prop where
  increasing : h.ids.Pairwise (· < ·)
  below : ∀ id ∈ h.ids, id < h.nextId
  listed : ∀ id, id ∈ h.ids ↔ h.Live id
  young : ∀ id ∈ h.young, h.generation? id = some .young
  old : ∀ id ∈ h.old, h.generation? id = some .old
  balance : h.count + h.stats.reclaimed = h.nextId

theorem count_eq_length_ids (h : Heap) : h.count = h.ids.length := by
  simp [count, ids, Nat.add_comm]

theorem ids_place (h : Heap) (v : Value) : (h.place v).ids = h.ids ++ [h.nextId] := by
  simp [ids, place]

theorem generation?_place (hne : id ≠ h.nextId) :
    (h.place v).generation? id = h.generation? id := by
  rw [generation?, generation?, getElem?_place, if_neg hne]

theorem bookkept_empty (p : Policy) (c : Clock) : (empty p c).Bookkept where
  increasing := by simp [empty, ids]
  below := by simp [empty, ids]
  listed := (kept_empty p c).listed
  young := by simp [empty]
  old := by simp [empty]
  balance := rfl

theorem Bookkept.edits (hb : h.Bookkept) (he : h.Edits h') : h'.Bookkept where
  increasing := by rw [he.ids]; exact hb.increasing
  below := by rw [he.ids, he.nextId]; exact hb.below
  listed := fun id => by rw [he.ids, he.live]; exact hb.listed id
  young := fun id hid => by rw [he.generation?]; exact hb.young id (he.young ▸ hid)
  old := fun id hid => by rw [he.generation?]; exact hb.old id (he.old ▸ hid)
  balance := by rw [count, he.young, he.old, he.nextId, he.stats]; exact hb.balance

theorem Bookkept.place (hb : h.Bookkept) (v : Value) : (h.place v).Bookkept where
  increasing := by
    rw [ids_place, List.pairwise_append]
    refine ⟨hb.increasing, List.pairwise_singleton _ _, fun a ha b hlast => ?_⟩
    rw [List.mem_singleton.mp hlast]
    exact hb.below a ha
  below := fun id hid => by
    rw [ids_place, List.mem_append, List.mem_singleton] at hid
    rcases hid with hid | rfl
    · exact Nat.lt_succ_of_lt (hb.below id hid)
    · exact Nat.lt_succ_self _
  listed := fun id => by
    rw [ids_place, List.mem_append, List.mem_singleton, live_place, hb.listed, or_comm]
  young := fun id hid => by
    rcases Array.mem_push.mp hid with hid | rfl
    · have hne : id ≠ h.nextId := Nat.ne_of_lt (hb.below id (by simp [ids, hid]))
      rw [generation?_place hne]
      exact hb.young id hid
    · rw [generation?, getElem?_place, if_pos rfl]
      rfl
  old := fun id hid => by
    have hne : id ≠ h.nextId := Nat.ne_of_lt (hb.below id (by simp [ids, show id ∈ h.old from hid]))
    rw [generation?_place hne]
    exact hb.old id hid
  balance := by
    have hcount : (h.place v).count = h.count + 1 := by
      simp [count, Heap.place, Nat.add_right_comm]
    have hbal := hb.balance
    change (h.place v).count + h.stats.reclaimed = h.nextId + 1
    omega

theorem Bookkept.collectFrom (hb : h.Bookkept) (start : List ObjectId) :
    (h.collectFrom start).Bookkept where
  increasing := by rw [ids_collectFrom]; exact hb.increasing.filter _
  below := fun id hid => by
    rw [ids_collectFrom, List.mem_filter] at hid
    exact hb.below id hid.1
  listed := fun id => by
    rw [ids_collectFrom, List.mem_filter, contains_reachable_iff, hb.listed]
    exact and_iff_right_of_imp fun hl => (live_collectFrom_iff_from.mp hl).1
  young := fun id hid => by simp [young_collectFrom] at hid
  old := fun id hid => by
    have hmem : id ∈ (h.collectFrom start).ids := by simp [ids, hid]
    rw [ids_collectFrom, List.mem_filter, contains_reachable_iff] at hmem
    exact (survivor_collectFrom hmem.2).2.2
  balance := by
    have hsplit := List.length_eq_length_filter_add (l := h.ids)
      ((reachable h.objects start).contains ·)
    have hbal := hb.balance
    rw [count_eq_length_ids, ids_collectFrom]
    rw [count_eq_length_ids] at hbal
    simp only [Heap.collectFrom]
    omega

theorem Moves.bookkept (hm : Moves R h vs n h') (hb : h.Bookkept) : h'.Bookkept := by
  induction hm with
  | edit he _ => exact hb.edits he
  | place h v => exact hb.place v
  | collect h start => exact hb.collectFrom start
  | trans _ _ ih₁ ih₂ => exact ih₂ (ih₁ hb)

theorem Moves.collections (hm : Moves R h vs n h') :
    h'.stats.collections = h.stats.collections + n := by
  induction hm with
  | edit he _ => rw [he.stats]; rfl
  | place h v => rfl
  | collect h start => rfl
  | trans _ _ ih₁ ih₂ => rw [ih₂, ih₁, Nat.add_assoc]

theorem one_le_adjust (t : Tuning) (threshold : Int64) (s : HeapStats) :
    1 ≤ (t.adjust threshold s).toInt := by
  have hclamp (next : Int64) : 1 ≤ (if next < 1 then 1 else next).toInt := by
    split
    next => decide
    next hlt => exact Int64.le_iff_toInt_le.mp (Int64.not_lt.mp hlt)
  exact hclamp _

theorem Moves.threshold (hm : Moves R h vs n h') (ht : 1 ≤ h.threshold.toInt ∨ 0 < n) :
    1 ≤ h'.threshold.toInt := by
  -- before the first collection the threshold is the policy's, which may be anything
  induction hm with
  | edit he _ =>
      rw [he.threshold]
      exact ht.resolve_right (Nat.lt_irrefl 0)
  | place h v => exact ht.resolve_right (Nat.lt_irrefl 0)
  | collect h start => exact one_le_adjust _ _ _
  | trans _ _ ih₁ ih₂ =>
      rcases ht with ht | hpos
      · exact ih₂ (.inl (ih₁ (.inl ht)))
      · rcases Nat.add_pos_iff_pos_or_pos.mp hpos with hm | hn
        · exact ih₂ (.inl (ih₁ (.inr hm)))
        · exact ih₂ (.inr hn)

end books

section lifetime

def Reclaimed (h : Heap) (id : ObjectId) : Prop := id < h.nextId ∧ ¬ h.Live id

theorem Moves.reclaimed (hm : Moves R h vs n h') (hr : h.Reclaimed id) : h'.Reclaimed id := by
  induction hm with
  | edit he _ => exact ⟨he.nextId ▸ hr.1, fun hl => hr.2 ((he.live id).mp hl)⟩
  | place h v =>
      refine ⟨Nat.lt_succ_of_lt hr.1, fun hl => ?_⟩
      rcases live_place.mp hl with heq | hl
      · exact Nat.ne_of_lt hr.1 heq
      · exact hr.2 hl
  | collect h start => exact ⟨hr.1, fun hl => hr.2 (live_collectFrom_iff_from.mp hl).1⟩
  | trans _ _ ih₁ ih₂ => exact ih₂ (ih₁ hr)

theorem Bookkept.lt_nextId (hb : h.Bookkept) {g : Generation} (hg : h.generation? id = some g) :
    id < h.nextId := by
  obtain ⟨o, ho, _⟩ := Option.map_eq_some_iff.mp hg
  exact hb.below id ((hb.listed id).mpr (live_iff_object.mpr ⟨o, ho⟩))

theorem Moves.old (hm : Moves R h vs n h') (hb : h.Bookkept)
    (hg : h.generation? id = some .old) :
    h'.generation? id = some .old ∨ h'.Reclaimed id := by
  induction hm with
  | edit he _ => exact .inl ((he.generation? id).trans hg)
  | place h v => exact .inl ((generation?_place (Nat.ne_of_lt (hb.lt_nextId hg))).trans hg)
  | collect h start =>
      by_cases hl : (h.collectFrom start).Live id
      · exact .inl (survivor_collectFrom hl).2.2
      · exact .inr ⟨hb.lt_nextId hg, hl⟩
  | trans hm₁ hm₂ ih₁ ih₂ =>
      -- an id that is gone half way does not come back, so it has no generation at the end
      rcases ih₁ hb hg with hg | hr
      · exact ih₂ (hm₁.bookkept hb) hg
      · exact .inr (hm₂.reclaimed hr)

end lifetime

section index

def cells (h : Heap) (g : Generation) (ids : List ObjectId) :
    List (ObjectId × Generation × Object) :=
  ids.filterMap fun id => h.objects[id]?.map fun o => (id, g, o)

def search (h : Heap) (id : ObjectId) : Option (Generation × Object) :=
  (h.cells .young h.young.toList ++ h.cells .old h.old.toList).lookup id

theorem lookup_cells (h : Heap) (g : Generation) (ids : List ObjectId) (id : ObjectId) :
    (h.cells g ids).lookup id =
      if id ∈ ids then h.objects[id]?.map fun o => (g, o) else none := by
  induction ids with
  | nil => rfl
  | cons a as ih =>
      rw [cells] at ih ⊢
      by_cases ha : id = a
      · subst ha
        cases ho : h.objects[id]? with
        | none => simp [ho, ih]
        | some o => simp [ho]
      · have hbeq : (id == a) = false := by simpa using ha
        cases ho : h.objects[a]? with
        | none => simp [ho, ih, ha]
        | some o => simp [ho, ih, ha, hbeq, List.lookup_cons]

theorem Bookkept.search_eq (hb : h.Bookkept) (id : ObjectId) :
    h.search id = h.objects[id]?.map fun o => (o.generation, o) := by
  rw [search, List.lookup_append, lookup_cells, lookup_cells]
  cases ho : h.objects[id]? with
  | none => simp
  | some o =>
      have hgen : h.generation? id = some o.generation := by rw [generation?, ho]; rfl
      have hmem : id ∈ h.old.toList ∨ id ∈ h.young.toList :=
        List.mem_append.mp ((hb.listed id).mpr (live_iff_object.mpr ⟨o, ho⟩))
      by_cases hy : id ∈ h.young.toList
      · have hg := hgen.symm.trans (hb.young id (Array.mem_toList_iff.mp hy))
        simp [hy, Option.some.inj hg]
      · have hold := hmem.resolve_right hy
        have hg := hgen.symm.trans (hb.old id (Array.mem_toList_iff.mp hold))
        simp [hy, hold, Option.some.inj hg]

theorem Bookkept.keys_eq (hb : h.Bookkept) : h.objects.keys = h.ids := by
  have hkeys : h.objects.keys.Pairwise (· < ·) := by
    refine Std.TreeMap.ordered_keys.imp fun {a b} hab => ?_
    exact Nat.compare_eq_lt.mp hab
  have hmem (id : ObjectId) : id ∈ h.objects.keys ↔ id ∈ h.ids := by
    rw [Std.TreeMap.mem_keys, hb.listed, Live]
  have hperm : h.objects.keys.Perm h.ids :=
    (List.perm_ext_iff_of_nodup (hkeys.imp Nat.ne_of_lt) (hb.increasing.imp Nat.ne_of_lt)).mpr hmem
  exact hperm.eq_of_pairwise (fun a b _ _ hab hba => absurd hab (Nat.lt_asymm hba)) hkeys
    hb.increasing

end index

section memory

def weight (h : Heap) : Nat := total (h.ids.map fun id => ((h.get? id).map Value.size).getD 0)

def All (P : Object → Prop) (h : Heap) : Prop :=
  ∀ (id : ObjectId) (o : Object), h.objects[id]? = some o → P o

theorem Moves.all {P : Object → Prop} (hm : Moves R h vs n h')
    (hedit : ∀ o o', o.Edited o' → R o o' → P o → P o') (hplace : ∀ v, P (.ofValue v))
    (hcollect : ∀ o, P o → P (promote o.current)) (hall : h.All P) : h'.All P := by
  induction hm with
  | edit he hR =>
      intro id o' ho'
      obtain ⟨o, ho⟩ := live_iff_object.mp ((he.live id).mp (live_iff_object.mpr ⟨o', ho'⟩))
      exact hedit o o' (he.edited id o o' ho ho') (hR id o o' ho ho') (hall id o ho)
  | place h v =>
      intro id o ho
      rw [getElem?_place] at ho
      split at ho
      · exact Option.some.inj ho ▸ hplace v
      · exact hall id o ho
  | collect h start =>
      intro id p hp
      obtain ⟨_, o, ho, rfl⟩ := (getElem?_collectFrom h start id p).mp hp
      exact hcollect o (hall id o ho)
  | trans _ _ ih₁ ih₂ => exact ih₂ (ih₁ hall)

theorem sizeAt_of_sized (hall : h.All Object.Sized) (id : ObjectId) :
    h.sizeAt id = ((h.get? id).map Value.size).getD 0 := by
  rw [sizeAt, get?]
  cases ho : h.objects[id]? with
  | none => rfl
  | some o => exact hall id o ho

theorem memory_eq_weight (hall : h.All Object.Sized) : h.memory = h.weight := by
  rw [memory, weight]
  exact congrArg total (List.map_congr_left fun id _ => sizeAt_of_sized hall id)

theorem memory_collectFrom (hall : h.All Object.Sized) (start : List ObjectId) :
    (h.collectFrom start).memory + (h.collectFrom start).stats.freed =
      h.memory + h.stats.freed := by
  -- a flagged survivor is measured again, but its value is the one measured before
  have hsize : ∀ id ∈ (h.collectFrom start).ids, (h.collectFrom start).sizeAt id = h.sizeAt id := by
    intro id hid
    rw [ids_collectFrom, List.mem_filter, contains_reachable_iff] at hid
    obtain ⟨p, hp⟩ := live_iff_object.mp hid.2
    obtain ⟨_, o, ho, rfl⟩ := (getElem?_collectFrom h start id p).mp hp
    simp [sizeAt, hp, ho, promote, (hall id o ho).size_current]
  have hsplit := total_filter_add ((reachable h.objects start).contains ·) h.sizeAt h.ids
  rw [memory, List.map_congr_left hsize, ids_collectFrom]
  simp only [collectFrom, memory]
  omega

theorem Bookkept.memory_place (hb : h.Bookkept) (v : Value) :
    (h.place v).memory = h.memory + v.size := by
  have hsize : ∀ id ∈ h.ids, (h.place v).sizeAt id = h.sizeAt id := by
    intro id hid
    rw [sizeAt, sizeAt, getElem?_place, if_neg (Nat.ne_of_lt (hb.below id hid))]
  have hnew : (h.place v).sizeAt h.nextId = v.size := by
    rw [sizeAt, getElem?_place, if_pos rfl]
    rfl
  rw [memory, ids_place, List.map_append, List.map_congr_left hsize, total_append,
    List.map_singleton, hnew]
  rfl

theorem Edits.memory (he : h.Edits h') : h'.memory = h.memory := by
  rw [Heap.memory, Heap.memory, he.ids]
  exact congrArg total (List.map_congr_left fun id _ => he.sizeAt id)

theorem Moves.sized (hm : Moves Object.SameValue h vs n h')
    (hall : h.All Object.Sized) : h'.All Object.Sized := by
  refine hm.all ?_ (fun _ => rfl) ?_ hall
  · intro o o' hedit hvalue hsized
    rw [Object.Sized, hedit.size, hvalue]
    exact hsized
  · intro o hsized
    exact Object.Measured.sized_current fun _ => hsized

theorem Moves.measured (hm : Moves Object.Flags h vs n h')
    (hall : h.All Object.Measured) : h'.All Object.Measured := by
  refine hm.all ?_ (fun _ _ => rfl) ?_ hall
  · intro o o' hedit hchange hmeasured hclean
    have hvalue : o'.value = o.value := hchange.resolve_left (by simp [hclean])
    have hbefore : o.dirty = false := by
      cases hd : o.dirty with
      | false => rfl
      | true => rw [hedit.dirty hd] at hclean; exact hclean
    rw [Object.Sized, hedit.size, hvalue]
    exact hmeasured hbefore
  · intro o hmeasured _
    exact hmeasured.sized_current

theorem Moves.memory_add_freed (hm : Moves Object.SameValue h vs n h')
    (hb : h.Bookkept) (hall : h.All Object.Sized) :
    h'.memory + h'.stats.freed = h.memory + h.stats.freed + total (vs.map Value.size) := by
  induction hm with
  | edit he _ => rw [he.memory, he.stats]; rfl
  | place h v =>
      have hfreed : (h.place v).stats.freed = h.stats.freed := rfl
      rw [hb.memory_place, hfreed]
      simp only [List.map_singleton, total_cons, total_nil]
      omega
  | collect h start => exact memory_collectFrom hall start
  | trans hm₁ _ ih₁ ih₂ =>
      rw [ih₂ (hm₁.bookkept hb) (hm₁.sized hall), ih₁ hb hall]
      rw [List.map_append, total_append, Nat.add_assoc]

theorem all_empty (P : Object → Prop) (p : Policy) (c : Clock) : (empty p c).All P := by
  intro id o ho
  simp [empty] at ho

end memory

section runs

def Keeps (h : Heap) (e : Event) : Prop :=
  ∀ id, h.Live id → (e.apply h).Live id → (e.apply h).get? id = h.get? id

def Pending (h : Heap) (id : ObjectId) : Prop := ∃ o, h.objects[id]? = some o ∧ o.dirty = true

def KeepsOrReplaces (h : Heap) (e : Event) : Prop :=
  h.Keeps e ∨ (∃ id v, e = .act (.set id v)) ∨ ∃ id v, e = .write id v ∧ h.Pending id

theorem Keeps.across {e : Event} (hk : h.Keeps e) :
    Across Object.SameValue h (e.apply h) := by
  intro id o o' ho ho'
  have hv := hk id (live_iff_object.mpr ⟨o, ho⟩) (live_iff_object.mpr ⟨o', ho'⟩)
  simpa [Object.SameValue, get?, ho, ho'] using hv

theorem KeepsOrReplaces.across {e : Event} (hr : h.KeepsOrReplaces e) :
    Across Object.Flags h (e.apply h) := by
  rcases hr with hk | ⟨a, v, rfl⟩ | ⟨a, v, rfl, q, hq, hdirty⟩
  · exact fun id o o' ho ho' => .inr (hk.across id o o' ho ho')
  · exact across_modify_getD Object.Flags.refl fun _ _ => .inl rfl
  · refine across_modify_getD Object.Flags.refl fun o ho => .inl ?_
    rw [hq] at ho
    exact Option.some.inj ho ▸ hdirty

theorem sized_of_collects (hall : h.All Object.Measured) {e : Event} (he : e.collects h = true) :
    (e.apply h).All Object.Sized := by
  have hquiet : e.collects h = false → Across Object.Flags h (e.apply h) := by
    intro hno
    exact absurd (he.symm.trans hno) (by simp)
  obtain ⟨h₁, roots, hm, heq⟩ := Event.prepares Object.Flags.refl h e hquiet
  rw [heq, he, if_pos rfl]
  intro id q hq
  obtain ⟨_, o, ho, rfl⟩ := (getElem?_collectFrom h₁ roots id q).mp hq
  exact (hm.measured hall id o ho).sized_current

theorem run_keeps_books (p : Policy) (c : Clock) (events : List Event) :
    let start := empty p c
    let h := start.run events
    h.Bookkept ∧ h.objects.keys = h.ids ∧
    (∀ id, h.get? id = (h.search id).map (·.2.value) ∧
      h.generation? id = (h.search id).map (·.1) ∧
      ∀ f, h.modify id f =
        (h.search id).map fun c => { h with objects := h.objects.insert id (f c.2) }) ∧
    h.stats.collections = start.cycles events ∧
    (0 < start.cycles events → 1 ≤ h.threshold.toInt) ∧
    (∀ more id, (h.Reclaimed id → (h.run more).Reclaimed id) ∧
      (h.generation? id = some .old →
        (h.run more).generation? id = some .old ∨ (h.run more).Reclaimed id)) ∧
    (start.Along Keeps events →
      h.memory + h.stats.freed = total ((events.flatMap Event.placed).map Value.size)) ∧
    (start.Along KeepsOrReplaces events → ∀ e : Event, e.collects h = true →
      (e.apply h).memory = (e.apply h).weight) := by
  intro start h
  have hmoves (g : Heap) (es : List Event) :
      Moves (fun _ _ => True) g (es.flatMap Event.placed) (g.cycles es) (g.run es) :=
    moves_run (fun _ => trivial) es (along_of_forall (fun _ _ _ _ _ _ _ => trivial) g es)
  have hb₀ : start.Bookkept := bookkept_empty p c
  have hb : h.Bookkept := (hmoves start events).bookkept hb₀
  refine ⟨hb, hb.keys_eq, fun id => ?_, ?_, ?_, fun more id => ?_, fun hkeeps => ?_, ?_⟩
  · rw [hb.search_eq, Option.map_map, Option.map_map]
    refine ⟨rfl, rfl, fun f => ?_⟩
    rw [Option.map_map]
    rfl
  · exact (hmoves start events).collections.trans (Nat.zero_add _)
  · exact fun hpos => (hmoves start events).threshold (.inr hpos)
  · exact ⟨(hmoves h more).reclaimed, (hmoves h more).old hb⟩
  · have hm := moves_run Object.SameValue.refl events (hkeeps.mono fun _ _ => Keeps.across)
    exact (hm.memory_add_freed hb₀ (all_empty _ p c)).trans (Nat.zero_add _)
  · intro hsets e he
    have hm := moves_run Object.Flags.refl events (hsets.mono fun _ _ => KeepsOrReplaces.across)
    exact memory_eq_weight (sized_of_collects (hm.measured (all_empty _ p c)) he)

end runs

end Heap

end Toolchain
