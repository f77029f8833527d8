import Toolchain.Proofs.Heap.Runs

namespace Toolchain

/-- `o'` may stand where `o` stood without the heap having looked at its value again. -/
structure Object.Edited (o o' : Object) : Prop where
  generation : o'.generation = o.generation
  size : o'.size = o.size
  dirty : o.dirty = true → o'.dirty = true

theorem Object.Edited.refl (o : Object) : o.Edited o := ⟨rfl, rfl, id⟩

namespace Heap

variable {h h' : Heap} {id : ObjectId} {R : Object → Object → Prop}

/-- What can happen to a heap: an action, the question whether a collection is due, a value changed
in place, or a new value written through a pointer that was handed out before. -/
inductive Event where
  | act (a : Action)
  | poll
  | mutate (c : Value.Change)
  | write (id : ObjectId) (v : Value)

def Event.apply (h : Heap) : Event → Heap
  | .act a => a.apply h
  | .poll => h.shouldCollect.2
  | .mutate c => h.refresh c
  | .write id v => (h.modify id fun o => { o with value := v }).getD h

def run (h : Heap) (events : List Event) : Heap := events.foldl Event.apply h

def Event.placed : Event → List Value
  | .act (.allocate _ v) => [v]
  | _ => []

def Event.collects (h : Heap) : Event → Bool
  | .act (.allocate _ v) => (h.place v).shouldCollect.1
  | .act (.collect _) => true
  | _ => false

def cycles (h : Heap) : List Event → Nat
  | [] => 0
  | e :: es => (e.collects h).toNat + cycles (e.apply h) es

def Along (P : Heap → Event → Prop) (h : Heap) : List Event → Prop
  | [] => True
  | e :: es => P h e ∧ Along P (e.apply h) es

theorem Along.mono {P Q : Heap → Event → Prop} (hPQ : ∀ h e, P h e → Q h e)
    {events : List Event} (ha : h.Along P events) : h.Along Q events := by
  induction events generalizing h with
  | nil => trivial
  | cons e es ih => exact ⟨hPQ h e ha.1, ih ha.2⟩

theorem along_of_forall {P : Heap → Event → Prop} (hP : ∀ h e, P h e) (h : Heap)
    (events : List Event) : h.Along P events := by
  induction events generalizing h with
  | nil => trivial
  | cons e es ih => exact ⟨hP h e, ih (e.apply h)⟩

def Across (R : Object → Object → Prop) (h h' : Heap) : Prop :=
  ∀ (id : ObjectId) (o o' : Object), h.objects[id]? = some o → h'.objects[id]? = some o' → R o o'

theorem across_of_objects (hR : ∀ o, R o o) (ho : h'.objects = h.objects) : Across R h h' := by
  intro id o o' hid hid'
  rw [ho, hid] at hid'
  exact Option.some.inj hid' ▸ hR o

theorem across_modify_getD {f : Object → Object} (hR : ∀ o, R o o)
    (hf : ∀ o, h.objects[id]? = some o → R o (f o)) : Across R h ((h.modify id f).getD h) := by
  intro a o o' ho ho'
  cases hm : h.modify id f with
  | none =>
      rw [hm] at ho'
      exact across_of_objects hR rfl a o o' ho ho'
  | some h' =>
      obtain ⟨q, hq, rfl⟩ := modify_eq_some hm
      rw [hm, Option.getD_some, Std.TreeMap.getElem?_insert] at ho'
      split at ho'
      next heq =>
        rw [← Nat.compare_eq_eq.mp heq, hq] at ho
        rw [← Option.some.inj ho', Option.some.inj ho]
        exact hf o (Option.some.inj ho ▸ hq)
      next =>
        rw [ho] at ho'
        exact Option.some.inj ho' ▸ hR o

structure Edits (h h' : Heap) : Prop where
  young : h'.young = h.young
  old : h'.old = h.old
  nextId : h'.nextId = h.nextId
  stats : h'.stats = h.stats
  threshold : h'.threshold = h.threshold
  live : ∀ id, h'.Live id ↔ h.Live id
  edited : Across Object.Edited h h'

theorem Edits.of_objects (hy : h'.young = h.young) (ho : h'.old = h.old)
    (hn : h'.nextId = h.nextId) (hs : h'.stats = h.stats) (ht : h'.threshold = h.threshold)
    (hobj : h'.objects = h.objects) : h.Edits h' :=
  ⟨hy, ho, hn, hs, ht, fun _ => live_congr hobj, across_of_objects .refl hobj⟩

theorem Edits.refl (h : Heap) : h.Edits h := .of_objects rfl rfl rfl rfl rfl rfl

theorem edits_modify_getD {f : Object → Object} (hf : ∀ o : Object, o.Edited (f o)) :
    h.Edits ((h.modify id f).getD h) := by
  have hframe : ∃ objects, (h.modify id f).getD h = { h with objects } := by
    cases hm : h.modify id f with
    | none => exact ⟨h.objects, rfl⟩
    | some h' =>
        obtain ⟨o, _, rfl⟩ := modify_eq_some hm
        exact ⟨_, rfl⟩
  have hlive (a : ObjectId) : ((h.modify id f).getD h).Live a ↔ h.Live a := live_modify_getD f a
  have hacross : Across Object.Edited h ((h.modify id f).getD h) :=
    across_modify_getD .refl fun o _ => hf o
  obtain ⟨objects, hobjects⟩ := hframe
  rw [hobjects] at hlive hacross ⊢
  exact ⟨rfl, rfl, rfl, rfl, rfl, hlive, hacross⟩

theorem edits_refresh (h : Heap) (c : Value.Change) : h.Edits (h.refresh c) := by
  refine ⟨rfl, rfl, rfl, rfl, rfl, fun id => Std.TreeMap.mem_map, fun id o o' ho ho' => ?_⟩
  simp only [refresh, Std.TreeMap.getElem?_map, ho, Option.map_some, Option.some.injEq] at ho'
  exact ho' ▸ ⟨rfl, rfl, fun hd => hd⟩

theorem edits_poll (h : Heap) : h.Edits h.shouldCollect.2 := by
  obtain ⟨c, hc⟩ := shouldCollect_snd h
  rw [hc]
  exact .of_objects rfl rfl rfl rfl rfl rfl

theorem Edits.ids (he : h.Edits h') : h'.ids = h.ids := by rw [Heap.ids, Heap.ids, he.young, he.old]

theorem Edits.map_object {α : Type} (he : h.Edits h') {f : Object → α}
    (hf : ∀ {o o' : Object}, o.Edited o' → f o' = f o) (id : ObjectId) :
    h'.objects[id]?.map f = h.objects[id]?.map f := by
  have hlive := he.live id
  rw [live_iff_object, live_iff_object] at hlive
  cases ho : h.objects[id]? with
  | none =>
      cases ho' : h'.objects[id]? with
      | none => rfl
      | some o' => simp [ho, ho'] at hlive
  | some o =>
      obtain ⟨o', ho'⟩ := hlive.mpr ⟨o, ho⟩
      rw [ho']
      exact congrArg some (hf (he.edited id o o' ho ho'))

theorem Edits.generation? (he : h.Edits h') (id : ObjectId) :
    h'.generation? id = h.generation? id := he.map_object (·.generation) id

theorem Edits.sizeAt (he : h.Edits h') (id : ObjectId) : h'.sizeAt id = h.sizeAt id := by
  rw [Heap.sizeAt, Heap.sizeAt, he.map_object (·.size)]

/-- From `h` to `h'` by edits that `R` allows, placing the values `vs` in this order and collecting
`n` times. -/
inductive Moves (R : Object → Object → Prop) : Heap → List Value → Nat → Heap → Prop
  | edit {h h' : Heap} (he : h.Edits h') (hR : Across R h h') : Moves R h [] 0 h'
  | place (h : Heap) (v : Value) : Moves R h [v] 0 (h.place v)
  | collect (h : Heap) (start : List ObjectId) : Moves R h [] 1 (h.collectFrom start)
  | trans {h h₁ h₂ : Heap} {vs ws : List Value} {m n : Nat} (first : Moves R h vs m h₁)
      (second : Moves R h₁ ws n h₂) : Moves R h (vs ++ ws) (m + n) h₂

theorem Event.edits {e : Event} (hp : e.placed = []) (hc : e.collects h = false) :
    h.Edits (e.apply h) := by
  cases e with
  | act a =>
      cases a with
      | allocate order v => exact absurd hp (List.cons_ne_nil v [])
      | set id v => exact edits_modify_getD fun _ => ⟨rfl, rfl, fun _ => rfl⟩
      | touch id => exact edits_modify_getD fun _ => ⟨rfl, rfl, fun _ => rfl⟩
      | link source target => exact edits_modify_getD fun _ => ⟨rfl, rfl, fun hd => hd⟩
      | addRoot id => exact .of_objects rfl rfl rfl rfl rfl rfl
      | removeRoot id => exact .of_objects rfl rfl rfl rfl rfl rfl
      | collect order => exact absurd hc (by simp [collects])
      | advance d => exact .of_objects rfl rfl rfl rfl rfl rfl
  | poll => exact edits_poll h
  | mutate c => exact edits_refresh h c
  | write id v => exact edits_modify_getD fun _ => ⟨rfl, rfl, fun hd => hd⟩

theorem Event.prepares (hR : ∀ o, R o o) (h : Heap) (e : Event)
    (he : e.collects h = false → Across R h (e.apply h)) :
    ∃ h₁ start, Moves R h e.placed 0 h₁ ∧
      e.apply h = if e.collects h then h₁.collectFrom start else h₁ := by
  by_cases hplain : e.placed = [] ∧ e.collects h = false
  · obtain ⟨hp, hc⟩ := hplain
    refine ⟨e.apply h, [], ?_, by rw [hc]; rfl⟩
    rw [hp]
    exact .edit (Event.edits hp hc) (he hc)
  · cases e with
    | act a =>
        cases a with
        | allocate order v =>
            obtain ⟨c, hc⟩ := shouldCollect_snd (h.place v)
            have hpoll : Across R (h.place v) (h.place v).shouldCollect.2 :=
              across_of_objects hR (by rw [hc])
            exact ⟨_, _, (Moves.place h v).trans (.edit (edits_poll _) hpoll), snd_allocateIn h order v⟩
        | collect order => exact ⟨h, _, .edit (.refl h) (across_of_objects hR rfl), rfl⟩
        | _ => exact absurd ⟨rfl, rfl⟩ hplain
    | _ => exact absurd ⟨rfl, rfl⟩ hplain

theorem Event.moves (hR : ∀ o, R o o) (h : Heap) (e : Event)
    (he : e.collects h = false → Across R h (e.apply h)) :
    Moves R h e.placed (e.collects h).toNat (e.apply h) := by
  obtain ⟨h₁, start, hm, heq⟩ := Event.prepares hR h e he
  rw [heq]
  cases e.collects h with
  | false => exact hm
  | true => simpa using hm.trans (.collect h₁ start)

theorem moves_run (hR : ∀ o, R o o) (events : List Event)
    (halong : h.Along (fun h e => Across R h (e.apply h)) events) :
    Moves R h (events.flatMap Event.placed) (h.cycles events) (h.run events) := by
  induction events generalizing h with
  | nil => exact .edit (.refl h) (across_of_objects hR rfl)
  | cons e es ih => exact (Event.moves hR h e fun _ => halong.1).trans (ih halong.2)

end Heap

end Toolchain
