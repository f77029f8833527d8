import Toolchain.Proofs.Heap.Runs

namespace Toolchain.Heap

variable {h : Heap} {id : ObjectId}

/-- What a run has asked for: how many objects, the value last given to each, the edges added to
each, and the ids made roots. -/
structure Ledger where
  placed : Nat
  value : ObjectId → Option Value
  edges : ObjectId → List ObjectId
  rooted : ObjectId → Bool

namespace Ledger

variable {l : Ledger}

def blank : Ledger := ⟨0, fun _ => none, fun _ => [], fun _ => false⟩

def note (l : Ledger) : Action → Ledger
  | .allocate _ v =>
      { l with
        placed := l.placed + 1
        value := fun a => if a = l.placed then some v else l.value a
        -- an edge that was asked for before there was an object is not there
        edges := fun a => if a = l.placed then [] else l.edges a }
  | .set id v => { l with value := fun a => if a = id then some v else l.value a }
  | .link source target =>
      { l with edges := fun a => if a = source then l.edges a ++ [target] else l.edges a }
  | .addRoot id => { l with rooted := fun a => if a = id then true else l.rooted a }
  | .removeRoot id => { l with rooted := fun a => if a = id then false else l.rooted a }
  | .touch _ | .collect _ | .advance _ => l

def ofActions (actions : List Action) : Ledger := actions.foldl note blank

def Describes (l : Ledger) (h : Heap) : Prop :=
  ∀ (id : ObjectId) (o : Object), h.objects[id]? = some o →
    l.value id = some o.value ∧ l.edges id = o.linked

theorem Describes.collectFrom (hd : l.Describes h) (start : List ObjectId) :
    l.Describes (h.collectFrom start) := by
  intro id p hp
  obtain ⟨_, o, ho, rfl⟩ := (getElem?_collectFrom h start id p).mp hp
  rw [promote, Object.value_current, Object.linked_current]
  exact hd id o ho

theorem Describes.allocateIn (hd : l.Describes h) (hn : h.nextId = l.placed) (e : Enumeration)
    (v : Value) : (l.note (.allocate e v)).Describes (h.allocateIn e v).2 := by
  refine allocateIn_keeps (P := (l.note (.allocate e v)).Describes) (fun c id o ho => ?_)
    (fun g start hg => hg.collectFrom start) e
  have ho : (h.place v).objects[id]? = some o := ho
  rw [getElem?_place, hn] at ho
  simp only [note]
  split at ho
  next heq =>
    rw [if_pos heq, if_pos heq, ← Option.some.inj ho]
    exact ⟨rfl, rfl⟩
  next hne =>
    rw [if_neg hne, if_neg hne]
    exact hd id o ho

theorem Describes.modify_getD {l' : Ledger} {f : Object → Object} (hd : l.Describes h)
    (hid : ∀ o, l.value id = some o.value → l.edges id = o.linked →
      l'.value id = some (f o).value ∧ l'.edges id = (f o).linked)
    (hother : ∀ a, a ≠ id → l'.value a = l.value a ∧ l'.edges a = l.edges a) :
    l'.Describes ((h.modify id f).getD h) := by
  intro a o ho
  rw [getElem?_modify_getD] at ho
  split at ho
  next heq =>
    subst heq
    obtain ⟨q, hq, rfl⟩ := Option.map_eq_some_iff.mp ho
    exact hid q (hd a q hq).1 (hd a q hq).2
  next hne =>
    rw [(hother a hne).1, (hother a hne).2]
    exact hd a o ho

structure Agrees (l : Ledger) (h : Heap) : Prop where
  placed : h.nextId = l.placed
  rooted : ∀ id, h.isRoot id = l.rooted id
  describes : l.Describes h

theorem agrees_empty (p : Policy) (c : Clock) : blank.Agrees (empty p c) where
  placed := rfl
  rooted := fun id => by simp [empty, isRoot, blank]
  describes := fun id o ho => by simp [empty] at ho

theorem Agrees.note (ha : l.Agrees h) (a : Action) : (l.note a).Agrees (a.apply h) := by
  have hframe {f : Object → Object} {id : ObjectId} :
      ((h.modify id f).getD h).nextId = l.placed ∧
        ∀ x, ((h.modify id f).getD h).isRoot x = l.rooted x := by
    rw [nextId_modify_getD]
    refine ⟨ha.placed, fun x => ?_⟩
    rw [isRoot, roots_modify_getD]
    exact ha.rooted x
  cases a with
  | allocate e v =>
      refine ⟨?_, fun id => ?_, ha.describes.allocateIn ha.placed e v⟩
      · exact (nextId_allocateIn h e v).trans (congrArg (· + 1) ha.placed)
      · rw [Action.apply, isRoot, roots_allocateIn]
        exact ha.rooted id
  | set id v =>
      refine ⟨hframe.1, hframe.2, ha.describes.modify_getD (fun o _ he => ?_) fun a hne => ?_⟩
      · exact ⟨if_pos rfl, he⟩
      · exact ⟨if_neg hne, rfl⟩
  | touch id =>
      refine ⟨hframe.1, hframe.2, ha.describes.modify_getD (fun o hv he => ⟨hv, he⟩) ?_⟩
      exact fun _ _ => ⟨rfl, rfl⟩
  | link source target =>
      refine ⟨hframe.1, hframe.2, ha.describes.modify_getD (fun o hv he => ?_) fun a hne => ?_⟩
      · exact ⟨hv, (if_pos rfl).trans (congrArg (· ++ [target]) he)⟩
      · exact ⟨rfl, if_neg hne⟩
  | addRoot id =>
      refine ⟨ha.placed, fun x => ?_, ha.describes⟩
      rw [Bool.eq_iff_iff, Action.apply, isRoot_addRoot, ha.rooted]
      by_cases hx : x = id <;> simp [Ledger.note, hx]
  | removeRoot id =>
      refine ⟨ha.placed, fun x => ?_, ha.describes⟩
      rw [Bool.eq_iff_iff, Action.apply, isRoot_removeRoot, ha.rooted]
      by_cases hx : x = id <;> simp [Ledger.note, hx]
  | collect e => exact ⟨ha.placed, ha.rooted, ha.describes.collectFrom _⟩
  | advance d => exact ⟨ha.placed, ha.rooted, ha.describes⟩

theorem Agrees.perform (ha : l.Agrees h) (actions : List Action) :
    (actions.foldl Ledger.note l).Agrees (h.perform actions) := by
  induction actions generalizing h l with
  | nil => exact ha
  | cons a as ih => exact ih (ha.note a)

theorem Agrees.get?_and_links (ha : l.Agrees h) (hl : h.Live id) :
    h.get? id = l.value id ∧ h.links id = l.edges id := by
  obtain ⟨o, ho⟩ := live_iff_object.mp hl
  obtain ⟨hvalue, hedges⟩ := ha.describes id o ho
  simp [get?, links, ho, hvalue, hedges]

end Ledger

theorem collectIn_reclaims_exactly (p : Policy) (c : Clock) (actions : List Action)
    (e : Enumeration) :
    let asked := Ledger.ofActions actions
    let before := (empty p c).perform actions
    let after := before.collectIn e
    (∀ id, before.Live id → before.get? id = asked.value id ∧ before.links id = asked.edges id) ∧
    (∀ id, before.isRoot id = asked.rooted id) ∧ before.nextId = asked.placed ∧
    (∀ id, after.Live id ↔ before.Live id ∧ before.Reaches (before.isRoot · = true) id) ∧
    (∀ id, after.Live id → after.get? id = before.get? id ∧ after.links id = before.links id ∧
      after.generation? id = some .old ∧ id ∈ after.old) ∧
    after.young = #[] ∧ after.roots = before.roots ∧ after.nextId = before.nextId := by
  intro asked before after
  have hk : before.Kept := (kept_empty p c).perform actions
  have ha : asked.Agrees before := (Ledger.agrees_empty p c).perform actions
  refine ⟨fun id => ha.get?_and_links, ha.rooted, ha.placed, hk.live_collectIn e, ?_,
    young_collectFrom _ _, roots_collectFrom _ _, nextId_collectFrom _ _⟩
  intro id hl
  obtain ⟨hv, hlinks, hg⟩ := survivor_collectFrom hl
  exact ⟨hv, hlinks, hg, (mem_old_collectFrom hk).mpr hl⟩

-- An edge that was added holds object 1, the value put in place of its first holds object 2, and
-- nothing holds object 3.
theorem collectIn_reclaims_exactly_linked :
    let actions : List Action :=
      [.allocate .ascending (.int 5), .allocate .ascending (.int 7),
        .allocate .ascending (.int 9), .allocate .ascending (.int 11),
        .addRoot 0, .link 0 1, .set 1 (.ref 2)]
    let before := (empty .default (.ticking 0 0)).perform actions
    let after := before.collectIn .ascending
    after.links 0 = [1] ∧ after.get? 1 = some (.ref 2) ∧ after.get? 2 = some (.int 9) ∧
      before.Live 3 ∧ ¬ after.Live 3 := by
  intro actions before after
  obtain ⟨hasked, hrooted, -, hlive, hkept, -⟩ :=
    collectIn_reclaims_exactly .default (.ticking 0 0) actions .ascending
  have h0 : before.Reaches (before.isRoot · = true) 0 := ⟨0, hrooted 0, rfl, .refl⟩
  have h1 : before.Reaches (before.isRoot · = true) 1 :=
    h0.tail (.inr ((hasked 0 rfl).2 ▸ List.mem_singleton_self 1))
  have h2 : before.Reaches (before.isRoot · = true) 2 :=
    h1.tail (.inl ⟨.ref 2, (hasked 1 rfl).1, List.mem_singleton_self 2⟩)
  have h3 : ¬ before.Reaches (before.isRoot · = true) 3 := by
    rintro ⟨r, hr, -, hpath⟩
    rcases hpath.cases_tail with rfl | ⟨c, -, hc⟩
    · exact Bool.false_ne_true ((hrooted 3).symm.trans hr)
    · obtain ⟨hvalue, hedges⟩ := hasked c hc.live
      rw [Points, hvalue, hedges] at hc
      simp [actions, Ledger.ofActions, Ledger.note, Ledger.blank] at hc
      grind [Value.references]
  exact ⟨(hkept 0 ((hlive 0).mpr ⟨rfl, h0⟩)).2.1, (hkept 1 ((hlive 1).mpr ⟨rfl, h1⟩)).1,
    (hkept 2 ((hlive 2).mpr ⟨rfl, h2⟩)).1, rfl, fun hl => h3 ((hlive 3).mp hl).2⟩

end Toolchain.Heap
