import Mathlib.Logic.Relation
import Toolchain.Heap.Trace

namespace Toolchain.Heap

variable {objects pending reached : Objects} {start stack rest : List ObjectId} {id : ObjectId}
  {o : Object}

def Edge (objects : Objects) (a b : ObjectId) : Prop :=
  ∃ o, objects[a]? = some o ∧ b ∈ o.current.edges

def From (objects : Objects) (start : List ObjectId) (id : ObjectId) : Prop :=
  ∃ r ∈ start, Relation.ReflTransGen (Edge objects) r id

theorem From.tail {a b : ObjectId} (h : From objects start a) (he : Edge objects a b) :
    From objects start b := by
  obtain ⟨r, hr, hra⟩ := h
  exact ⟨r, hr, hra.tail he⟩

theorem From.of_closed (P : ObjectId → Prop) (hs : ∀ r ∈ start, P r)
    (he : ∀ a b, P a → Edge objects a b → P b) (h : From objects start id) : P id := by
  obtain ⟨r, hr, hri⟩ := h
  induction hri with
  | refl => exact hs r hr
  | tail _ hab ih => exact he _ _ ih hab

/-- What holds while objects are moved out of `pending`. An id is settled once nothing is pending
under it; `seen` and `onward` are the half that makes the result closed, `waiting` and `found` the
half that keeps it small. -/
structure Tracing (objects : Objects) (start : List ObjectId) (pending reached : Objects)
    (stack : List ObjectId) : Prop where
  split : ∀ id : ObjectId, pending[id]? = objects[id]? ∧ reached[id]? = none ∨
    pending[id]? = none ∧ ∃ o : Object, objects[id]? = some o ∧ reached[id]? = some o.current
  waiting : ∀ id ∈ stack, From objects start id
  found : ∀ (id : ObjectId) (o : Object), reached[id]? = some o → From objects start id
  seen : ∀ id ∈ start, id ∈ stack ∨ pending[id]? = none
  onward : ∀ (id : ObjectId) (o : Object), reached[id]? = some o →
    ∀ b ∈ o.edges, b ∈ stack ∨ pending[b]? = none

namespace Tracing

theorem init (objects : Objects) (start : List ObjectId) :
    Tracing objects start objects {} start where
  split := fun id => .inl ⟨rfl, by simp⟩
  waiting := fun id h => ⟨id, h, .refl⟩
  found := fun id o h => by simp at h
  seen := fun id h => .inl h
  onward := fun id o h => by simp at h

theorem skip (h : Tracing objects start pending reached (id :: rest)) (hp : pending[id]? = none) :
    Tracing objects start pending reached rest := by
  have settle : ∀ b, b ∈ id :: rest ∨ pending[b]? = none → b ∈ rest ∨ pending[b]? = none := by
    rintro b (hb | hb)
    · rcases List.mem_cons.mp hb with rfl | hb
      · exact .inr hp
      · exact .inl hb
    · exact .inr hb
  exact ⟨h.split, fun b hb => h.waiting b (List.mem_cons_of_mem _ hb), h.found,
    fun b hb => settle b (h.seen b hb), fun a p ha b hb => settle b (h.onward a p ha b hb)⟩

theorem lookup_pending (h : Tracing objects start pending reached stack)
    (hp : pending[id]? = some o) : objects[id]? = some o := by
  rcases h.split id with ⟨he, _⟩ | ⟨hn, _⟩
  · rw [← he, hp]
  · rw [hn] at hp
    exact absurd hp (by simp)

theorem visit (h : Tracing objects start pending reached (id :: rest))
    (hp : pending[id]? = some o) :
    Tracing objects start (pending.erase id) (reached.insert id o.current)
      (o.current.edges ++ rest) := by
  have ho := h.lookup_pending hp
  have hid : From objects start id := h.waiting id (List.mem_cons_self ..)
  have settle : ∀ b, b ∈ id :: rest ∨ pending[b]? = none →
      b ∈ o.current.edges ++ rest ∨ (pending.erase id)[b]? = none := by
    rintro b (hb | hb)
    · rcases List.mem_cons.mp hb with rfl | hb
      · exact .inr (by simp)
      · exact .inl (List.mem_append_right _ hb)
    · exact .inr (by simp [Std.TreeMap.getElem?_erase, hb])
  refine ⟨?_, ?_, ?_, fun b hb => settle b (h.seen b hb), ?_⟩
  · intro b
    by_cases hb : id = b
    · subst hb
      exact .inr ⟨by simp, o, ho, by simp⟩
    · simpa [Std.TreeMap.getElem?_erase, Std.TreeMap.getElem?_insert, hb] using h.split b
  · intro b hb
    rcases List.mem_append.mp hb with hb | hb
    · exact hid.tail ⟨o, ho, hb⟩
    · exact h.waiting b (List.mem_cons_of_mem _ hb)
  · intro b p hb
    by_cases hib : id = b
    · exact hib ▸ hid
    · simp only [Std.TreeMap.getElem?_insert, Nat.compare_eq_eq, hib, if_false] at hb
      exact h.found b p hb
  · intro a p ha b hb
    by_cases hia : id = a
    · simp only [Std.TreeMap.getElem?_insert, Nat.compare_eq_eq, hia, if_true,
        Option.some.injEq] at ha
      exact .inl (List.mem_append_left _ (ha ▸ hb))
    · simp only [Std.TreeMap.getElem?_insert, Nat.compare_eq_eq, hia, if_false] at ha
      exact settle b (h.onward a p ha b hb)

theorem run (h : Tracing objects start pending reached stack) :
    Tracing objects start (trace pending reached stack).1 (trace pending reached stack).2 [] := by
  fun_induction trace pending reached stack with
  | case1 => exact h
  | case2 pending reached id rest hp ih => exact ih (h.skip hp)
  | case3 pending reached id rest o hp _ ih => exact ih (h.visit hp)

end Tracing

theorem getElem?_reachable (objects : Objects) (start : List ObjectId) (id : ObjectId)
    (p : Object) : (reachable objects start)[id]? = some p ↔
      From objects start id ∧ ∃ o, objects[id]? = some o ∧ p = o.current := by
  have h := (Tracing.init objects start).run
  constructor
  · intro hp
    refine ⟨h.found id p hp, ?_⟩
    rcases h.split id with ⟨_, hn⟩ | ⟨_, o, ho, hr⟩
    · rw [reachable, hn] at hp
      exact absurd hp (by simp)
    · rw [reachable, hr, Option.some.injEq] at hp
      exact ⟨o, ho, hp.symm⟩
  · rintro ⟨hf, o, ho, rfl⟩
    -- nothing on the stack is left, so every id that can be reached is settled
    have settled : (trace objects {} start).1[id]? = none := by
      refine hf.of_closed (fun b => (trace objects {} start).1[b]? = none) ?_ ?_
      · intro r hr
        simpa using h.seen r hr
      · rintro a b ha ⟨q, hq, hb⟩
        rcases h.split a with ⟨he, _⟩ | ⟨_, q', hq', hr⟩
        · rw [← he, ha] at hq
          exact absurd hq (by simp)
        · rw [hq, Option.some.injEq] at hq'
          subst hq'
          simpa using h.onward a _ hr b hb
    rcases h.split id with ⟨he, _⟩ | ⟨_, o', ho', hr⟩
    · rw [settled, ho] at he
      exact absurd he (by simp)
    · rw [ho, Option.some.injEq] at ho'
      subst ho'
      exact hr

end Toolchain.Heap
