import Toolchain.Machine.Frame
import Toolchain.Proofs.Heap.Runs

namespace Toolchain

namespace Frame

variable {frame : Frame} {name n : String} {id x : ObjectId}

def Distinct (frame : Frame) : Prop := (frame.bindings.map Prod.fst).Nodup

theorem lookup_filter_ne (bs : List (String × ObjectId)) (name n : String) :
    (bs.filter (·.1 != name)).lookup n = if n = name then none else bs.lookup n := by
  induction bs with
  | nil => simp
  | cons b bs ih =>
      obtain ⟨k, i⟩ := b
      by_cases hk : k = name
      · subst hk
        rw [List.filter_cons_of_neg (by simp), ih]
        by_cases hn : n = k
        · simp [hn]
        · simp [hn, List.lookup_cons, beq_eq_false_iff_ne.mpr hn]
      · rw [List.filter_cons_of_pos (by simpa using hk), List.lookup_cons, List.lookup_cons, ih]
        by_cases hn : n = k
        · simp [hn, hk]
        · simp [beq_eq_false_iff_ne.mpr hn]

theorem get?_bind (frame : Frame) (name n : String) (id : ObjectId) :
    (frame.bind name id).get? n = if n = name then some id else frame.get? n := by
  rw [get?, bind, List.lookup_cons, lookup_filter_ne]
  by_cases hn : n = name
  · simp [hn]
  · simp [hn, beq_eq_false_iff_ne.mpr hn, get?]

theorem Distinct.bind (hd : frame.Distinct) : (frame.bind name id).Distinct := by
  refine List.nodup_cons.mpr ⟨?_, ?_⟩
  · simp
  · exact hd.sublist (List.filter_sublist.map _)

theorem Distinct.get?_of_mem (hd : frame.Distinct) (hm : (n, id) ∈ frame.bindings) :
    frame.get? n = some id := by
  obtain ⟨bs, outer⟩ := frame
  simp only [Distinct, get?] at hd hm ⊢
  induction bs with
  | nil => simp at hm
  | cons b bs ih =>
      obtain ⟨hb, hbs⟩ := List.nodup_cons.mp hd
      rw [List.lookup_cons]
      rcases List.mem_cons.mp hm with rfl | hm
      · simp
      · have hne : n ≠ b.1 := fun he => hb (he ▸ List.mem_map_of_mem hm)
        simp only [beq_eq_false_iff_ne.mpr hne]
        exact ih hbs hm

theorem mem_of_get? (h : frame.get? n = some id) : (n, id) ∈ frame.bindings := by
  obtain ⟨before, after, he, _⟩ := List.lookup_eq_some_iff.mp h
  simp [he]

end Frame

namespace Machine

variable {m m' : Machine} {e : Enumeration} {f g : Nat} {name n : String} {v : Value}
  {id x : ObjectId} {outer : Option Nat}

def held (m : Machine) (f : Nat) (name : String) : Option ObjectId :=
  m.frames[f]?.bind (·.get? name)

def Bound (m : Machine) (id : ObjectId) : Prop := ∃ f name, m.held f name = some id

inductive Nearest (m : Machine) (name : String) : Nat → Nat → Prop
  | here {f : Nat} {frame : Frame} {id : ObjectId} : m.frames[f]? = some frame →
      frame.get? name = some id → Nearest m name f f
  | outward {f g o : Nat} {frame : Frame} : m.frames[f]? = some frame →
      frame.get? name = none → frame.outer = some o → Nearest m name o g → Nearest m name f g

inductive Event where
  | openFrame (outer : Option Nat)
  | bind (e : Enumeration) (f : Nat) (name : String) (v : Value)
  | close (f : Nat)
  | heap (a : Heap.Action)

def Permits (m : Machine) : Heap.Action → Prop
  | .addRoot _ | .removeRoot _ => False
  | .set id _ => ¬ m.Bound id
  | _ => True

inductive Step (m : Machine) : Event → Machine → Prop
  | openFrame {outer : Option Nat} : (∀ o, outer = some o → o < m.frames.size) →
      Step m (.openFrame outer) (m.openFrame outer).2
  | bind {e : Enumeration} {f : Nat} {name : String} {v : Value} {id : ObjectId} {m' : Machine} :
      m.bindIn? e f name v = some (id, m') → Step m (.bind e f name v) m'
  | close {f : Nat} {m' : Machine} : m.close? f = some m' → Step m (.close f) m'
  | heap {a : Heap.Action} : m.Permits a → Step m (.heap a) { m with heap := a.apply m.heap }

inductive Run (start : Machine) : List Event → Machine → Prop
  | nil : Run start [] start
  | cons {past : List Event} {event : Event} {m m' : Machine} :
      Run start past m → Step m event m' → Run start (event :: past) m'

section steps

theorem getElem?_openFrame (m : Machine) (outer : Option Nat) (g : Nat) :
    (m.openFrame outer).2.frames[g]? =
      if g = m.frames.size then some (Frame.empty outer) else m.frames[g]? := by
  rw [openFrame, Array.getElem?_push]

theorem held_openFrame (m : Machine) (outer : Option Nat) (g : Nat) (n : String) :
    (m.openFrame outer).2.held g n = m.held g n := by
  rw [held, held, getElem?_openFrame]
  split
  next hg => simp [hg, Frame.empty, Frame.get?]
  next => rfl

theorem bindIn?_eq_some (hb : m.bindIn? e f name v = some (id, m')) :
    ∃ frame roots, m.frames[f]? = some frame ∧ id = m.heap.nextId ∧
      m' = ⟨{ (m.heap.allocateIn e v).2 with roots := roots },
        m.frames.setIfInBounds f (frame.bind name id)⟩ ∧
      ∀ x, x ∈ roots ↔ (x = id ∨ m.heap.isRoot x = true) ∧ frame.get? name ≠ some x := by
  obtain ⟨frame, hf, he⟩ := Option.map_eq_some_iff.mp hb
  have hroot (x : ObjectId) : x ∈ ((m.heap.allocateIn e v).2.addRoot m.heap.nextId).roots ↔
      x = m.heap.nextId ∨ m.heap.isRoot x = true := by
    rw [← Std.ExtTreeSet.contains_iff_mem]
    refine (Heap.isRoot_addRoot _ _ x).trans ?_
    rw [Heap.isRoot, Heap.roots_allocateIn]
    rfl
  cases hp : frame.get? name with
  | none =>
      simp only [hp, Heap.fst_allocateIn, Prod.mk.injEq] at he
      obtain ⟨rfl, rfl⟩ := he
      refine ⟨frame, _, hf, rfl, rfl, fun x => (hroot x).trans ?_⟩
      simp [hp]
  | some prev =>
      simp only [hp, Heap.fst_allocateIn, Prod.mk.injEq] at he
      obtain ⟨rfl, rfl⟩ := he
      refine ⟨frame, _, hf, rfl, rfl, fun x => ?_⟩
      rw [← Std.ExtTreeSet.contains_iff_mem]
      refine (Heap.isRoot_removeRoot _ prev x).trans ?_
      rw [Heap.isRoot, Std.ExtTreeSet.contains_iff_mem, hroot, and_comm, hp, ne_comm, ne_eq, ne_eq,
        Option.some.injEq]

theorem held_bind (hb : m.bindIn? e f name v = some (id, m')) (g : Nat) (n : String) :
    m'.held g n = if g = f ∧ n = name then some id else m.held g n := by
  obtain ⟨frame, roots, hf, _, rfl, _⟩ := bindIn?_eq_some hb
  have hlt : f < m.frames.size := (Array.getElem?_eq_some_iff.mp hf).1
  simp only [held, Array.getElem?_setIfInBounds]
  by_cases hg : f = g
  · subst hg
    simp only [hlt, if_true, hf, Option.bind_some, Frame.get?_bind, true_and]
  · simp [hg, Ne.symm hg]

theorem isRoot_foldl_removeRoot (bs : List (String × ObjectId)) (h : Heap) (x : ObjectId) :
    (bs.foldl (fun h b => h.removeRoot b.2) h).isRoot x = true ↔
      h.isRoot x = true ∧ ∀ b ∈ bs, b.2 ≠ x := by
  induction bs generalizing h with
  | nil => simp
  | cons b bs ih =>
      rw [List.foldl_cons, ih, Heap.isRoot_removeRoot, List.forall_mem_cons, ne_comm, and_assoc,
        and_left_comm]

theorem foldl_removeRoot_eq (bs : List (String × ObjectId)) (h : Heap) :
    ∃ roots, bs.foldl (fun h b => h.removeRoot b.2) h = { h with roots := roots } := by
  induction bs generalizing h with
  | nil => exact ⟨h.roots, rfl⟩
  | cons b bs ih => exact ih (h.removeRoot b.2)

theorem close?_eq_some (hc : m.close? f = some m') :
    ∃ frame roots, m.frames[f]? = some frame ∧
      m' = ⟨{ m.heap with roots := roots }, m.frames.setIfInBounds f (.empty frame.outer)⟩ ∧
      ∀ x, x ∈ roots ↔ m.heap.isRoot x = true ∧ ∀ b ∈ frame.bindings, b.2 ≠ x := by
  obtain ⟨heap, frames⟩ := m
  simp only [close?] at hc
  split at hc
  next hlt =>
    have hf : frames[f]? = some frames[f] := Array.getElem?_eq_getElem hlt
    obtain ⟨roots, hr⟩ := foldl_removeRoot_eq frames[f].bindings heap
    refine ⟨frames[f], roots, hf, ?_, fun x => ?_⟩
    · rw [← Option.some.inj hc, close, hf, ← hr]
    · have hx := isRoot_foldl_removeRoot frames[f].bindings heap x
      rwa [hr, Heap.isRoot, Std.ExtTreeSet.contains_iff_mem] at hx
  next => exact absurd hc (by simp)

theorem held_close (hc : m.close? f = some m') (g : Nat) (n : String) :
    m'.held g n = if g = f then none else m.held g n := by
  obtain ⟨frame, roots, hf, rfl, _⟩ := close?_eq_some hc
  have hlt : f < m.frames.size := (Array.getElem?_eq_some_iff.mp hf).1
  simp only [held, Array.getElem?_setIfInBounds]
  by_cases hg : f = g
  · subst hg
    simp [hlt, Frame.empty, Frame.get?]
  · simp [hg, Ne.symm hg]

theorem Permits.roots {a : Heap.Action} (hp : m.Permits a) :
    (a.apply m.heap).roots = m.heap.roots := by
  cases a with
  | allocate e v => exact Heap.roots_allocateIn m.heap e v
  | set _ _ => exact Heap.roots_modify_getD _
  | touch _ => exact Heap.roots_modify_getD _
  | link _ _ => exact Heap.roots_modify_getD _
  | addRoot _ => exact hp.elim
  | removeRoot _ => exact hp.elim
  | collect e => rfl
  | advance d => rfl

theorem frame_of_setIfInBounds {frame fr : Frame}
    (h : (m.frames.setIfInBounds f frame)[g]? = some fr) :
    g = f ∧ fr = frame ∨ m.frames[g]? = some fr := by
  rw [Array.getElem?_setIfInBounds] at h
  split at h
  next heq =>
    split at h
    · exact .inl ⟨heq.symm, (Option.some.inj h).symm⟩
    · exact absurd h (by simp)
  next => exact .inr h

end steps

/-- Each bound id is bound at one place, is live, and is a root; there are no other roots. -/
structure Owned (m : Machine) : Prop where
  kept : m.heap.Kept
  rooted : ∀ id, m.heap.isRoot id = true ↔ m.Bound id
  live : ∀ id, m.Bound id → m.heap.Live id
  once : ∀ f g name n id, m.held f name = some id → m.held g n = some id → f = g ∧ name = n
  distinct : ∀ (f : Nat) (frame : Frame), m.frames[f]? = some frame → frame.Distinct
  nested : ∀ (f : Nat) (frame : Frame) (o : Nat), m.frames[f]? = some frame →
    frame.outer = some o → o < f

theorem bound_congr (hh : ∀ g n, m'.held g n = m.held g n) : m'.Bound id ↔ m.Bound id := by
  simp only [Bound, hh]

theorem owned_empty (p : Policy) (c : Clock) : (ofHeap (.empty p c)).Owned where
  kept := Heap.kept_empty p c
  rooted := fun id => by simp [ofHeap, Heap.empty, Heap.isRoot, Bound, held]
  live := fun id h => by simp [ofHeap, Bound, held] at h
  once := fun f g name n id h => by simp [ofHeap, held] at h
  distinct := fun f frame h => by simp [ofHeap] at h
  nested := fun f frame o h => by simp [ofHeap] at h

namespace Owned

theorem reaches (ho : m.Owned) (hb : m.Bound id) : m.heap.Reaches (m.heap.isRoot · = true) id :=
  ⟨id, (ho.rooted id).mpr hb, ho.live id hb, .refl⟩

theorem held_ne_nextId (ho : m.Owned) (g : Nat) (n : String) :
    m.held g n ≠ some m.heap.nextId := by
  intro h
  exact absurd (ho.kept.below _ (ho.live _ ⟨g, n, h⟩)) (Nat.lt_irrefl _)

theorem openFrame (ho : m.Owned) (hout : ∀ o, outer = some o → o < m.frames.size) :
    (m.openFrame outer).2.Owned := by
  have hh := held_openFrame m outer
  refine ⟨ho.kept, fun id => (ho.rooted id).trans (bound_congr hh).symm,
    fun id hb => ho.live id ((bound_congr hh).mp hb), ?_, ?_, ?_⟩
  · intro f g name n id hf hg
    rw [hh] at hf hg
    exact ho.once f g name n id hf hg
  · intro f frame hf
    rw [getElem?_openFrame] at hf
    split at hf
    · rw [← Option.some.inj hf]
      exact List.nodup_nil
    · exact ho.distinct f frame hf
  · intro f frame o hf hfo
    rw [getElem?_openFrame] at hf
    split at hf
    next heq =>
      rw [← Option.some.inj hf] at hfo
      exact heq ▸ hout o hfo
    next => exact ho.nested f frame o hf hfo

theorem heap (ho : m.Owned) {a : Heap.Action} (hp : m.Permits a) :
    Owned { m with heap := a.apply m.heap } where
  kept := ho.kept.apply a
  rooted := fun id => by
    rw [Heap.isRoot, hp.roots]
    exact ho.rooted id
  live := fun id hb => ho.kept.live_apply a (ho.live id hb) (ho.reaches hb)
  once := ho.once
  distinct := ho.distinct
  nested := ho.nested

theorem distinct_set (ho : m.Owned) {new fr : Frame}
    (hg : (m.frames.setIfInBounds f new)[g]? = some fr) (hd : new.Distinct) : fr.Distinct := by
  rcases frame_of_setIfInBounds hg with ⟨_, rfl⟩ | hg
  · exact hd
  · exact ho.distinct g fr hg

theorem nested_set (ho : m.Owned) {frame new fr : Frame} {o : Nat} (hf : m.frames[f]? = some frame)
    (hg : (m.frames.setIfInBounds f new)[g]? = some fr) (hn : new.outer = frame.outer)
    (hout : fr.outer = some o) : o < g := by
  rcases frame_of_setIfInBounds hg with ⟨rfl, rfl⟩ | hg
  · exact ho.nested g frame o hf (hn ▸ hout)
  · exact ho.nested g fr o hg hout

theorem bind (ho : m.Owned) (hb : m.bindIn? e f name v = some (id, m')) : m'.Owned := by
  have hh := held_bind hb
  obtain ⟨frame, roots, hf, rfl, rfl, hroots⟩ := bindIn?_eq_some hb
  have hprev : frame.get? name = m.held f name := by simp [held, hf]
  refine ⟨(ho.kept.allocateIn e v).of_objects rfl rfl rfl, ?_, ?_, ?_, ?_, ?_⟩
  · intro x
    rw [Heap.isRoot, Std.ExtTreeSet.contains_iff_mem, hroots, hprev]
    constructor
    · rintro ⟨rfl | hx, hne⟩
      · exact ⟨f, name, by simp [hh]⟩
      · obtain ⟨g, n, hx⟩ := (ho.rooted x).mp hx
        refine ⟨g, n, ?_⟩
        rw [hh, if_neg ?_, hx]
        rintro ⟨rfl, rfl⟩
        exact hne hx
    · rintro ⟨g, n, hx⟩
      rw [hh] at hx
      split at hx
      · obtain rfl := Option.some.inj hx
        exact ⟨.inl rfl, ho.held_ne_nextId f name⟩
      next hgn =>
        refine ⟨.inr ((ho.rooted x).mpr ⟨g, n, hx⟩), fun hp => hgn ?_⟩
        exact ho.once g f n name x hx hp
  · rintro x ⟨g, n, hx⟩
    rw [hh] at hx
    refine (Heap.live_congr rfl).mpr (ho.kept.live_allocateIn e ?_)
    split at hx
    · exact .inl (Option.some.inj hx).symm
    · exact .inr ⟨ho.live x ⟨g, n, hx⟩, ho.reaches ⟨g, n, hx⟩⟩
  · intro g₁ g₂ n₁ n₂ x h₁ h₂
    rw [hh] at h₁ h₂
    split at h₁ <;> split at h₂
    next hc₁ hc₂ => exact ⟨hc₁.1.trans hc₂.1.symm, hc₁.2.trans hc₂.2.symm⟩
    next => exact absurd (h₂.trans h₁.symm) (ho.held_ne_nextId g₂ n₂)
    next => exact absurd (h₁.trans h₂.symm) (ho.held_ne_nextId g₁ n₁)
    next => exact ho.once g₁ g₂ n₁ n₂ x h₁ h₂
  · exact fun g fr hg => ho.distinct_set hg (ho.distinct f frame hf).bind
  · exact fun g fr o hg hout => ho.nested_set hf hg rfl hout

theorem close (ho : m.Owned) (hc : m.close? f = some m') : m'.Owned := by
  have hh := held_close hc
  obtain ⟨frame, roots, hf, rfl, hroots⟩ := close?_eq_some hc
  have hget : ∀ n, m.held f n = frame.get? n := fun n => by simp [held, hf]
  have still : ∀ g n x, (if g = f then none else m.held g n) = some x →
      g ≠ f ∧ m.held g n = some x := by
    intro g n x hx
    split at hx
    · exact absurd hx (by simp)
    next hg => exact ⟨hg, hx⟩
  refine ⟨ho.kept.of_objects rfl rfl rfl, ?_, ?_, ?_, ?_, ?_⟩
  · intro x
    rw [Heap.isRoot, Std.ExtTreeSet.contains_iff_mem, hroots]
    constructor
    · rintro ⟨hx, hne⟩
      obtain ⟨g, n, hx⟩ := (ho.rooted x).mp hx
      refine ⟨g, n, ?_⟩
      rw [hh, if_neg ?_, hx]
      rintro rfl
      exact hne (n, x) (Frame.mem_of_get? (hget n ▸ hx)) rfl
    · rintro ⟨g, n, hx⟩
      obtain ⟨hg, hx⟩ := still g n x (hh g n ▸ hx)
      refine ⟨(ho.rooted x).mpr ⟨g, n, hx⟩, ?_⟩
      rintro ⟨k, i⟩ hb rfl
      have hk : m.held f k = some i := (hget k).trans ((ho.distinct f frame hf).get?_of_mem hb)
      exact hg (ho.once g f n k i hx hk).1
  · rintro x ⟨g, n, hx⟩
    obtain ⟨_, hx⟩ := still g n x (hh g n ▸ hx)
    exact ho.live x ⟨g, n, hx⟩
  · intro g₁ g₂ n₁ n₂ x h₁ h₂
    exact ho.once g₁ g₂ n₁ n₂ x (still g₁ n₁ x (hh g₁ n₁ ▸ h₁)).2 (still g₂ n₂ x (hh g₂ n₂ ▸ h₂)).2
  · exact fun g fr hg => ho.distinct_set hg List.nodup_nil
  · exact fun g fr o hg hout => ho.nested_set hf hg rfl hout

theorem step {event : Event} (ho : m.Owned) (hs : Step m event m') : m'.Owned := by
  cases hs with
  | openFrame hout => exact ho.openFrame hout
  | bind hb => exact ho.bind hb
  | close hc => exact ho.close hc
  | heap hp => exact ho.heap hp

theorem run {past : List Event} (ho : m.Owned) (hr : Run m past m') : m'.Owned := by
  induction hr with
  | nil => exact ho
  | cons _ hs ih => exact ih.step hs

theorem get?_bind (ho : m.Owned) (hb : m.bindIn? e f name v = some (id, m')) :
    m'.heap.get? id = some v := by
  obtain ⟨frame, roots, _, rfl, rfl, _⟩ := bindIn?_eq_some hb
  have hlive := ho.kept.live_allocateIn (v := v) e (.inl rfl)
  exact (Heap.get?_allocateIn hlive).trans (Heap.get?_place_self _ _)

end Owned

theorem Nearest.held (hn : m.Nearest name f g) : ∃ id, m.held g name = some id := by
  induction hn with
  | @here f frame id hf hi => exact ⟨id, by simp [Machine.held, hf, hi]⟩
  | outward _ _ _ _ ih => exact ih

end Machine

end Toolchain
