import Mathlib.Data.List.Induction
import Toolchain.Value.Collection

namespace Toolchain.Value

variable {a v w x k : Value} {vs xs : List Value} {es kvs : List (Value × Value)}
  {e : Value × Value} {stamp : Stamp}

namespace Elements

theorem ofList_concat (vs : List Value) (v : Value) :
    ofList (vs ++ [v]) = add (ofList vs) v := by
  simp [ofList]

theorem mem_add (h : x ∈ add xs v) : x ∈ xs ∨ x = v := by
  unfold add at h
  split at h
  · exact .inl h
  · simpa using h

theorem mem_ofList (h : x ∈ ofList vs) : x ∈ vs := by
  induction vs using List.reverseRecOn with
  | nil => exact h
  | append_singleton vs v ih =>
      rw [ofList_concat] at h
      rcases mem_add h with h | rfl
      · exact List.mem_append_left _ (ih h)
      · simp

theorem pairwise_add (h : xs.Pairwise fun x y => equal x y = false) :
    (add xs v).Pairwise fun x y => equal x y = false := by
  unfold add
  split
  · exact h
  next hv =>
    rw [elementIn_eq_any, Bool.not_eq_true, List.any_eq_false] at hv
    refine List.pairwise_append.mpr ⟨h, List.pairwise_singleton _ _, fun x hx y hy => ?_⟩
    rw [List.mem_singleton.mp hy]
    exact Bool.eq_false_iff.mpr (hv x hx)

theorem pairwise_ofList (vs : List Value) :
    (ofList vs).Pairwise fun x y => equal x y = false := by
  induction vs using List.reverseRecOn with
  | nil => exact .nil
  | append_singleton vs v ih =>
      rw [ofList_concat]
      exact pairwise_add ih

theorem ofList_of_pairwise (h : xs.Pairwise fun x y => equal x y = false) : ofList xs = xs := by
  induction xs using List.reverseRecOn with
  | nil => rfl
  | append_singleton xs x ih =>
      obtain ⟨hxs, _, hlast⟩ := List.pairwise_append.mp h
      have hout : elementIn x xs = false := by
        rw [elementIn_eq_any, List.any_eq_false]
        exact fun y hy => Bool.eq_false_iff.mp (hlast y hy x (List.mem_singleton_self x))
      rw [ofList_concat, ih hxs, add, hout]
      rfl

end Elements

namespace Entries

theorem ofList_concat (kvs : List (Value × Value)) (e : Value × Value) :
    ofList (kvs ++ [e]) = put (ofList kvs) e.1 e.2 := by
  simp [ofList]

theorem keys_put (es : List (Value × Value)) (k v : Value) :
    (put es k v).map (·.1) = Elements.add (es.map (·.1)) k := by
  induction es with
  | nil => simp [put, Elements.add, elementIn]
  | cons e es ih =>
      obtain ⟨l, w⟩ := e
      unfold put
      split
      next h => simp [Elements.add, elementIn, h]
      next h =>
        rw [List.map_cons, ih]
        unfold Elements.add
        simp only [List.map_cons, elementIn, h, Bool.false_or]
        split <;> rfl

theorem keys_ofList (kvs : List (Value × Value)) :
    (ofList kvs).map (·.1) = Elements.ofList (kvs.map (·.1)) := by
  induction kvs using List.reverseRecOn with
  | nil => rfl
  | append_singleton kvs e ih =>
      rw [ofList_concat, keys_put, ih, List.map_append, List.map_singleton, Elements.ofList_concat]

theorem mem_put (h : e ∈ put es k v) : e.2 = v ∨ ∃ f ∈ es, f.2 = e.2 := by
  induction es with
  | nil => exact .inl (by simp_all [put])
  | cons f es ih =>
      unfold put at h
      split at h
      · rcases List.mem_cons.mp h with rfl | h
        · exact .inl rfl
        · exact .inr ⟨e, List.mem_cons_of_mem _ h, rfl⟩
      · rcases List.mem_cons.mp h with rfl | h
        · exact .inr ⟨_, List.mem_cons_self .., rfl⟩
        · rcases ih h with h | ⟨g, hg, h⟩
          · exact .inl h
          · exact .inr ⟨g, List.mem_cons_of_mem _ hg, h⟩

theorem value_of_mem_ofList (h : e ∈ ofList kvs) : ∃ f ∈ kvs, f.2 = e.2 := by
  induction kvs using List.reverseRecOn generalizing e with
  | nil => exact nomatch h
  | append_singleton kvs f ih =>
      rw [ofList_concat] at h
      rcases mem_put h with h | ⟨g, hg, h⟩
      · exact ⟨f, by simp, h.symm⟩
      · obtain ⟨g', hg', h'⟩ := ih hg
        exact ⟨g', List.mem_append_left _ hg', h'.trans h⟩

theorem key_of_mem_ofList (h : e ∈ ofList kvs) : ∃ f ∈ kvs, f.1 = e.1 := by
  have hk : e.1 ∈ (ofList kvs).map (·.1) := List.mem_map_of_mem h
  rw [keys_ofList] at hk
  exact List.mem_map.mp (Elements.mem_ofList hk)

theorem put_of_not_elementIn (h : elementIn k (es.map (·.1)) = false) :
    put es k v = es ++ [(k, v)] := by
  induction es with
  | nil => rfl
  | cons e es ih =>
      rw [List.map_cons, elementIn, Bool.or_eq_false_iff] at h
      rw [put, h.1, ih h.2]
      rfl

theorem ofList_of_pairwise (h : (es.map (·.1)).Pairwise fun x y => equal x y = false) :
    ofList es = es := by
  induction es using List.reverseRecOn with
  | nil => rfl
  | append_singleton es e ih =>
      rw [List.map_append] at h
      obtain ⟨hes, _, hlast⟩ := List.pairwise_append.mp h
      have hout : elementIn e.1 (es.map (·.1)) = false := by
        rw [elementIn_eq_any, List.any_eq_false]
        exact fun y hy => Bool.eq_false_iff.mp (hlast y hy e.1 (by simp))
      rw [ofList_concat, ih hes, put_of_not_elementIn hout]

end Entries

def isAtom : Value → Bool
  | .struct .. | .enum .. | .tuple .. | .vec .. | .set .. | .map .. => false
  | _ => true

def parts : Value → List Value
  | .struct _ _ fs => fs.map (·.2)
  | .enum _ _ _ vs | .tuple _ vs | .vec _ vs | .set _ vs => vs
  | .map _ es => es.map (·.1) ++ es.map (·.2)
  | _ => []

/-- Sets and maps in compared positions have been built element by element and entry by entry. The
fields of a structure are a finite map, so each name stands there once. -/
inductive WellFormed : Value → Prop
  | atom {a : Value} : a.isAtom = true → WellFormed a
  | struct {stamp : Stamp} {name : String} {fs : List (String × Value)} :
      (fs.map (·.1)).Nodup → (∀ f ∈ fs, WellFormed f.2) → WellFormed (.struct stamp name fs)
  | enum {stamp : Stamp} {name variant : String} {vs : List Value} :
      (∀ v ∈ vs, WellFormed v) → WellFormed (.enum stamp name variant vs)
  | tuple {stamp : Stamp} {vs : List Value} :
      (∀ v ∈ vs, WellFormed v) → WellFormed (.tuple stamp vs)
  | vec {stamp : Stamp} {vs : List Value} :
      (∀ v ∈ vs, WellFormed v) → WellFormed (.vec stamp vs)
  | set {stamp : Stamp} {vs : List Value} :
      (∀ v ∈ vs, WellFormed v) → WellFormed (.set stamp (Elements.ofList vs))
  | map {stamp : Stamp} {kvs : List (Value × Value)} :
      (∀ e ∈ kvs, WellFormed e.1) → (∀ e ∈ kvs, WellFormed e.2) →
      WellFormed (.map stamp (Entries.ofList kvs))

theorem WellFormed.of_mem_parts (h : WellFormed a) : ∀ p ∈ a.parts, WellFormed p := by
  cases h with
  | atom ha => cases a <;> simp_all [isAtom, parts]
  | struct _ hfs => exact List.forall_mem_map.mpr hfs
  | enum h | tuple h | vec h => exact h
  | set h => exact fun p hp => h p (Elements.mem_ofList hp)
  | map hk hv =>
      refine List.forall_mem_append.mpr ⟨List.forall_mem_map.mpr fun e he => ?_,
        List.forall_mem_map.mpr fun e he => ?_⟩
      · obtain ⟨f, hf, h⟩ := Entries.key_of_mem_ofList he
        exact h ▸ hk f hf
      · obtain ⟨f, hf, h⟩ := Entries.value_of_mem_ofList he
        exact h ▸ hv f hf

theorem WellFormed.names_nodup {name : String} {fs : List (String × Value)}
    (h : WellFormed (.struct stamp name fs)) : (fs.map (·.1)).Nodup := by
  cases h with
  | atom ha => exact absurd ha (by simp [isAtom])
  | struct hn _ => exact hn

theorem WellFormed.elements_distinct (h : WellFormed (.set stamp xs)) :
    xs.Pairwise fun x y => equal x y = false := by
  cases h with
  | atom ha => exact absurd ha (by simp [isAtom])
  | set _ => exact Elements.pairwise_ofList _

theorem WellFormed.keys_distinct (h : WellFormed (.map stamp es)) :
    (es.map (·.1)).Pairwise fun x y => equal x y = false := by
  cases h with
  | atom ha => exact absurd ha (by simp [isAtom])
  | map _ _ =>
      rw [Entries.keys_ofList]
      exact Elements.pairwise_ofList _

theorem wellFormed_set_iff : WellFormed (.set stamp xs) ↔
    (∀ x ∈ xs, WellFormed x) ∧ xs.Pairwise fun x y => equal x y = false := by
  refine ⟨fun h => ⟨h.of_mem_parts, h.elements_distinct⟩, fun ⟨hxs, hd⟩ => ?_⟩
  rw [← Elements.ofList_of_pairwise hd]
  exact .set hxs

theorem wellFormed_map_iff : WellFormed (.map stamp es) ↔
    (∀ e ∈ es, WellFormed e.1 ∧ WellFormed e.2) ∧
      (es.map (·.1)).Pairwise fun x y => equal x y = false := by
  constructor
  · intro h
    have hparts := List.forall_mem_append.mp h.of_mem_parts
    rw [List.forall_mem_map, List.forall_mem_map] at hparts
    exact ⟨fun e he => ⟨hparts.1 e he, hparts.2 e he⟩, h.keys_distinct⟩
  · rintro ⟨hes, hd⟩
    rw [← Entries.ofList_of_pairwise hd]
    exact .map (fun e he => (hes e he).1) fun e he => (hes e he).2

theorem sizeOf_lt_of_mem_parts {p : Value} (h : p ∈ a.parts) : sizeOf p < sizeOf a := by
  cases a with
  | struct stamp name fs =>
      obtain ⟨⟨n, v⟩, hf, rfl⟩ := List.mem_map.mp h
      have hs := List.sizeOf_lt_of_mem hf
      simp only [Prod.mk.sizeOf_spec, struct.sizeOf_spec] at hs ⊢
      omega
  | enum stamp name variant vs =>
      have hs : sizeOf p < sizeOf vs := List.sizeOf_lt_of_mem h
      simp only [enum.sizeOf_spec]
      omega
  | tuple stamp vs | vec stamp vs | set stamp vs =>
      have hs : sizeOf p < sizeOf vs := List.sizeOf_lt_of_mem h
      simp only [tuple.sizeOf_spec, vec.sizeOf_spec, set.sizeOf_spec]
      omega
  | map stamp es =>
      have hs : ∃ e ∈ es, p = e.1 ∨ p = e.2 := by
        rcases List.mem_append.mp h with h | h <;> obtain ⟨e, he, rfl⟩ := List.mem_map.mp h
        · exact ⟨e, he, .inl rfl⟩
        · exact ⟨e, he, .inr rfl⟩
      obtain ⟨⟨k, v⟩, he, hp⟩ := hs
      have hs := List.sizeOf_lt_of_mem he
      simp only [Prod.mk.sizeOf_spec, map.sizeOf_spec] at hs ⊢
      rcases hp with rfl | rfl <;> omega
  | _ => exact nomatch h

end Toolchain.Value
