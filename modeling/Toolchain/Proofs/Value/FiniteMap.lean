import Toolchain.Proofs.Value.Extensionality

namespace Toolchain.Value

variable {k l v w : Value} {es hs kvs lws : List (Value × Value)} {e : Value × Value}
  {s s' : Stamp}

namespace Entries

theorem get?_cons (l w : Value) (es : List (Value × Value)) (k : Value) :
    get? ((l, w) :: es) k = if equal l k then some w else get? es k := by
  rw [get?, List.find?_cons, get?]
  cases equal l k <;> rfl

theorem get?_eq_none_iff : get? es k = Option.none ↔ ∀ e ∈ es, ¬ Equals e.1 k := by
  simp [get?, Equals]

theorem exists_of_get? (h : get? es k = some v) : ∃ e ∈ es, Equals e.1 k ∧ e.2 = v := by
  obtain ⟨e, he, hv⟩ := Option.map_eq_some_iff.mp h
  have hek : equal e.1 k = true := by simpa using List.find?_some he
  exact ⟨e, List.mem_of_find?_eq_some he, hek, hv⟩

theorem get?_congr (hes : ∀ e ∈ es, WellFormed e.1) (hk : WellFormed k) (hl : WellFormed l)
    (h : Equals k l) : get? es k = get? es l := by
  induction es with
  | nil => rfl
  | cons e es ih =>
      obtain ⟨he, hes⟩ := List.forall_mem_cons.mp hes
      rw [get?_cons, get?_cons, equal_congr_right hk hl he h, ih hes]

theorem get?_put (hes : ∀ e ∈ es, WellFormed e.1) (hl : WellFormed l) (hk : WellFormed k) :
    get? (put es l v) k = if equal l k then some v else get? es k := by
  induction es with
  | nil => rw [put, get?_cons]
  | cons e es ih =>
      obtain ⟨l', w⟩ := e
      obtain ⟨hl', hes⟩ := List.forall_mem_cons.mp hes
      unfold put
      split
      next heq =>
        rw [get?_cons, get?_cons, equal_congr_left hl' hl hk heq]
        cases equal l k <;> rfl
      next hne =>
        rw [get?_cons, get?_cons, ih hes]
        -- No key equals both `l'` and `l`, so at most one of the two entries is found.
        cases hlk : equal l k with
        | false => rfl
        | true =>
            have hfar : equal l' k = false := by
              rw [← equal_congr_right hl hk hl' hlk]
              exact Bool.eq_false_iff.mpr hne
            rw [hfar]
            rfl

theorem wellFormed_key (hkvs : ∀ e ∈ kvs, WellFormed e.1) :
    ∀ e ∈ ofList kvs, WellFormed e.1 := by
  intro e he
  obtain ⟨f, hf, h⟩ := key_of_mem_ofList he
  exact h ▸ hkvs f hf

theorem get?_ofList (hkvs : ∀ e ∈ kvs, WellFormed e.1) (hk : WellFormed k) :
    get? (ofList kvs) k = (kvs.reverse.find? fun e => equal e.1 k).map (·.2) := by
  induction kvs using List.reverseRecOn with
  | nil => rfl
  | append_singleton kvs e ih =>
      rw [List.forall_mem_append, List.forall_mem_singleton] at hkvs
      rw [ofList_concat, get?_put (wellFormed_key hkvs.1) hkvs.2 hk, ih hkvs.1,
        List.reverse_concat, List.find?_cons]
      cases equal e.1 k <;> rfl

theorem get?_of_mem (hd : es.Pairwise fun e f => ¬ Equals e.1 f.1) (he : e ∈ es)
    (hself : Equals e.1 e.1) : get? es e.1 = some e.2 := by
  induction es with
  | nil => exact absurd he List.not_mem_nil
  | cons f es ih =>
      obtain ⟨hfar, hd⟩ := List.pairwise_cons.mp hd
      rw [get?_cons]
      rcases List.mem_cons.mp he with rfl | he
      · exact if_pos hself
      · exact (if_neg (hfar e he)).trans (ih hd he)

theorem pairwise_ofList (kvs : List (Value × Value)) :
    (ofList kvs).Pairwise fun e f => ¬ Equals e.1 f.1 := by
  have h := Elements.pairwise_ofList (kvs.map (·.1))
  rw [← keys_ofList, List.pairwise_map] at h
  exact h.imp fun hne => Bool.eq_false_iff.mp hne

theorem entryIn_iff_get? :
    entryIn k v hs = true ↔ ∃ w, get? hs k = some w ∧ Equals v w := by
  induction hs with
  | nil => simp [entryIn, get?]
  | cons e hs ih =>
      obtain ⟨l, w⟩ := e
      rw [entryIn, get?_cons]
      cases equal l k with
      | false => exact ih
      | true => simp [Equals]

theorem agree_iff (hes : ∀ e ∈ es, WellFormed e.1) (hhs : ∀ e ∈ hs, WellFormed e.1)
    (hd : es.Pairwise fun e f => ¬ Equals e.1 f.1)
    (hc : Covers Equals (es.map (·.1)) (hs.map (·.1)))
    (hc' : Covers Equals (hs.map (·.1)) (es.map (·.1))) :
    (∀ e ∈ es, ∃ w, get? hs e.1 = some w ∧ Equals e.2 w) ↔
      ∀ k, WellFormed k → Option.Rel Equals (get? es k) (get? hs k) := by
  have hper := perOn_wellFormed
  constructor
  · intro h k hk
    cases hget : get? es k with
    | none =>
        have hnone : get? hs k = Option.none := by
          rw [get?_eq_none_iff] at hget ⊢
          intro f hf hfk
          obtain ⟨_, hl, hfl⟩ := hc' f.1 (List.mem_map_of_mem hf)
          obtain ⟨e, he, rfl⟩ := List.mem_map.mp hl
          have hef := hper.symm (hhs f hf) (hes e he) hfl
          exact hget e he (hper.trans (hes e he) (hhs f hf) hk hef hfk)
        rw [hnone]
        exact .none
    | some v =>
        obtain ⟨e, he, hek, rfl⟩ := exists_of_get? hget
        obtain ⟨w, hw, hvw⟩ := h e he
        rw [← get?_congr hhs (hes e he) hk hek, hw]
        exact .some hvw
  · intro h e he
    obtain ⟨_, hl, hel⟩ := hc e.1 (List.mem_map_of_mem he)
    obtain ⟨f, hf, rfl⟩ := List.mem_map.mp hl
    have hself : Equals e.1 e.1 :=
      hper.trans (hes e he) (hhs f hf) (hes e he) hel (hper.symm (hes e he) (hhs f hf) hel)
    have hrel := h e.1 (hes e he)
    rw [get?_of_mem hd he hself] at hrel
    cases hw : get? hs e.1 with
    | none =>
        rw [hw] at hrel
        cases hrel
    | some w =>
        rw [hw] at hrel
        cases hrel with
        | some hvw => exact ⟨w, rfl, hvw⟩

end Entries

theorem covers_keys_iff : Covers Equals (es.map (·.1)) (hs.map (·.1)) ↔
    ∀ e ∈ es, ∃ f ∈ hs, equal e.1 f.1 = true := by
  simp [Covers, Equals]

theorem equal_map_iff : equal (.map s es) (.map s' hs) = true ↔
    equal (.set s (es.map (·.1))) (.set s' (hs.map (·.1))) = true ∧
      ∀ e ∈ es, ∃ w, Entries.get? hs e.1 = some w ∧ Equals e.2 w := by
  rw [equal_set_iff, List.length_map, List.length_map, equal, Bool.and_eq_true, beq_iff_eq,
    entriesIn_iff]
  simp only [Entries.entryIn_iff_get?, and_assoc]
  refine and_congr_right fun _ => (and_iff_right_of_imp fun h => ?_).symm
  refine List.forall_mem_map.mpr fun e he => ?_
  obtain ⟨w, hw, _⟩ := h e he
  obtain ⟨f, hf, hfe, _⟩ := Entries.exists_of_get? hw
  exact ⟨f.1, List.mem_map_of_mem hf, hfe⟩

theorem equal_map_ofList_iff (hkvs : ∀ e ∈ kvs, WellFormed e.1)
    (hlws : ∀ e ∈ lws, WellFormed e.1) :
    equal (.map s (Entries.ofList kvs)) (.map s' (Entries.ofList lws)) = true ↔
      (Covers Equals (kvs.map (·.1)) (lws.map (·.1)) ∧
        Covers Equals (lws.map (·.1)) (kvs.map (·.1))) ∧
      ∀ k, WellFormed k → Option.Rel Equals (Entries.get? (Entries.ofList kvs) k)
        (Entries.get? (Entries.ofList lws) k) := by
  have hk := List.forall_mem_map.mpr hkvs
  have hl := List.forall_mem_map.mpr hlws
  rw [equal_map_iff, Entries.keys_ofList, Entries.keys_ofList, equal_set_ofList_iff hk hl]
  refine and_congr_right fun ⟨hc, hc'⟩ => ?_
  rw [← Elements.covers_ofList hk hl, ← Entries.keys_ofList, ← Entries.keys_ofList] at hc
  rw [← Elements.covers_ofList hl hk, ← Entries.keys_ofList, ← Entries.keys_ofList] at hc'
  exact Entries.agree_iff (Entries.wellFormed_key hkvs) (Entries.wellFormed_key hlws)
    (Entries.pairwise_ofList kvs) hc hc'

theorem maps_refine_finite_maps (s s' : Stamp) (kvs lws : List (Value × Value))
    (hkvs : ∀ e ∈ kvs, WellFormed e.1) (hlws : ∀ e ∈ lws, WellFormed e.1) :
    (∀ k, WellFormed k → Entries.get? (Entries.ofList kvs) k =
      (kvs.reverse.find? fun e => equal e.1 k).map (·.2)) ∧
    (Entries.ofList kvs).map (·.1) = Elements.firsts (kvs.map (·.1)) ∧
    ((Entries.ofList kvs).map (·.1)).Pairwise
      (fun k l => equal k l = false ∧ equal l k = false) ∧
    (Entries.ofList kvs).length = (Elements.firsts (kvs.map (·.1))).length ∧
    (equal (map s (Entries.ofList kvs)) (map s' (Entries.ofList lws)) = true ↔
      ((∀ e ∈ kvs, ∃ f ∈ lws, equal e.1 f.1 = true) ∧
        ∀ f ∈ lws, ∃ e ∈ kvs, equal f.1 e.1 = true) ∧
      ∀ k, WellFormed k → Option.Rel (fun v w => equal v w = true)
        (Entries.get? (Entries.ofList kvs) k) (Entries.get? (Entries.ofList lws) k)) := by
  have hk := List.forall_mem_map.mpr hkvs
  have hkeys : (Entries.ofList kvs).map (·.1) = Elements.firsts (kvs.map (·.1)) :=
    (Entries.keys_ofList kvs).trans (Elements.ofList_eq_firsts hk)
  refine ⟨fun k => Entries.get?_ofList hkvs, hkeys, ?_, ?_, ?_⟩
  · rw [Entries.keys_ofList]
    exact pairwise_distinct (Elements.wellFormed_ofList hk) (Elements.pairwise_ofList _)
  · rw [← hkeys, List.length_map]
  · rw [equal_map_ofList_iff hkvs hlws, covers_keys_iff, covers_keys_iff]
    rfl

def overwritten : List (Value × Value) :=
  [(ascending, str "a"), (absent, int 7), (descending, str "b")]

def direct : List (Value × Value) := [(absent, int 7), (descending, str "b")]

theorem maps_refine_finite_maps_overwritten :
    (∀ e ∈ overwritten, WellFormed e.1) ∧ (∀ e ∈ direct, WellFormed e.1) ∧
    (Entries.ofList overwritten).map (·.1) = [ascending, absent] ∧
    Elements.firsts (overwritten.map (·.1)) = [ascending, absent] ∧
    Entries.get? (Entries.ofList overwritten) descending = some (str "b") ∧
    equal (map 0 (Entries.ofList overwritten)) (map 1 (Entries.ofList direct)) = true ∧
    ∀ k, WellFormed k → Option.Rel (fun v w => equal v w = true)
      (Entries.get? (Entries.ofList overwritten) k) (Entries.get? (Entries.ofList direct) k) := by
  have habsent : WellFormed absent := .atom rfl
  have hkvs : ∀ e ∈ overwritten, WellFormed e.1 := by
    simp [overwritten, wellFormed_ascending, wellFormed_descending, habsent]
  have hlws : ∀ e ∈ direct, WellFormed e.1 := by simp [direct, wellFormed_descending, habsent]
  obtain ⟨hget, hfirsts, _, _, hequal⟩ := maps_refine_finite_maps 0 1 _ _ hkvs hlws
  have hkvs' : Entries.ofList overwritten = [(ascending, str "b"), (absent, int 7)] := by
    simp [Entries.ofList, overwritten, Entries.put, equal_ascending_absent,
      equal_ascending_descending]
  have hkeys : (Entries.ofList overwritten).map (·.1) = [ascending, absent] := by rw [hkvs']; rfl
  have heq : equal (map 0 (Entries.ofList overwritten)) (map 1 (Entries.ofList direct)) = true := by
    have hback := perOn_wellFormed.symm wellFormed_ascending wellFormed_descending
      equal_ascending_descending
    have hfar : equal absent descending = false := by simp [descending, equal]
    have hfar' : equal absent ascending = false := by simp [ascending, equal]
    have hlws' : Entries.ofList direct = direct := by
      simp [Entries.ofList, direct, Entries.put, hfar]
    rw [Equals] at hback
    rw [hkvs', hlws']
    simp [direct, equal, entriesIn, entryIn, hback, hfar', equal_absent]
  refine ⟨hkvs, hlws, hkeys, hfirsts ▸ hkeys, ?_, heq, (hequal.mp heq).2⟩
  rw [hget descending wellFormed_descending]
  simp [overwritten, equal_descending]

end Toolchain.Value
