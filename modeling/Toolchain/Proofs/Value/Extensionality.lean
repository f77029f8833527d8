import Toolchain.Proofs.Value.Equality

namespace Toolchain.Value

variable {a b c v x x' : Value} {xs ys vs ws : List Value} {s s' : Stamp}

theorem equal_congr_left (ha : WellFormed a) (hb : WellFormed b) (hc : WellFormed c)
    (h : Equals a b) : equal a c = equal b c := by
  have hper := perOn_wellFormed
  rw [Bool.eq_iff_iff]
  exact ⟨hper.trans hb ha hc (hper.symm ha hb h), hper.trans ha hb hc h⟩

theorem equal_congr_right (ha : WellFormed a) (hb : WellFormed b) (hc : WellFormed c)
    (h : Equals a b) : equal c a = equal c b := by
  have hper := perOn_wellFormed
  rw [Bool.eq_iff_iff]
  exact ⟨fun hca => hper.trans hc ha hb hca h,
    fun hcb => hper.trans hc hb ha hcb (hper.symm ha hb h)⟩

theorem pairwise_distinct (hxs : ∀ x ∈ xs, WellFormed x)
    (h : xs.Pairwise fun x y => equal x y = false) :
    xs.Pairwise fun x y => equal x y = false ∧ equal y x = false := by
  refine List.Pairwise.imp_of_mem (fun {x y} hx hy hxy => ⟨hxy, ?_⟩) h
  rw [Bool.eq_false_iff] at hxy ⊢
  exact fun hyx => hxy (perOn_wellFormed.symm (hxs y hy) (hxs x hx) hyx)

theorem elementIn_iff : elementIn x xs = true ↔ ∃ y ∈ xs, Equals y x := by
  simp [elementIn_eq_any, Equals]

namespace Elements

theorem wellFormed_ofList (hvs : ∀ v ∈ vs, WellFormed v) : ∀ x ∈ ofList vs, WellFormed x :=
  fun x hx => hvs x (mem_ofList hx)

theorem subset_add (xs : List Value) (v : Value) : xs ⊆ add xs v := by
  unfold add
  split
  · exact List.Subset.refl xs
  · exact List.subset_append_left xs [v]

theorem elementIn_congr (hxs : ∀ y ∈ xs, WellFormed y) (hx : WellFormed x) (hx' : WellFormed x')
    (h : Equals x x') : elementIn x xs = elementIn x' xs := by
  rw [Bool.eq_iff_iff, elementIn_iff, elementIn_iff]
  refine exists_congr fun y => and_congr_right fun hy => ?_
  rw [Equals, Equals, equal_congr_right hx hx' (hxs y hy) h]

theorem elementIn_add (hxs : ∀ y ∈ xs, WellFormed y) (hv : WellFormed v) (hx : WellFormed x) :
    elementIn x (add xs v) = (elementIn x xs || equal v x) := by
  unfold add
  split
  next hin =>
    -- What equals `v` equals the element that keeps `v` out.
    cases hvx : equal v x with
    | false => rw [Bool.or_false]
    | true => rw [← elementIn_congr hxs hv hx hvx, hin, Bool.or_true]
  next => simp [elementIn_eq_any]

theorem elementIn_ofList (hvs : ∀ v ∈ vs, WellFormed v) (hx : WellFormed x) :
    elementIn x (ofList vs) = vs.any fun v => equal v x := by
  induction vs using List.reverseRecOn with
  | nil => rw [ofList, List.foldl_nil, elementIn_eq_any]
  | append_singleton vs v ih =>
      rw [List.forall_mem_append, List.forall_mem_singleton] at hvs
      rw [ofList_concat, elementIn_add (wellFormed_ofList hvs.1) hvs.2 hx, ih hvs.1,
        List.any_append]
      simp

def firsts (vs : List Value) : List Value :=
  (vs.zipIdx.filter fun p => !(vs.take p.2).any fun u => equal u p.1).map (·.1)

theorem firsts_concat (vs : List Value) (v : Value) : firsts (vs ++ [v]) =
    if vs.any (fun u => equal u v) then firsts vs else firsts vs ++ [v] := by
  have hbefore : ∀ p ∈ vs.zipIdx,
      (!((vs ++ [v]).take p.2).any fun u => equal u p.1) =
        !(vs.take p.2).any fun u => equal u p.1 := by
    intro p hp
    rw [List.take_append_of_le_length (Nat.le_of_lt (List.snd_lt_of_mem_zipIdx hp))]
  rw [firsts, List.zipIdx_append, List.filter_append, List.filter_congr hbefore, List.map_append,
    ← firsts]
  cases h : vs.any fun u => equal u v <;> simp [h]

theorem ofList_eq_firsts (hvs : ∀ v ∈ vs, WellFormed v) : ofList vs = firsts vs := by
  induction vs using List.reverseRecOn with
  | nil => rfl
  | append_singleton vs v ih =>
      rw [List.forall_mem_append, List.forall_mem_singleton] at hvs
      rw [ofList_concat, add, elementIn_ofList hvs.1 hvs.2, firsts_concat, ih hvs.1]

theorem kept_or_met (hv : v ∈ vs) : v ∈ ofList vs ∨ ∃ u ∈ ofList vs, Equals u v := by
  induction vs using List.reverseRecOn with
  | nil => exact absurd hv (List.not_mem_nil)
  | append_singleton vs w ih =>
      rw [ofList_concat]
      rcases List.mem_append.mp hv with hv | hv
      · rcases ih hv with hin | ⟨u, hu, huv⟩
        · exact .inl (subset_add _ _ hin)
        · exact .inr ⟨u, subset_add _ _ hu, huv⟩
      · obtain rfl := List.mem_singleton.mp hv
        by_cases hin : elementIn v (ofList vs) = true
        · rw [add, if_pos hin]
          exact .inr (elementIn_iff.mp hin)
        · rw [add, if_neg hin]
          exact .inl (by simp)

theorem covers_ofList (hvs : ∀ v ∈ vs, WellFormed v) (hws : ∀ w ∈ ws, WellFormed w) :
    Covers Equals (ofList vs) (ofList ws) ↔ Covers Equals vs ws := by
  have hper := perOn_wellFormed
  constructor
  · intro h v hv
    have hsub : ∀ u ∈ ofList vs, ∃ w ∈ ws, Equals u w := fun u hu => by
      obtain ⟨w, hw, huw⟩ := h u hu
      exact ⟨w, mem_ofList hw, huw⟩
    rcases kept_or_met hv with hin | ⟨u, hu, huv⟩
    · exact hsub v hin
    · have huWell := wellFormed_ofList hvs u hu
      obtain ⟨w, hw, huw⟩ := hsub u hu
      exact ⟨w, hw, hper.trans (hvs v hv) huWell (hws w hw) (hper.symm huWell (hvs v hv) huv) huw⟩
  · intro h u hu
    have huWell := wellFormed_ofList hvs u hu
    obtain ⟨w, hw, huw⟩ := h u (mem_ofList hu)
    have hmet : elementIn u (ofList ws) = true := by
      rw [elementIn_ofList hws huWell]
      exact List.any_eq_true.mpr ⟨w, hw, hper.symm huWell (hws w hw) huw⟩
    obtain ⟨w', hw', hwu⟩ := elementIn_iff.mp hmet
    exact ⟨w', hw', hper.symm (wellFormed_ofList hws w' hw') huWell hwu⟩

end Elements

theorem equal_set_iff : equal (.set s xs) (.set s' ys) = true ↔
    xs.length = ys.length ∧ ∀ x ∈ xs, ∃ y ∈ ys, Equals y x := by
  rw [equal, Bool.and_eq_true, beq_iff_eq, elementsIn_iff]

theorem equal_set_ofList_iff (hvs : ∀ v ∈ vs, WellFormed v) (hws : ∀ w ∈ ws, WellFormed w) :
    equal (.set s (Elements.ofList vs)) (.set s' (Elements.ofList ws)) = true ↔
      Covers Equals vs ws ∧ Covers Equals ws vs := by
  have hper := perOn_wellFormed
  have hv := Elements.wellFormed_ofList hvs
  have hw := Elements.wellFormed_ofList hws
  have hdistinct (us : List Value) : (Elements.ofList us).Pairwise fun x y => ¬ Equals x y :=
    (Elements.pairwise_ofList us).imp fun h => Bool.eq_false_iff.mp h
  rw [equal_set_iff, covers_elements hper hv hw,
    length_eq_and_covers_iff hper hv hw (hdistinct vs) (hdistinct ws),
    Elements.covers_ofList hvs hws, Elements.covers_ofList hws hvs]

theorem covers_of_subset (hvs : ∀ v ∈ vs, WellFormed v)
    (hnan : ∀ v ∈ vs, ¬ Occurs (.float .nan) v) (h : vs ⊆ ws) : Covers Equals vs ws :=
  fun v hv => ⟨v, h hv, (equals_self_iff_no_nan (hvs v hv)).mpr (hnan v hv)⟩

theorem sets_are_extensional (s s' : Stamp) (vs ws : List Value) (hvs : ∀ v ∈ vs, WellFormed v)
    (hws : ∀ w ∈ ws, WellFormed w) :
    Elements.ofList vs = Elements.firsts vs ∧
    (Elements.ofList vs).Pairwise (fun x y => equal x y = false ∧ equal y x = false) ∧
    (∀ x, WellFormed x →
      (set s (Elements.ofList vs)).has? x = some (vs.any fun v => equal v x)) ∧
    (equal (set s (Elements.ofList vs)) (set s' (Elements.ofList ws)) = true ↔
      (∀ v ∈ vs, ∃ w ∈ ws, equal v w = true) ∧ ∀ w ∈ ws, ∃ v ∈ vs, equal w v = true) ∧
    ((∀ v ∈ vs, ¬ Occurs (.float .nan) v) → (∀ x, x ∈ vs ↔ x ∈ ws) →
      equal (set s (Elements.ofList vs)) (set s' (Elements.ofList ws)) = true) := by
  refine ⟨Elements.ofList_eq_firsts hvs, ?_, fun x hx => ?_, equal_set_ofList_iff hvs hws, ?_⟩
  · exact pairwise_distinct (Elements.wellFormed_ofList hvs) (Elements.pairwise_ofList vs)
  · exact congrArg some (Elements.elementIn_ofList hvs hx)
  · intro hnan hsame
    have hnan' : ∀ w ∈ ws, ¬ Occurs (.float .nan) w := fun w hw => hnan w ((hsame w).mpr hw)
    refine (equal_set_ofList_iff hvs hws).mpr ⟨?_, ?_⟩
    · exact covers_of_subset hvs hnan fun v hv => (hsame v).mp hv
    · exact covers_of_subset hws hnan' fun w hw => (hsame w).mpr hw

def ascending : Value := set 2 (Elements.ofList [int 1, int 2])

def descending : Value := set 3 (Elements.ofList [int 2, int 1])

theorem wellFormed_ascending : WellFormed ascending := by
  have hint (n : Int) : WellFormed (.int n) := .atom rfl
  exact .set (by simp [hint])

theorem wellFormed_descending : WellFormed descending := by
  have hint (n : Int) : WellFormed (.int n) := .atom rfl
  exact .set (by simp [hint])

theorem equal_ascending_descending : equal ascending descending = true := by
  simp [ascending, descending, Elements.ofList, Elements.add, elementIn, elementsIn, equal]

theorem equal_ascending_absent : equal ascending absent = false := by simp [ascending, equal]

theorem equal_absent : equal absent absent = true := by simp [equal]

theorem equal_descending : equal descending descending = true := by
  have h := equal_congr_left wellFormed_ascending wellFormed_descending wellFormed_descending
    equal_ascending_descending
  rw [← h, equal_ascending_descending]

theorem sets_are_extensional_nested :
    (∀ v ∈ [ascending, absent, descending], WellFormed v) ∧
    (∀ w ∈ [absent, descending], WellFormed w) ∧
    Elements.ofList [ascending, absent, descending] = [ascending, absent] ∧
    Elements.firsts [ascending, absent, descending] = [ascending, absent] ∧
    (set 0 (Elements.ofList [ascending, absent, descending])).has? descending = some true ∧
    equal (set 0 (Elements.ofList [ascending, absent, descending]))
      (set 1 (Elements.ofList [absent, descending])) = true := by
  have habsent : WellFormed absent := .atom rfl
  have hvs : ∀ v ∈ [ascending, absent, descending], WellFormed v := by
    simp [wellFormed_ascending, wellFormed_descending, habsent]
  have hws : ∀ w ∈ [absent, descending], WellFormed w := by simp [wellFormed_descending, habsent]
  obtain ⟨hfirsts, _, hhas, hequal, _⟩ := sets_are_extensional 0 1 _ _ hvs hws
  have hkept : Elements.ofList [ascending, absent, descending] = [ascending, absent] := by
    simp [Elements.ofList, Elements.add, elementIn, equal_ascending_absent,
      equal_ascending_descending]
  refine ⟨hvs, hws, hkept, hfirsts ▸ hkept, ?_, hequal.mpr ⟨?_, ?_⟩⟩
  · rw [hhas descending wellFormed_descending]
    simp [equal_ascending_descending]
  · simp [equal_ascending_descending, equal_absent, equal_descending]
  · simp [equal_absent, equal_descending]

end Toolchain.Value
