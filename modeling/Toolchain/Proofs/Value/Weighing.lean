import Toolchain.Proofs.Value.Equality
import Toolchain.Value.Weight

namespace Toolchain

theorem Double.isZero_eq_of_equal {x y : Double} (h : x.equal y = true) : x.isZero = y.isZero := by
  cases x with
  | nan => exact absurd h (by simp [equal])
  | infinite s =>
      cases y with
      | infinite t => rfl
      | _ => exact absurd h (by simp [equal])
  | finite s m =>
      cases y with
      | finite t n =>
          have hunits : m = 0 ↔ n = 0 := by
            have hsigned := of_decide_eq_true h
            simp only [signed] at hsigned
            split at hsigned <;> split at hsigned <;> omega
          cases m <;> cases n <;> simp_all [isZero]
      | _ => exact absurd h (by simp [equal])

theorem isEmpty_eq_of_length_eq {α : Type} {xs ys : List α} (h : xs.length = ys.length) :
    xs.isEmpty = ys.isEmpty := by
  rw [Bool.eq_iff_iff, List.isEmpty_iff_length_eq_zero, List.isEmpty_iff_length_eq_zero, h]

namespace Value

variable {a b x y : Value} {xs ys : List Value} {m : Nat}

section pairing

theorem Matched.exists_perm_parts (ha : Within (m + 1) a) (hb : Within (m + 1) b)
    (h : Matched a b) : ∃ ps, ps.Perm b.parts ∧ List.Forall₂ Equals a.parts ps := by
  have hper := perOn_equals m
  cases h with
  | enum h => exact ⟨_, .rfl, h⟩
  | tuple h => exact ⟨_, .rfl, h⟩
  | vec h => exact ⟨_, .rfl, h⟩
  | struct hlen h =>
      have hcovers := (covers_fields hb.1.names_nodup).mp h
      obtain ⟨gs, hperm, hpaired⟩ :=
        hcovers.exists_perm (perOn_fields hper) ha.fields.1 hb.fields.1 ha.fields.2 hlen
      exact ⟨gs.map (·.2), hperm.map _, List.rel_map (fun _ _ h => h.2) hpaired⟩
  | set hlen h =>
      have hcovers := (ha.covers_elements hper hb).mp h
      exact hcovers.exists_perm hper ha.elements.1 hb.elements.1 ha.elements.2 hlen
  | map hlen h =>
      have hcovers := (ha.covers_entries hper hb).mp h
      obtain ⟨gs, hperm, hpaired⟩ :=
        hcovers.exists_perm (perOn_entries hper) ha.entries.1 hb.entries.1 ha.entries.2 hlen
      refine ⟨gs.map (·.1) ++ gs.map (·.2), (hperm.map _).append (hperm.map _), ?_⟩
      exact List.rel_append (List.rel_map (fun _ _ h => h.1) hpaired)
        (List.rel_map (fun _ _ h => h.2) hpaired)
  | _ => exact ⟨[], .nil, .nil⟩

theorem Equals.induction {P : Value → Value → Prop}
    (step : ∀ {a b : Value} {ps : List Value}, Matched a b → ps.Perm b.parts →
      List.Forall₂ P a.parts ps → P a b)
    (ha : WellFormed a) (hb : WellFormed b) (h : Equals a b) : P a b := by
  induction hm : sizeOf a using Nat.strongRecOn generalizing a b with
  | ind m ih =>
      have hmatched := equals_iff_matched.mp h
      obtain ⟨ps, hperm, hpaired⟩ := hmatched.exists_perm_parts (m := sizeOf a + sizeOf b)
        ⟨ha, by omega⟩ ⟨hb, by omega⟩
      refine step hmatched hperm ?_
      rw [List.forall₂_iff_zip] at hpaired ⊢
      refine ⟨hpaired.1, fun {x y} hxy => ?_⟩
      obtain ⟨hx, hy⟩ := List.of_mem_zip hxy
      exact ih (sizeOf x) (hm ▸ sizeOf_lt_of_mem_parts hx) (ha.of_mem_parts x hx)
        (hb.of_mem_parts y (hperm.subset hy)) (hpaired.2 hxy) rfl

end pairing

section sums

theorem sizeFields_eq (fs : List (String × Value)) : sizeFields fs = sizeAll (fs.map (·.2)) := by
  induction fs with
  | nil => rfl
  | cons f fs ih => rw [sizeFields, ih, List.map_cons, sizeAll]

theorem sizeAll_append (xs ys : List Value) : sizeAll (xs ++ ys) = sizeAll xs + sizeAll ys := by
  induction xs with
  | nil => simp [sizeAll]
  | cons x xs ih => simp [sizeAll, ih, Nat.add_assoc]

theorem sizeEntries_eq (es : List (Value × Value)) :
    sizeEntries es = sizeAll (es.map (·.1) ++ es.map (·.2)) := by
  rw [sizeAll_append]
  induction es with
  | nil => rfl
  | cons e es ih =>
      simp only [sizeEntries, ih, List.map_cons, sizeAll]
      omega

theorem sizeAll_perm (h : xs.Perm ys) : sizeAll xs = sizeAll ys := by
  induction h with
  | nil => rfl
  | cons x _ ih => rw [sizeAll, sizeAll, ih]
  | swap x y xs => simp only [sizeAll, Nat.add_left_comm]
  | trans _ _ ih₁ ih₂ => exact ih₁.trans ih₂

theorem sizeAll_congr (h : List.Forall₂ (fun x y => size x = size y) xs ys) :
    sizeAll xs = sizeAll ys := by
  induction h with
  | nil => rfl
  | cons hxy _ ih => rw [sizeAll, sizeAll, hxy, ih]

theorem size_of_not_isAtom (h : a.isAtom = false) : a.size = sizeAll a.parts + 8 := by
  cases a with
  | struct stamp name fs => rw [size, sizeFields_eq, parts]
  | map stamp es => rw [size, sizeEntries_eq, parts]
  | enum stamp name variant vs | tuple stamp vs | vec stamp vs | set stamp vs => rw [size, parts]
  | _ => exact absurd h (by simp [isAtom])

end sums

section scans

theorem referencesAll_eq_flatMap (vs : List Value) :
    referencesAll vs = vs.flatMap references := by
  induction vs with
  | nil => rfl
  | cons v vs ih => rw [referencesAll, ih, List.flatMap_cons]

theorem referencesFields_eq (fs : List (String × Value)) :
    referencesFields fs = (fs.map (·.2)).flatMap references := by
  induction fs with
  | nil => rfl
  | cons f fs ih => rw [referencesFields, ih, List.map_cons, List.flatMap_cons]

theorem referencesEntries_perm (es : List (Value × Value)) :
    (referencesEntries es).Perm ((es.map (·.1) ++ es.map (·.2)).flatMap references) := by
  induction es with
  | nil => exact .nil
  | cons e es ih =>
      rw [List.flatMap_append] at ih ⊢
      simp only [referencesEntries, List.map_cons, List.flatMap_cons, List.append_assoc]
      refine .append_left _ ((ih.append_left _).trans ?_)
      exact List.perm_append_comm_assoc ..

theorem flatMap_references_congr
    (h : List.Forall₂ (fun x y => (references x).Perm (references y)) xs ys) :
    (xs.flatMap references).Perm (ys.flatMap references) := by
  induction h with
  | nil => exact .nil
  | cons hxy _ ih => exact hxy.append ih

theorem references_of_not_isAtom (h : a.isAtom = false) :
    a.references.Perm (a.parts.flatMap references) := by
  cases a with
  | struct stamp name fs => rw [references, referencesFields_eq, parts]
  | map stamp es => exact referencesEntries_perm es
  | enum stamp name variant vs | tuple stamp vs | vec stamp vs | set stamp vs =>
      rw [references, referencesAll_eq_flatMap, parts]
  | _ => exact absurd h (by simp [isAtom])

end scans

def Coherent (a b : Value) : Prop :=
  ∀ x y s, Occurs x a → Occurs y b → x.isAtom = true → y.isAtom = true →
    x.stamp? = some s → y.stamp? = some s → x = y

theorem Coherent.parts (h : Coherent a b) (hx : x ∈ a.parts) (hy : y ∈ b.parts) : Coherent x y :=
  fun u v s hu hv => h u v s (.inside hx hu) (.inside hy hv)

namespace Matched

theorem isAtom_eq (h : Matched a b) : a.isAtom = b.isAtom := by cases h <;> rfl

theorem kindName_eq (h : Matched a b) : a.kindName = b.kindName := by cases h <;> rfl

theorem isTruthy_eq (h : Matched a b) : a.isTruthy = b.isTruthy := by
  cases h with
  | float h => rw [isTruthy, isTruthy, Double.isZero_eq_of_equal h]
  | vec h => rw [isTruthy, isTruthy, isEmpty_eq_of_length_eq h.length_eq]
  | set hlen _ => rw [isTruthy, isTruthy, isEmpty_eq_of_length_eq hlen]
  | map hlen _ => rw [isTruthy, isTruthy, isEmpty_eq_of_length_eq hlen]
  | _ => rfl

theorem size_of_isAtom (h : Matched a b) (ha : a.isAtom = true) : a.size = b.size := by
  cases h with
  | struct | enum | tuple | vec | set | map => exact absurd ha (by simp [isAtom])
  | _ => simp only [size]

theorem references_of_isAtom (h : Matched a b) (hc : Coherent a b) (ha : a.isAtom = true) :
    a.references = b.references := by
  cases h with
  | struct | enum | tuple | vec | set | map => exact absurd ha (by simp [isAtom])
  | func | closure => rw [hc _ _ _ .here .here rfl rfl rfl rfl]
  | _ => simp only [references]

end Matched

theorem Equals.size_eq (ha : WellFormed a) (hb : WellFormed b) (h : Equals a b) :
    a.size = b.size := by
  refine Equals.induction (P := fun a b => a.size = b.size) ?_ ha hb h
  intro a b ps hmatched hperm hpaired
  cases hatom : a.isAtom with
  | true => exact hmatched.size_of_isAtom hatom
  | false =>
      rw [size_of_not_isAtom hatom, size_of_not_isAtom (hmatched.isAtom_eq ▸ hatom),
        sizeAll_congr hpaired, sizeAll_perm hperm]

theorem Equals.references_perm (ha : WellFormed a) (hb : WellFormed b) (h : Equals a b)
    (hc : Coherent a b) : a.references.Perm b.references := by
  revert hc
  refine Equals.induction (P := fun a b => Coherent a b → a.references.Perm b.references) ?_ ha hb h
  intro a b ps hmatched hperm hpaired hc
  cases hatom : a.isAtom with
  | true => rw [hmatched.references_of_isAtom hc hatom]
  | false =>
      have hparts : List.Forall₂ (fun x y => (references x).Perm (references y)) a.parts ps := by
        rw [List.forall₂_iff_zip] at hpaired ⊢
        refine ⟨hpaired.1, fun hxy => hpaired.2 hxy ?_⟩
        exact hc.parts (List.of_mem_zip hxy).1 (hperm.subset (List.of_mem_zip hxy).2)
      have hb : b.isAtom = false := hmatched.isAtom_eq ▸ hatom
      calc a.references.Perm (a.parts.flatMap references) := references_of_not_isAtom hatom
        List.Perm _ (ps.flatMap references) := flatMap_references_congr hparts
        List.Perm _ (b.parts.flatMap references) := hperm.flatMap_right references
        List.Perm _ b.references := (references_of_not_isAtom hb).symm

theorem equal_values_weigh_the_same (a b : Value) (ha : WellFormed a) (hb : WellFormed b)
    (h : equal a b = true) :
    a.size = b.size ∧ a.kindName = b.kindName ∧ a.isTruthy = b.isTruthy ∧
      (Coherent a b → a.references.Perm b.references) := by
  have hmatched := matched_of_equal h
  exact ⟨Equals.size_eq ha hb h, hmatched.kindName_eq, hmatched.isTruthy_eq,
    Equals.references_perm ha hb h⟩

section witness

def shared : Value := .closure 3 [] [("x", .ref 6)]

def HoldsShared (a : Value) : Prop :=
  ∀ x s, Occurs x a → x.isAtom = true → x.stamp? = some s → x = shared

theorem holdsShared_of_parts (ha : a.stamp? = Option.none ∨ a.isAtom = false)
    (hparts : ∀ p ∈ a.parts, HoldsShared p) : HoldsShared a := by
  intro x s hx hatom hstamp
  cases hx with
  | here => simp [hatom, hstamp] at ha
  | inside hp hx => exact hparts _ hp x s hx hatom hstamp

theorem holdsShared_shared : HoldsShared shared := by
  intro x s hx _ _
  cases hx with
  | here => rfl
  | inside hp _ => exact absurd hp (by simp [shared, parts])

theorem HoldsShared.coherent (ha : HoldsShared a) (hb : HoldsShared b) : Coherent a b :=
  fun x y s hx hy hatom hatom' hstamp hstamp' =>
    (ha x s hx hatom hstamp).trans (hb y s hy hatom' hstamp').symm

def stored : Value := .map 0 [(.int 1, .set 1 [.ref 4, .ref 5]), (.str "k", shared)]

def restored : Value := .map 2 [(.str "k", shared), (.int 1, .set 4 [.ref 5, .ref 4])]

theorem holdsShared_pair (t : Stamp) (i j : ObjectId) : HoldsShared (.set t [.ref i, .ref j]) := by
  have href (k : ObjectId) : HoldsShared (.ref k) :=
    holdsShared_of_parts (.inl rfl) (by simp [parts])
  exact holdsShared_of_parts (.inr rfl) (by simp [parts, href])

theorem wellFormed_pair (t : Stamp) {i j : ObjectId} (h : i ≠ j) :
    WellFormed (.set t [.ref i, .ref j]) := by
  have href (k : ObjectId) : WellFormed (.ref k) := .atom rfl
  exact wellFormed_set_iff.mpr ⟨by simp [href], by simp [equal, h]⟩

theorem equal_values_weigh_the_same_stored :
    WellFormed stored ∧ WellFormed restored ∧ equal stored restored = true ∧
    Coherent stored restored ∧ stored.size = restored.size ∧
    stored.references = [4, 5, 6] ∧ restored.references = [6, 5, 4] ∧
    stored.references.Perm restored.references := by
  have hint : WellFormed (.int 1) ∧ HoldsShared (.int 1) :=
    ⟨.atom rfl, holdsShared_of_parts (.inl rfl) (by simp [parts])⟩
  have hstr : WellFormed (.str "k") ∧ HoldsShared (.str "k") :=
    ⟨.atom rfl, holdsShared_of_parts (.inl rfl) (by simp [parts])⟩
  have hshared : WellFormed shared := .atom rfl
  have ha : WellFormed stored :=
    wellFormed_map_iff.mpr
      ⟨by simp [hint, hstr, hshared, wellFormed_pair], by simp [equal]⟩
  have hb : WellFormed restored :=
    wellFormed_map_iff.mpr
      ⟨by simp [hint, hstr, hshared, wellFormed_pair], by simp [equal]⟩
  have hequal : equal stored restored = true := by
    simp [stored, restored, shared, equal, entriesIn, entryIn, elementsIn, elementIn]
  have hcoherent : Coherent stored restored := by
    refine HoldsShared.coherent (holdsShared_of_parts (.inr rfl) ?_)
      (holdsShared_of_parts (.inr rfl) ?_)
    · simp [stored, parts, hint, hstr, holdsShared_pair, holdsShared_shared]
    · simp [restored, parts, hint, hstr, holdsShared_pair, holdsShared_shared]
  obtain ⟨hsize, _, _, hperm⟩ := equal_values_weigh_the_same stored restored ha hb hequal
  exact ⟨ha, hb, hequal, hcoherent, hsize, rfl, rfl, hperm hcoherent⟩

end witness

end Value

end Toolchain
