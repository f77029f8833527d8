import Mathlib.Data.List.Forall2
import Toolchain.Ty.Kind

namespace Toolchain.Kind

variable {k l : Kind} {ks ls : List Kind} {x y : List Char}

def operand : Kind → List Char
  | .star => ['*']
  | .arrow k r => '(' :: (render (.arrow k r)).toList ++ [')']

theorem toList_render_star : (render .star).toList = ['*'] := by
  simp [render]

theorem toList_render_arrow (k r : Kind) :
    (render (.arrow k r)).toList = k.operand ++ " -> ".toList ++ r.render.toList := by
  cases k <;> simp [render, operand]

def Delimited (k : Kind) : Prop :=
  ∀ l x y, x.head? ≠ some ' ' → y.head? ≠ some ' ' →
    k.render.toList ++ x = l.render.toList ++ y → k = l ∧ x = y

-- Here anything may follow: the closing parenthesis keeps it away from the text of the kind.
theorem Delimited.operand_append_inj (hk : Delimited k) (h : k.operand ++ x = l.operand ++ y) :
    k = l ∧ x = y := by
  cases k with
  | star =>
      cases l with
      | star => exact ⟨rfl, (List.cons.inj h).2⟩
      | arrow l s => simp [operand] at h
  | arrow k r =>
      cases l with
      | star => simp [operand] at h
      | arrow l s =>
          have hinner : (render (.arrow k r)).toList ++ ')' :: x =
              (render (.arrow l s)).toList ++ ')' :: y := by
            simpa [operand] using h
          obtain ⟨hkl, hxy⟩ := hk (.arrow l s) (')' :: x) (')' :: y) (by simp) (by simp) hinner
          exact ⟨hkl, (List.cons.inj hxy).2⟩

theorem star_append_ne_arrow (hx : x.head? ≠ some ' ') (l s : Kind) :
    (render .star).toList ++ x ≠ (render (.arrow l s)).toList ++ y := by
  intro h
  rw [toList_render_star, toList_render_arrow] at h
  cases l with
  | star =>
      have hrest : x = " -> ".toList ++ s.render.toList ++ y := (List.cons.inj h).2
      exact hx (by rw [hrest]; rfl)
  | arrow l s => simp [operand] at h

theorem delimited (k : Kind) : Delimited k := by
  induction k with
  | star =>
      intro l x y hx _ h
      cases l with
      | star => exact ⟨rfl, List.append_cancel_left h⟩
      | arrow l s => exact absurd h (star_append_ne_arrow hx l s)
  | arrow k r ihk ihr =>
      intro l x y hx hy h
      cases l with
      | star => exact absurd h.symm (star_append_ne_arrow hy k r)
      | arrow l s =>
          rw [toList_render_arrow, toList_render_arrow, List.append_assoc, List.append_assoc,
            List.append_assoc, List.append_assoc] at h
          obtain ⟨hkl, hrest⟩ := ihk.operand_append_inj h
          obtain ⟨hrs, hxy⟩ := ihr s x y hx hy (List.append_cancel_left hrest)
          exact ⟨by rw [hkl, hrs], hxy⟩

theorem eq_of_render_eq (h : k.render = l.render) : k = l := by
  have ht : k.render.toList ++ [] = l.render.toList ++ [] := by rw [h]
  exact (delimited k l [] [] (by simp) (by simp) ht).1

def spine : Kind → List Kind
  | .star => [.star]
  | .arrow k r => k :: spine r

theorem spine_ofList (h : ks.getLast? = some .star) : (ofList ks).spine = ks := by
  fun_induction ofList ks with
  | case1 => simp at h
  | case2 k =>
      obtain rfl : k = .star := by simpa using h
      rfl
  | case3 k l ks ih =>
      rw [List.getLast?_cons_cons] at h
      rw [spine, ih h]

theorem ofList_eq_iff (hk : ks.getLast? = some .star) (hl : ls.getLast? = some .star) :
    ofList ks = ofList ls ↔ ks = ls := by
  constructor
  · intro h
    rw [← spine_ofList hk, h, spine_ofList hl]
  · exact congrArg ofList

-- A list that ends in an arrow makes the same kind as the one that goes on with its spine.
example : ofList [.star, unary] = ofList [.star, .star, .star] := rfl

theorem forall₂_beq_iff : List.Forall₂ (fun k l => beq k l = true) ks ls ↔ ks = ls := by
  simp only [beq_iff, List.forall₂_eq_eq_eq]

theorem rendering_is_unambiguous :
    (∀ k l : Kind, k.render = l.render ↔ beq k l = true) ∧
    ∀ ks ls : List Kind, ks.getLast? = some .star → ls.getLast? = some .star →
      (beq (ofList ks) (ofList ls) = true ↔
        List.Forall₂ (fun k l => beq k l = true) ks ls) := by
  constructor
  · intro k l
    rw [beq_iff]
    exact ⟨eq_of_render_eq, congrArg render⟩
  · intro ks ls hk hl
    rw [beq_iff, forall₂_beq_iff]
    exact ofList_eq_iff hk hl

theorem arrow_operand_is_told_apart :
    ([unary, star].getLast? = some star ∧ [star, star, star].getLast? = some star) ∧
    (beq (ofList [unary, star]) (ofList [star, star, star]) = true ↔
      List.Forall₂ (fun k l => beq k l = true) [unary, star] [star, star, star]) ∧
    (ofList [unary, star]).render ≠ (ofList [star, star, star]).render := by
  refine ⟨⟨rfl, rfl⟩, rendering_is_unambiguous.2 _ _ rfl rfl, ?_⟩
  rw [ne_eq, rendering_is_unambiguous.1]
  decide

end Toolchain.Kind
