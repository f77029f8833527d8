import Toolchain.Proofs.Ty.Instances

namespace Toolchain

namespace Subst

variable {s s' : Subst} {names : List String} {P : (String → Ty) → Prop} {r : Bool × Subst}
  {n : String} {u : Ty}

def Extends (s' s : Subst) : Prop := ∀ n u, s.get? n = some u → s'.get? n = some u

theorem image_of_get? (h : s.get? n = some u) : s.image n = u := by
  rw [image, h, Option.getD_some]

theorem Extends.agrees_image (h : s'.Extends s) : s.Agrees s'.image :=
  fun n u hn => image_of_get? (h n u hn)

theorem Solved.extends (h : Solved s names P r) : r.2.Extends s := h.kept

theorem Solved.image (h : Solved s names P r) (hr : r.1 = true) : P r.2.image :=
  h.sound hr _ (agrees_image r.2)

theorem Solved.eq_true_iff (h : Solved s names P r) :
    r.1 = true ↔ ∃ s' : Subst, s'.Extends s ∧ P s'.image := by
  constructor
  · intro hr
    exact ⟨r.2, h.extends, h.image hr⟩
  · rintro ⟨s', hs', hP⟩
    exact (h.complete _ hs'.agrees_image hP).1

-- An extension need not bind every name of the problem, but where it does it has no choice.
theorem Solved.get?_of_extends (h : Solved s names P r) (hs' : s'.Extends s) (hP : P s'.image)
    (hn : n ∈ names) (hu : s'.get? n = some u) : r.2.get? n = some u := by
  obtain ⟨hr, hagrees⟩ := h.complete _ hs'.agrees_image hP
  have hbound : (r.2.get? n).isSome := (h.bound hr n).mpr (.inr hn)
  obtain ⟨v, hv⟩ := Option.isSome_iff_exists.mp hbound
  have himage : v = u := by
    rw [← hagrees n v hv]
    exact image_of_get? hu
  rw [hv, himage]

end Subst

namespace Ty

theorem mem_freeVars {t : Ty} {n : String} : n ∈ t.freeVars ↔ n ∈ t.vars := List.mem_eraseDups

theorem instantiate_binds_minimally (p t : Ty) (s : Subst) :
    let r := instantiate s p t
    (r.1 = true ↔ ∃ s' : Subst, s'.Extends s ∧ p.apply s' = t) ∧
    (r.1 = true → p.apply r.2 = t ∧
      (∀ n, (r.2.get? n).isSome ↔ (s.get? n).isSome ∨ n ∈ p.freeVars) ∧
      ∀ s' : Subst, s'.Extends s → p.apply s' = t → ∀ n ∈ p.freeVars, ∀ u,
        s'.get? n = some u → r.2.get? n = some u) ∧
    r.2.Extends s := by
  intro r
  have h : Subst.Solved s p.vars (fun θ => p.under θ = t) r := solved_instantiate p s t
  simp only [apply_eq_under, mem_freeVars]
  refine ⟨h.eq_true_iff, fun hr => ⟨h.image hr, h.bound hr, ?_⟩, h.extends⟩
  intro s' hs' hP n hn u hu
  exact h.get?_of_extends hs' hP hn hu

end Ty

end Toolchain
