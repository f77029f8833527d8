import Toolchain.Proofs.Ty.FreeVariables
import Toolchain.Ty.WellFormed

namespace Toolchain.Ty

variable {t u : Ty} {P Q : Ty → Prop}

inductive Occurs (u : Ty) : Ty → Prop
  | here : Occurs u u
  | inside {t c : Ty} : c ∈ t.children → Occurs u c → Occurs u t

theorem occurs_iff : Occurs u t ↔ t = u ∨ ∃ c ∈ t.children, Occurs u c := by
  constructor
  · rintro (_ | ⟨hc, h⟩)
    · exact .inl rfl
    · exact .inr ⟨_, hc, h⟩
  · rintro (rfl | ⟨c, hc, h⟩)
    · exact .here
    · exact .inside hc h

theorem forall_occurs_iff :
    (∀ u, Occurs u t → P u) ↔ P t ∧ ∀ c ∈ t.children, ∀ u, Occurs u c → P u := by
  constructor
  · exact fun h => ⟨h t .here, fun c hc u hu => h u (.inside hc hu)⟩
  · rintro ⟨ht, hc⟩ u hu
    rcases occurs_iff.mp hu with rfl | ⟨c, hmem, h⟩
    · exact ht
    · exact hc c hmem u h

theorem iff_forall_occurs (h : ∀ t, Q t ↔ P t ∧ ∀ c ∈ t.children, Q c) (t : Ty) :
    Q t ↔ ∀ u, Occurs u t → P u := by
  induction t using children_induction with
  | var v =>
      rw [h, forall_occurs_iff]
      simp [children]
  | node t _ ih =>
      rw [h, forall_occurs_iff]
      exact and_congr_right fun _ => forall₂_congr ih

def Malformed : Ty → Prop
  | .absent => True
  | .con n => n ∉ primitives
  | .generic n _ => n = ""
  | _ => False

theorem isWellFormed_iff_children (t : Ty) : t.isWellFormed = true ↔
    ¬ t.Malformed ∧ ∀ c ∈ t.children, c.isWellFormed = true := by
  simp only [isWellFormed, Option.isNone_iff_eq_none]
  cases t with
  | absent => simp [firstMalformed, Malformed]
  | con n => simp [firstMalformed, Malformed, children]
  | var n => simp [firstMalformed, Malformed, children]
  | generic n ts =>
      by_cases hn : n = ""
      · simp [firstMalformed, Malformed, hn]
      · simp [firstMalformed, Malformed, children, hn, firstMalformedOf_eq_none_iff]
  | product ts | sum ts | tuple ts =>
      simp [firstMalformed, Malformed, children, firstMalformedOf_eq_none_iff]
  | func ps r =>
      simp [firstMalformed, Malformed, children, firstMalformedOf_eq_none_iff, or_imp, forall_and]
  | unary c t => simp [firstMalformed, Malformed, children]
  | binary c t u => simp [firstMalformed, Malformed, children]

theorem isWellFormed_iff_occurs (t : Ty) :
    t.isWellFormed = true ↔ ∀ u, Occurs u t → ¬ u.Malformed :=
  iff_forall_occurs isWellFormed_iff_children t

theorem malformed_apply (s : Subst) (h : ∀ v, t ≠ .var v) :
    (t.apply s).Malformed ↔ t.Malformed := by
  cases t with
  | var v => exact absurd rfl (h v)
  | _ => simp [apply, Malformed]

theorem forall_mem_freeVars_iff (h : ∀ v, t ≠ .var v) {p : String → Prop} :
    (∀ v ∈ t.freeVars, p v) ↔ ∀ c ∈ t.children, ∀ v ∈ c.freeVars, p v := by
  simp only [freeVars_eq_children h, List.mem_eraseDups, List.forall_mem_flatMap]

theorem isWellFormed_apply (t : Ty) (s : Subst) : (t.apply s).isWellFormed = true ↔
    t.isWellFormed = true ∧
      ∀ v ∈ t.freeVars, ∀ u, s.get? v = some u → u.isWellFormed = true := by
  induction t using children_induction with
  | var v =>
      have hv : (var v).isWellFormed = true := rfl
      cases hu : s.get? v <;> simp [apply, hu, hv, freeVars, vars]
  | node t h ih =>
      -- Checking, substituting and collecting variables meet the same components.
      calc (t.apply s).isWellFormed = true
          ↔ ¬ t.Malformed ∧ ∀ c ∈ t.children, (c.apply s).isWellFormed = true := by
            rw [isWellFormed_iff_children, malformed_apply s h, children_apply s h,
              List.forall_mem_map]
        _ ↔ ¬ t.Malformed ∧ (∀ c ∈ t.children, c.isWellFormed = true) ∧
              ∀ c ∈ t.children, ∀ v ∈ c.freeVars, ∀ u, s.get? v = some u →
                u.isWellFormed = true := by
            rw [← forall₂_and]
            exact and_congr_right fun _ => forall₂_congr ih
        _ ↔ t.isWellFormed = true ∧
              ∀ v ∈ t.freeVars, ∀ u, s.get? v = some u → u.isWellFormed = true := by
            rw [← forall_mem_freeVars_iff h, ← and_assoc, ← isWellFormed_iff_children]

theorem instances_are_well_formed_iff (t : Ty) (s : Subst) :
    (t.isWellFormed = true ↔ ∀ u, Occurs u t → ¬ u.Malformed) ∧
    ((t.apply s).isWellFormed = true ↔ t.isWellFormed = true ∧
      ∀ v ∈ t.freeVars, ∀ u, s.get? v = some u → u.isWellFormed = true) :=
  ⟨isWellFormed_iff_occurs t, isWellFormed_apply t s⟩

end Toolchain.Ty
