import Toolchain.Proofs.Ty.Assignment
import Toolchain.Ty.Match

namespace Toolchain

namespace Subst

variable {s s' : Subst} {θ : String → Ty} {n m : String} {t u : Ty}

def Agrees (s : Subst) (θ : String → Ty) : Prop := ∀ n u, s.get? n = some u → θ n = u

theorem agrees_nil (θ : String → Ty) : Agrees [] θ := fun _ _ h => by simp [get?] at h

theorem agrees_image (s : Subst) : s.Agrees s.image := fun n u h => by simp [image, h]

theorem get?_bind (hn : s.get? n = none) (m : String) :
    (s.bind n t).get? m = if m = n then some t else s.get? m := by
  rw [get?] at hn
  simp only [get?, bind, List.lookup_append, List.lookup_cons, List.lookup_nil]
  by_cases hm : m = n
  · simp [hm, hn]
  · simp [hm, beq_eq_false_iff_ne.mpr hm]

/-- `r` tells whether some assignment that agrees with `s` solves `P`. If there is one, the
bindings in `r` are those that all of them have in common, made for `names` only. -/
structure Solved (s : Subst) (names : List String) (P : (String → Ty) → Prop)
    (r : Bool × Subst) : Prop where
  kept : ∀ n u, s.get? n = some u → r.2.get? n = some u
  bound : r.1 = true → ∀ n, (r.2.get? n).isSome ↔ (s.get? n).isSome ∨ n ∈ names
  sound : r.1 = true → ∀ θ, r.2.Agrees θ → P θ
  complete : ∀ θ, s.Agrees θ → P θ → r.1 = true ∧ r.2.Agrees θ

namespace Solved

variable {names more : List String} {P Q : (String → Ty) → Prop} {r : Bool × Subst}

theorem congr (h : Solved s names P r) (hPQ : ∀ θ, P θ ↔ Q θ) : Solved s names Q r where
  kept := h.kept
  bound := h.bound
  sound := fun hr θ hθ => (hPQ θ).mp (h.sound hr θ hθ)
  complete := fun θ hθ hQ => h.complete θ hθ ((hPQ θ).mpr hQ)

theorem unsolvable (h : ∀ θ, ¬ P θ) : Solved s names P (false, s) where
  kept := fun _ _ hn => hn
  bound := fun hr => absurd hr (by simp)
  sound := fun hr => absurd hr (by simp)
  complete := fun θ _ hP => absurd hP (h θ)

theorem check (p : Prop) [Decidable p] : Solved s [] (fun _ => p) (decide p, s) where
  kept := fun _ _ hn => hn
  bound := fun _ n => by simp
  sound := fun hr _ _ => of_decide_eq_true hr
  complete := fun _ hθ hp => ⟨decide_eq_true hp, hθ⟩

theorem known (hn : s.get? n = some u) : Solved s [n] (fun θ => θ n = t) (decide (u = t), s) where
  kept := fun _ _ hm => hm
  bound := fun _ m => by
    constructor
    · exact .inl
    · rintro (hm | hm)
      · exact hm
      · rw [List.mem_singleton.mp hm, hn]
        rfl
  sound := fun hr θ hθ => (hθ n u hn).trans (of_decide_eq_true hr)
  complete := fun θ hθ hP => ⟨decide_eq_true ((hθ n u hn).symm.trans hP), hθ⟩

theorem fresh (hn : s.get? n = none) : Solved s [n] (fun θ => θ n = t) (true, s.bind n t) where
  kept := fun m u hm => by
    have hne : m ≠ n := by
      rintro rfl
      rw [hn] at hm
      exact absurd hm (by simp)
    rw [get?_bind hn, if_neg hne, hm]
  bound := fun _ m => by
    rw [get?_bind hn, List.mem_singleton]
    split
    next h => simp [h]
    next h => simp [h]
  sound := fun _ θ hθ => hθ n t (by rw [get?_bind hn, if_pos rfl])
  complete := fun θ hθ hP => by
    refine ⟨rfl, fun m u hm => ?_⟩
    rw [get?_bind hn] at hm
    split at hm
    next h => rw [h, hP, Option.some.inj hm]
    next h => exact hθ m u hm

theorem next (h : Solved s names P (true, s')) (h' : Solved s' more Q r) :
    Solved s (names ++ more) (fun θ => P θ ∧ Q θ) r where
  kept := fun n u hn => h'.kept n u (h.kept n u hn)
  bound := fun hr n => by
    rw [h'.bound hr n, h.bound rfl n, List.mem_append, or_assoc]
  sound := fun hr θ hθ =>
    ⟨h.sound rfl θ fun n u hn => hθ n u (h'.kept n u hn), h'.sound hr θ hθ⟩
  complete := fun θ hθ hPQ => h'.complete θ (h.complete θ hθ hPQ.1).2 hPQ.2

theorem stop (h : Solved s names P (false, s')) :
    Solved s (names ++ more) (fun θ => P θ ∧ Q θ) (false, s') where
  kept := h.kept
  bound := fun hr => absurd hr (by simp)
  sound := fun hr => absurd hr (by simp)
  complete := fun θ hθ hPQ => absurd (h.complete θ hθ hPQ.1).1 (by simp)

end Solved

end Subst

namespace Ty

open Subst (Solved)

theorem length_eq_of_underAll {θ : String → Ty} {as bs : List Ty} (h : underAll θ as = bs) :
    as.length = bs.length := by
  rw [← h, underAll_eq_map, List.length_map]

theorem solved_instantiateAll {as : List Ty}
    (ih : ∀ a ∈ as, ∀ s b, Solved s a.vars (fun θ => a.under θ = b) (instantiate s a b)) :
    ∀ s bs, as.length = bs.length →
      Solved s (varsAll as) (fun θ => underAll θ as = bs) (instantiateAll s as bs) := by
  induction as with
  | nil =>
      intro s bs hlen
      rw [List.length_nil, eq_comm, List.length_eq_zero_iff] at hlen
      subst hlen
      exact (Solved.check True).congr fun θ => by simp [underAll]
  | cons a as iha =>
      intro s bs hlen
      obtain ⟨ha, has⟩ := List.forall_mem_cons.mp ih
      cases bs with
      | nil => simp at hlen
      | cons b bs =>
          have hcons (θ : String → Ty) : (a.under θ = b ∧ underAll θ as = bs) ↔
              underAll θ (a :: as) = b :: bs := by simp [underAll]
          have hhead := ha s b
          simp only [instantiateAll, varsAll]
          generalize instantiate s a b = r at hhead ⊢
          rcases r with ⟨_ | _, s'⟩
          · exact hhead.stop.congr hcons
          · exact (hhead.next (iha has s' bs (by simpa using hlen))).congr hcons

theorem solved_ite_instantiateAll {as : List Ty}
    (ih : ∀ a ∈ as, ∀ s b, Solved s a.vars (fun θ => a.under θ = b) (instantiate s a b))
    (s : Subst) (bs : List Ty) : Solved s (varsAll as) (fun θ => underAll θ as = bs)
      (if as.length = bs.length then instantiateAll s as bs else (false, s)) := by
  split
  next h => exact solved_instantiateAll ih s bs h
  next h => exact .unsolvable fun θ hθ => h (length_eq_of_underAll hθ)

theorem solved_instantiate (p : Ty) : ∀ s t,
    Solved s p.vars (fun θ => p.under θ = t) (instantiate s p t) := by
  induction p with
  | absent =>
      intro s t
      cases t with
      | absent => exact (Solved.check True).congr fun θ => by simp [under]
      | _ => exact .unsolvable fun θ => by simp [under]
  | con m =>
      intro s t
      cases t with
      | con n => exact (Solved.check (m = n)).congr fun θ => by simp [under]
      | _ => exact .unsolvable fun θ => by simp [under]
  | var n =>
      intro s t
      simp only [instantiate, vars, under]
      cases hn : s.get? n with
      | none => exact .fresh hn
      | some u => exact .known hn
  | generic m as ih =>
      intro s t
      cases t with
      | generic n bs =>
          simp only [instantiate, vars, under, generic.injEq]
          split
          next h => exact (solved_instantiateAll ih s bs h.2).congr fun θ => by simp [h.1]
          next h => exact .unsolvable fun θ hθ => h ⟨hθ.1, length_eq_of_underAll hθ.2⟩
      | _ => exact .unsolvable fun θ => by simp [under]
  | product as ih =>
      intro s t
      cases t with
      | product bs => exact (solved_ite_instantiateAll ih s bs).congr fun θ => by simp [under]
      | _ => exact .unsolvable fun θ => by simp [under]
  | sum as ih =>
      intro s t
      cases t with
      | sum bs => exact (solved_ite_instantiateAll ih s bs).congr fun θ => by simp [under]
      | _ => exact .unsolvable fun θ => by simp [under]
  | tuple as ih =>
      intro s t
      cases t with
      | tuple bs => exact (solved_ite_instantiateAll ih s bs).congr fun θ => by simp [under]
      | _ => exact .unsolvable fun θ => by simp [under]
  | func as a ih iha =>
      intro s t
      cases t with
      | func bs b =>
          simp only [instantiate, vars, under, func.injEq]
          split
          next h =>
            have hparams := solved_instantiateAll ih s bs h
            generalize instantiateAll s as bs = r at hparams ⊢
            rcases r with ⟨_ | _, s'⟩
            · exact hparams.stop
            · exact hparams.next (iha s' b)
          next h => exact .unsolvable fun θ hθ => h (length_eq_of_underAll hθ.1)
      | _ => exact .unsolvable fun θ => by simp [under]
  | unary c a ih =>
      intro s t
      cases t with
      | unary d b =>
          simp only [instantiate, vars, under, unary.injEq]
          split
          next h => exact (ih s b).congr fun θ => by simp [h]
          next h => exact .unsolvable fun θ hθ => h hθ.1
      | _ => exact .unsolvable fun θ => by simp [under]
  | binary c a a' ih ih' =>
      intro s t
      cases t with
      | binary d b b' =>
          simp only [instantiate, vars, under, binary.injEq]
          split
          next h =>
            have hfirst := ih s b
            simp only [h, true_and]
            generalize instantiate s a b = r at hfirst ⊢
            rcases r with ⟨_ | _, s'⟩
            · exact hfirst.stop
            · exact hfirst.next (ih' s' b')
          next h => exact .unsolvable fun θ hθ => h hθ.1
      | _ => exact .unsolvable fun θ => by simp [under]

theorem instantiate_nil_iff {p t : Ty} :
    (instantiate [] p t).1 = true ↔ ∃ θ, p.under θ = t := by
  have h := solved_instantiate p [] t
  constructor
  · exact fun hr => ⟨_, h.sound hr _ (Subst.agrees_image _)⟩
  · rintro ⟨θ, hθ⟩
    exact (h.complete θ (Subst.agrees_nil θ) hθ).1

end Ty

end Toolchain
