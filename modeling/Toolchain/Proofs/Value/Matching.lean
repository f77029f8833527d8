import Mathlib.Data.List.Forall2

namespace Toolchain

variable {α β : Type} {S : α → Prop} {T : β → Prop} {r : α → α → Prop} {q : β → β → Prop}
  {xs ys zs : List α}

structure PerOn (S : α → Prop) (r : α → α → Prop) : Prop where
  symm : ∀ {a b}, S a → S b → r a b → r b a
  trans : ∀ {a b c}, S a → S b → S c → r a b → r b c → r a c

namespace PerOn

theorem eq : PerOn (fun _ : α => True) (· = ·) where
  symm _ _ h := h.symm
  trans _ _ _ h h' := h.trans h'

theorem pair (hr : PerOn S r) (hq : PerOn T q) :
    PerOn (fun e : α × β => S e.1 ∧ T e.2) (fun e f => r e.1 f.1 ∧ q e.2 f.2) where
  symm ha hb h := ⟨hr.symm ha.1 hb.1 h.1, hq.symm ha.2 hb.2 h.2⟩
  trans ha hb hc h h' := ⟨hr.trans ha.1 hb.1 hc.1 h.1 h'.1, hq.trans ha.2 hb.2 hc.2 h.2 h'.2⟩

theorem ordered (hr : PerOn S r) : PerOn (fun xs => ∀ x ∈ xs, S x) (List.Forall₂ r) where
  symm {xs ys} hxs hys h := by
    induction h with
    | nil => exact .nil
    | cons hxy _ ih =>
        obtain ⟨hx, hxs⟩ := List.forall_mem_cons.mp hxs
        obtain ⟨hy, hys⟩ := List.forall_mem_cons.mp hys
        exact .cons (hr.symm hx hy hxy) (ih hxs hys)
  trans {xs ys zs} hxs hys hzs h h' := by
    induction h generalizing zs with
    | nil => exact h'
    | cons hxy _ ih =>
        cases h' with
        | cons hyz h' =>
            obtain ⟨hx, hxs⟩ := List.forall_mem_cons.mp hxs
            obtain ⟨hy, hys⟩ := List.forall_mem_cons.mp hys
            obtain ⟨hz, hzs⟩ := List.forall_mem_cons.mp hzs
            exact .cons (hr.trans hx hy hz hxy hyz) (ih hxs hys hzs h')

end PerOn

def Covers (r : α → α → Prop) (xs ys : List α) : Prop := ∀ x ∈ xs, ∃ y ∈ ys, r x y

/-- If no two on the left are related, what the first takes up on the right is of no use to the
others. -/
theorem Covers.uncons {x : α} (hr : PerOn S r) (hxs : ∀ z ∈ x :: xs, S z) (hys : ∀ y ∈ ys, S y)
    (hd : (x :: xs).Pairwise fun x x' => ¬ r x x') (h : Covers r (x :: xs) ys) :
    ∃ y ys₁ ys₂, ys = ys₁ ++ y :: ys₂ ∧ r x y ∧ Covers r xs (ys₁ ++ ys₂) := by
  obtain ⟨hx, hxs⟩ := List.forall_mem_cons.mp hxs
  obtain ⟨hfar, _⟩ := List.pairwise_cons.mp hd
  obtain ⟨y, hy, hxy⟩ := h x (List.mem_cons_self ..)
  obtain ⟨ys₁, ys₂, rfl⟩ := List.append_of_mem hy
  refine ⟨y, ys₁, ys₂, rfl, hxy, fun x' hx' => ?_⟩
  obtain ⟨y', hy', hxy'⟩ := h x' (List.mem_cons_of_mem _ hx')
  refine ⟨y', ?_, hxy'⟩
  by_contra hout
  obtain rfl : y' = y := by grind
  have hback := hr.symm (hxs x' hx') (hys y' hy) hxy'
  exact hfar x' hx' (hr.trans hx (hys y' hy) (hxs x' hx') hxy hback)

theorem Covers.length_le (hr : PerOn S r) (hxs : ∀ x ∈ xs, S x) (hys : ∀ y ∈ ys, S y)
    (hd : xs.Pairwise fun x x' => ¬ r x x') (h : Covers r xs ys) : xs.length ≤ ys.length := by
  induction xs generalizing ys with
  | nil => exact Nat.zero_le _
  | cons x xs ih =>
      obtain ⟨y, ys₁, ys₂, rfl, _, hrest⟩ := h.uncons hr hxs hys hd
      have hsub : ∀ z ∈ ys₁ ++ ys₂, S z := fun z hz => hys z (by grind)
      obtain ⟨_, hxs⟩ := List.forall_mem_cons.mp hxs
      have hle := ih hxs hsub (List.pairwise_cons.mp hd).2 hrest
      simp only [List.length_cons, List.length_append] at hle ⊢
      omega

theorem Covers.symm (hr : PerOn S r) (hxs : ∀ x ∈ xs, S x) (hys : ∀ y ∈ ys, S y)
    (hd : xs.Pairwise fun x x' => ¬ r x x') (hlen : xs.length = ys.length) (h : Covers r xs ys) :
    Covers r ys xs := by
  induction xs generalizing ys with
  | nil =>
      obtain rfl := List.eq_nil_of_length_eq_zero hlen.symm
      exact h
  | cons x xs ih =>
      obtain ⟨y, ys₁, ys₂, rfl, hxy, hrest⟩ := h.uncons hr hxs hys hd
      have hyx := hr.symm (hxs x (by simp)) (hys y (by simp)) hxy
      have hsub : ∀ z ∈ ys₁ ++ ys₂, S z := fun z hz => hys z (by grind)
      obtain ⟨_, hxs⟩ := List.forall_mem_cons.mp hxs
      have hall := ih hxs hsub (List.pairwise_cons.mp hd).2 (by grind) hrest
      intro z hz
      by_cases hzy : z = y
      · exact ⟨x, List.mem_cons_self .., hzy ▸ hyx⟩
      · obtain ⟨x', hx', h'⟩ := hall z (by grind)
        exact ⟨x', List.mem_cons_of_mem _ hx', h'⟩

theorem Covers.exists_perm (hr : PerOn S r) (hxs : ∀ x ∈ xs, S x) (hys : ∀ y ∈ ys, S y)
    (hd : xs.Pairwise fun x x' => ¬ r x x') (hlen : xs.length = ys.length) (h : Covers r xs ys) :
    ∃ zs, zs.Perm ys ∧ List.Forall₂ r xs zs := by
  induction xs generalizing ys with
  | nil =>
      obtain rfl := List.eq_nil_of_length_eq_zero hlen.symm
      exact ⟨[], .nil, .nil⟩
  | cons x xs ih =>
      obtain ⟨y, ys₁, ys₂, rfl, hxy, hrest⟩ := h.uncons hr hxs hys hd
      have hsub : ∀ z ∈ ys₁ ++ ys₂, S z := fun z hz => hys z (by grind)
      have hlen' : xs.length = (ys₁ ++ ys₂).length := by grind
      obtain ⟨_, hxs⟩ := List.forall_mem_cons.mp hxs
      obtain ⟨zs, hperm, hpaired⟩ := ih hxs hsub (List.pairwise_cons.mp hd).2 hlen' hrest
      exact ⟨y :: zs, (hperm.cons y).trans List.perm_middle.symm, .cons hxy hpaired⟩

theorem length_eq_and_covers_iff (hr : PerOn S r) (hxs : ∀ x ∈ xs, S x) (hys : ∀ y ∈ ys, S y)
    (hd : xs.Pairwise fun x x' => ¬ r x x') (hd' : ys.Pairwise fun y y' => ¬ r y y') :
    xs.length = ys.length ∧ Covers r xs ys ↔ Covers r xs ys ∧ Covers r ys xs := by
  constructor
  · exact fun ⟨hlen, h⟩ => ⟨h, h.symm hr hxs hys hd hlen⟩
  · rintro ⟨h, h'⟩
    exact ⟨Nat.le_antisymm (h.length_le hr hxs hys hd) (h'.length_le hr hys hxs hd'), h⟩

theorem Covers.trans (hr : PerOn S r) (hxs : ∀ x ∈ xs, S x) (hys : ∀ y ∈ ys, S y)
    (hzs : ∀ z ∈ zs, S z) (h : Covers r xs ys) (h' : Covers r ys zs) : Covers r xs zs := by
  intro x hx
  obtain ⟨y, hy, hxy⟩ := h x hx
  obtain ⟨z, hz, hyz⟩ := h' y hy
  exact ⟨z, hz, hr.trans (hxs x hx) (hys y hy) (hzs z hz) hxy hyz⟩

theorem covers_self (hr : PerOn S r) (hxs : ∀ x ∈ xs, S x) :
    Covers r xs xs ↔ ∀ x ∈ xs, r x x := by
  constructor
  · intro h x hx
    obtain ⟨y, hy, hxy⟩ := h x hx
    have hyx := hr.symm (hxs x hx) (hxs y hy) hxy
    exact hr.trans (hxs x hx) (hxs y hy) (hxs x hx) hxy hyx
  · exact fun h x hx => ⟨x, hx, h x hx⟩

theorem PerOn.unordered (hr : PerOn S r) :
    PerOn (fun xs => (∀ x ∈ xs, S x) ∧ xs.Pairwise fun x x' => ¬ r x x')
      (fun xs ys => xs.length = ys.length ∧ Covers r xs ys) where
  symm ha hb h := ⟨h.1.symm, h.2.symm hr ha.1 hb.1 ha.2 h.1⟩
  trans ha hb hc h h' := ⟨h.1.trans h'.1, h.2.trans hr ha.1 hb.1 hc.1 h'.2⟩

end Toolchain
