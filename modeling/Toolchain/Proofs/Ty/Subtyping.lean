import Mathlib.Data.List.Forall2
import Toolchain.Ty.Subtype

namespace Toolchain.Ty

variable {a b c m : Ty} {as bs cs ms : List Ty}

inductive Below : Ty → Ty → Prop
  | refl {a : Ty} : Below a a
  | trans {a b c : Ty} : Below a b → Below b c → Below a c
  | any {a : Ty} : Below a .any
  | member {a m : Ty} {ms : List Ty} : m ∈ ms → Below a m → Below a (.sum ms)
  | product {as bs : List Ty} : as.length = bs.length →
      (∀ a b, (a, b) ∈ as.zip bs → Below a b) → Below (.product as) (.product bs)
  | func {ps qs : List Ty} {r s : Ty} : qs.length = ps.length →
      (∀ q p, (q, p) ∈ qs.zip ps → Below q p) → Below r s → Below (.func ps r) (.func qs s)

theorem belowSome_iff : belowSome a ms = true ↔ ∃ m ∈ ms, isSubtype a m = true := by
  induction ms with
  | nil => simp [belowSome]
  | cons m ms ih => simp [belowSome, ih]

theorem allBelow_iff :
    allBelow as bs = true ↔ List.Forall₂ (fun a b => isSubtype a b = true) as bs := by
  induction as generalizing bs with
  | nil => cases bs <;> simp [allBelow]
  | cons a as ih => cases bs <;> simp [allBelow, ih]

theorem isSubtype_sum : isSubtype a (.sum ms) = true ↔
    (∃ m ∈ ms, isSubtype a m = true) ∨ a = .sum ms := by
  rw [isSubtype, Bool.or_eq_true, belowSome_iff, decide_eq_true_eq]

theorem isSubtype_product : isSubtype (.product as) (.product bs) = true ↔
    List.Forall₂ (fun a b => isSubtype a b = true) as bs := by
  rw [isSubtype, allBelow_iff]

theorem isSubtype_func {ps qs : List Ty} {r s : Ty} : isSubtype (.func ps r) (.func qs s) = true ↔
    List.Forall₂ (fun q p => isSubtype q p = true) qs ps ∧ isSubtype r s = true := by
  rw [isSubtype, Bool.and_eq_true, allBelow_iff]

theorem isSubtype_any (a : Ty) : isSubtype a .any = true := by
  cases a <;> simp [isSubtype, any]

theorem isSubtype_refl (a : Ty) : isSubtype a a = true := by
  induction a with
  | product as ih => exact isSubtype_product.mpr (List.forall₂_same.mpr ih)
  | func ps r ihp ihr => exact isSubtype_func.mpr ⟨List.forall₂_same.mpr ihp, ihr⟩
  | sum ms _ => exact isSubtype_sum.mpr (.inr rfl)
  | _ => simp [isSubtype]

inductive Found : Ty → Ty → Prop
  | same {a : Ty} : Found a a
  | any {a : Ty} : Found a .any
  | member {a m : Ty} {ms : List Ty} : m ∈ ms → isSubtype a m = true → Found a (.sum ms)
  | product {as bs : List Ty} : List.Forall₂ (fun a b => isSubtype a b = true) as bs →
      Found (.product as) (.product bs)
  | func {ps qs : List Ty} {r s : Ty} :
      List.Forall₂ (fun q p => isSubtype q p = true) qs ps → isSubtype r s = true →
      Found (.func ps r) (.func qs s)

theorem isSubtype_iff_found : isSubtype a b = true ↔ Found a b := by
  constructor
  · intro h
    unfold isSubtype at h
    split at h
    next ms =>
      rw [Bool.or_eq_true, belowSome_iff, decide_eq_true_eq] at h
      rcases h with ⟨m, hm, h⟩ | rfl
      · exact .member hm h
      · exact .same
    next as bs => exact .product (allBelow_iff.mp h)
    next ps r qs s =>
      rw [Bool.and_eq_true, allBelow_iff] at h
      exact .func h.1 h.2
    next =>
      rw [Bool.or_eq_true, decide_eq_true_eq, decide_eq_true_eq] at h
      rcases h with rfl | rfl
      · exact .any
      · exact .same
  · intro h
    cases h with
    | same => exact isSubtype_refl _
    | any => exact isSubtype_any _
    | member hm h => exact isSubtype_sum.mpr (.inl ⟨_, hm, h⟩)
    | product h => exact isSubtype_product.mpr h
    | func hp hr => exact isSubtype_func.mpr ⟨hp, hr⟩

theorem forall₂_trans_of_mem {R : Ty → Ty → Prop} (hab : List.Forall₂ R as bs)
    (hbc : List.Forall₂ R bs cs)
    (h : ∀ a ∈ as, ∀ b ∈ bs, ∀ c ∈ cs, R a b → R b c → R a c) : List.Forall₂ R as cs := by
  induction hab generalizing cs with
  | nil => exact hbc
  | cons hx _ ih =>
      cases hbc with
      | cons hy hbc =>
          refine .cons (h _ (by simp) _ (by simp) _ (by simp) hx hy) (ih hbc ?_)
          intro a ha b hb c hc
          exact h a (by simp [ha]) b (by simp [hb]) c (by simp [hc])

def TransWithin (n : Nat) : Prop := ∀ a b c : Ty, sizeOf a + sizeOf b + sizeOf c < n →
  isSubtype a b = true → isSubtype b c = true → isSubtype a c = true

theorem TransWithin.forall₂ {n : Nat} (ih : TransWithin n)
    (hn : sizeOf as + sizeOf bs + sizeOf cs ≤ n)
    (hab : List.Forall₂ (fun a b => isSubtype a b = true) as bs)
    (hbc : List.Forall₂ (fun a b => isSubtype a b = true) bs cs) :
    List.Forall₂ (fun a b => isSubtype a b = true) as cs := by
  refine forall₂_trans_of_mem hab hbc fun a ha b hb c hc => ih a b c ?_
  have hsa := List.sizeOf_lt_of_mem ha
  have hsb := List.sizeOf_lt_of_mem hb
  have hsc := List.sizeOf_lt_of_mem hc
  omega

theorem transWithin (n : Nat) : TransWithin n := by
  induction n with
  | zero => exact fun _ _ _ hn => absurd hn (Nat.not_lt_zero _)
  | succ n ih =>
      intro a b c hn hab hbc
      -- on the upper pair first: where it is not settled at once, both its types are products or
      -- both are functions, and so the lower pair can only be found in the same way
      cases isSubtype_iff_found.mp hbc with
      | same => exact hab
      | any => exact isSubtype_any a
      | @member _ m ms hm hbm =>
          have hs := List.sizeOf_lt_of_mem hm
          simp only [sum.sizeOf_spec] at hn
          exact isSubtype_sum.mpr (.inl ⟨m, hm, ih a b m (by omega) hab hbm⟩)
      | @product bs cs hbs =>
          cases isSubtype_iff_found.mp hab with
          | same => exact hbc
          | @product as _ has =>
              simp only [product.sizeOf_spec] at hn
              exact isSubtype_product.mpr (ih.forall₂ (by omega) has hbs)
      | @func qs rs s t hqs hst =>
          cases isSubtype_iff_found.mp hab with
          | same => exact hbc
          | @func ps _ r _ hps hrs =>
              simp only [func.sizeOf_spec] at hn
              refine isSubtype_func.mpr ⟨ih.forall₂ (by omega) hqs hps, ?_⟩
              exact ih r s t (by omega) hrs hst

theorem isSubtype_trans (hab : isSubtype a b = true) (hbc : isSubtype b c = true) :
    isSubtype a c = true :=
  transWithin _ a b c (Nat.lt_succ_self _) hab hbc

theorem isSubtype_of_below (h : Below a b) : isSubtype a b = true := by
  induction h with
  | refl => exact isSubtype_refl _
  | trans _ _ ihab ihbc => exact isSubtype_trans ihab ihbc
  | any => exact isSubtype_any _
  | member hm _ ih => exact isSubtype_sum.mpr (.inl ⟨_, hm, ih⟩)
  | product hl _ ih =>
      exact isSubtype_product.mpr (List.forall₂_iff_zip.mpr ⟨hl, fun h => ih _ _ h⟩)
  | func hl _ _ ihp ihr =>
      exact isSubtype_func.mpr ⟨List.forall₂_iff_zip.mpr ⟨hl, fun h => ihp _ _ h⟩, ihr⟩

theorem below_of_isSubtype (n : Nat) : ∀ a b : Ty, sizeOf a + sizeOf b < n →
    isSubtype a b = true → Below a b := by
  induction n with
  | zero => exact fun _ _ hn => absurd hn (Nat.not_lt_zero _)
  | succ n ih =>
      have pointwise : ∀ as bs : List Ty, sizeOf as + sizeOf bs ≤ n →
          List.Forall₂ (fun a b => isSubtype a b = true) as bs →
          as.length = bs.length ∧ ∀ a b, (a, b) ∈ as.zip bs → Below a b := by
        intro as bs hn h
        obtain ⟨hl, hz⟩ := List.forall₂_iff_zip.mp h
        refine ⟨hl, fun a b hab => ih a b ?_ (hz hab)⟩
        have hsa := List.sizeOf_lt_of_mem (List.of_mem_zip hab).1
        have hsb := List.sizeOf_lt_of_mem (List.of_mem_zip hab).2
        omega
      intro a b hn hab
      cases isSubtype_iff_found.mp hab with
      | same => exact .refl
      | any => exact .any
      | @member _ m ms hm h =>
          have hs := List.sizeOf_lt_of_mem hm
          simp only [sum.sizeOf_spec] at hn
          exact .member hm (ih a m (by omega) h)
      | @product as bs h =>
          simp only [product.sizeOf_spec] at hn
          obtain ⟨hl, hz⟩ := pointwise as bs (by omega) h
          exact .product hl hz
      | @func ps qs r s hp hr =>
          simp only [func.sizeOf_spec] at hn
          obtain ⟨hl, hz⟩ := pointwise qs ps (by omega) hp
          exact .func hl hz (ih r s (by omega) hr)

theorem isSubtype_decides_below :
    (∀ a b, isSubtype a b = true ↔ Below a b) ∧ (∀ a, isSubtype a a = true) ∧
      ∀ a b c, isSubtype a b = true → isSubtype b c = true → isSubtype a c = true := by
  refine ⟨fun a b => ⟨?_, isSubtype_of_below⟩, isSubtype_refl, fun a b c => isSubtype_trans⟩
  exact below_of_isSubtype _ a b (Nat.lt_succ_self _)

end Toolchain.Ty
