import Toolchain.Diagnostic.Basic

namespace Toolchain.Diagnostics

variable {ds es : Diagnostics} {d e : Diagnostic} {cap : Int}

theorem truncate_append_of_full (h0 : 0 < cap) (h : cap ≤ ((truncate ds cap).length : Int)) :
    truncate (ds ++ es) cap = truncate ds cap := by
  rw [truncate, if_pos h0, List.length_take] at h
  rw [truncate, truncate, if_pos h0, if_pos h0]
  exact List.take_append_of_le_length (by omega)

theorem truncate_concat (h : ¬ (0 < cap ∧ cap ≤ ((truncate ds cap).length : Int))) :
    truncate (ds ++ [d]) cap = truncate ds cap ++ [d] := by
  rw [truncate, truncate] at *
  split
  next h0 =>
    simp only [h0, if_true, true_and, List.length_take] at h
    rw [List.take_of_length_le (by simp; omega), List.take_of_length_le (by omega)]
  next => rfl

theorem truncate_subset (ds : Diagnostics) (cap : Int) : truncate ds cap ⊆ ds := by
  unfold truncate
  split
  · exact List.take_subset _ _
  · exact fun _ => id

theorem hasErrors_flatMap {α : Type} {xs : List α} {f : α → Diagnostics} :
    hasErrors (xs.flatMap f) = true ↔ ∃ x ∈ xs, hasErrors (f x) = true := by
  simp [hasErrors, List.any_flatMap]

theorem hasErrors_of_subset (h : ds ⊆ es) (hd : hasErrors ds = true) : hasErrors es = true := by
  obtain ⟨d, hmem, hsev⟩ := List.any_eq_true.mp hd
  exact List.any_eq_true.mpr ⟨d, h hmem, hsev⟩

def Hidden (ds : Diagnostics) (cap : Int) : Prop :=
  hasErrors ds = true ∧ hasErrors (truncate ds cap) = false

theorem hasErrors_truncate_eq_iff :
    hasErrors (truncate ds cap) = hasErrors ds ↔ ¬ Hidden ds cap := by
  have hsub := hasErrors_of_subset (truncate_subset ds cap)
  unfold Hidden
  cases hk : hasErrors (truncate ds cap) <;> cases hd : hasErrors ds <;> simp_all

theorem hidden_append_cons_iff (hds : hasErrors ds = false) (he : e.severity = .error) :
    Hidden (ds ++ e :: es) cap ↔ 0 < cap ∧ cap ≤ (ds.length : Int) := by
  have herrors : hasErrors (ds ++ e :: es) = true := by simp [hasErrors, he]
  by_cases h0 : 0 < cap
  · simp only [Hidden, herrors, true_and, h0, truncate, if_true]
    by_cases hle : cap ≤ (ds.length : Int)
    · rw [List.take_append_of_le_length (by omega)]
      have hnone : hasErrors (ds.take cap.toNat) = false :=
        Bool.eq_false_iff.mpr fun hk => by
          simp [hasErrors_of_subset (List.take_subset _ _) hk] at hds
      simp [hnone, hle]
    · obtain ⟨n, hn⟩ : ∃ n, cap.toNat = ds.length + (n + 1) := ⟨cap.toNat - ds.length - 1, by omega⟩
      have hkept : hasErrors (ds ++ e :: es.take n) = true := by simp [hasErrors, he]
      rw [hn, List.take_length_add_append, List.take_succ_cons]
      simp [hkept, hle]
  · simp [Hidden, truncate, h0, herrors]

theorem not_hidden_cons (hd : d.severity = .error) : ¬ Hidden (d :: ds) cap := by
  intro hhidden
  have hnone : hasErrors [] = false := rfl
  have hcap : 0 < cap ∧ cap ≤ 0 := (hidden_append_cons_iff hnone hd).mp hhidden
  omega

theorem hasErrors_truncate (h : ∀ d ∈ ds, d.severity = .error) (cap : Int) :
    hasErrors (truncate ds cap) = !ds.isEmpty := by
  cases ds with
  | nil => simp [truncate, hasErrors]
  | cons d ds =>
      have hd : d.severity = .error := h d (List.mem_cons_self ..)
      rw [hasErrors_truncate_eq_iff.mpr (not_hidden_cons hd)]
      simp [hasErrors, hd]

theorem hasErrors_of_forall (h : ∀ d ∈ ds, d.severity = .error) : hasErrors ds = !ds.isEmpty :=
  hasErrors_truncate h 0

theorem hidden_append_iff (h : ∀ d ∈ ds, d.severity = .error) :
    Hidden (ds ++ es) cap ↔ ds = [] ∧ Hidden es cap := by
  cases ds with
  | nil => simp
  | cons d ds => simp [not_hidden_cons (h d (List.mem_cons_self ..))]

end Toolchain.Diagnostics
