import Toolchain.Proofs.Interface.Declared
import Toolchain.Settings.Validation

namespace Toolchain.Settings

open ImplementationSpec (pair)

variable {κ : Type} {f : ImplementationSpec → κ} {i j i' j' : Nat} {s : Settings}
  {a b : ImplementationSpec} {past specs : List ImplementationSpec} {seen : List (String × Nat)}
  {e : SettingsError}

section repeats

def Same (f : ImplementationSpec → κ) (specs : List ImplementationSpec) (i j : Nat) : Prop :=
  i < j ∧ ∃ a b, specs[i]? = some a ∧ specs[j]? = some b ∧ f a = f b

structure FirstRepeat (f : ImplementationSpec → κ) (specs : List ImplementationSpec)
    (i j : Nat) : Prop where
  same : Same f specs i j
  first : ∀ i' j', j' < j → ¬ Same f specs i' j'

theorem Same.mono {κ' : Type} {g : ImplementationSpec → κ'} (hfg : ∀ a b, f a = f b → g a = g b)
    (h : Same f specs i j) : Same g specs i j := by
  obtain ⟨hlt, a, b, ha, hb, hab⟩ := h
  exact ⟨hlt, a, b, ha, hb, hfg a b hab⟩

theorem not_same_of_nodup (h : (specs.map f).Nodup) : ¬ Same f specs i j := by
  rintro ⟨hlt, a, b, ha, hb, hab⟩
  have hi : i < (specs.map f).length := by
    rw [List.length_map]
    exact (List.getElem?_eq_some_iff.mp ha).1
  have hij : i = j := (List.getElem?_inj hi h).mp (by simp [ha, hb, hab])
  omega

theorem Same.exists_firstRepeat (h : Same f specs i j) : ∃ i j, FirstRepeat f specs i j := by
  induction j using Nat.strongRecOn generalizing i with
  | ind j ih =>
      by_cases hfirst : ∃ i' j', j' < j ∧ Same f specs i' j'
      · obtain ⟨i', j', hlt, h'⟩ := hfirst
        exact ih j' hlt h'
      · exact ⟨i, j, h, fun i' j' hlt h' => hfirst ⟨i', j', hlt, h'⟩⟩

theorem FirstRepeat.not_lt (h : FirstRepeat f specs i j) (h' : Same f specs i' j) : ¬ i < i' := by
  intro hlt
  obtain ⟨_, a, c, ha, hc, hac⟩ := h.same
  obtain ⟨hlt', b, c', hb, hc', hbc⟩ := h'
  rw [hc, Option.some.injEq] at hc'
  subst hc'
  exact h.first i i' hlt' ⟨hlt, a, b, ha, hb, hac.trans hbc.symm⟩

theorem FirstRepeat.unique (h : FirstRepeat f specs i j) (h' : FirstRepeat f specs i' j') :
    i = i' ∧ j = j' := by
  have hj : j = j' := by
    rcases Nat.lt_trichotomy j j' with hlt | heq | hlt
    · exact absurd h.same (h'.first i j hlt)
    · exact heq
    · exact absurd h'.same (h.first i' j' hlt)
  subst hj
  exact ⟨Nat.le_antisymm (Nat.not_lt.mp (h'.not_lt h.same)) (Nat.not_lt.mp (h.not_lt h'.same)), rfl⟩

end repeats

section scan

structure Complete (spec : ImplementationSpec) : Prop where
  typeName : spec.typeName ≠ ""
  iface : spec.iface ≠ ""
  methods : ∀ m ∈ spec.methods, m.name ≠ "" ∧ m.result ≠ ""

instance (spec : ImplementationSpec) : Decidable (Complete spec) :=
  decidable_of_iff (spec.typeName ≠ "" ∧ spec.iface ≠ "" ∧
      ∀ m ∈ spec.methods, m.name ≠ "" ∧ m.result ≠ "")
    ⟨fun h => ⟨h.1, h.2.1, h.2.2⟩, fun h => ⟨h.typeName, h.iface, h.methods⟩⟩

def Records (seen : List (String × Nat)) (past : List ImplementationSpec) : Prop :=
  ∀ k p, seen.lookup k = some p ↔ ∃ a, past[p]? = some a ∧ implementationKey a = k

theorem Complete.findSome?_methodFault (h : Complete a) (i : Nat) :
    (a.methods.zipIdx.findSome? fun (m, j) => methodFault i j a.typeName m) = none := by
  rw [List.findSome?_eq_none_iff]
  rintro ⟨m, j⟩ hm
  obtain ⟨hname, hresult⟩ := h.methods m (List.fst_mem_of_mem_zipIdx hm)
  simp [methodFault, hname, hresult]

theorem Records.not_same (h : Records seen past) : ¬ Same implementationKey past i j := by
  rintro ⟨hlt, a, b, ha, hb, hab⟩
  have hi := (h (implementationKey b) i).mpr ⟨a, ha, hab⟩
  have hj := (h (implementationKey b) j).mpr ⟨b, hb, rfl⟩
  rw [hi, Option.some.injEq] at hj
  omega

theorem exists_getElem?_concat (past : List ImplementationSpec) (a : ImplementationSpec) (k : String)
    (p : Nat) : (∃ b, (past ++ [a])[p]? = some b ∧ implementationKey b = k) ↔
      (∃ b, past[p]? = some b ∧ implementationKey b = k) ∨
        p = past.length ∧ implementationKey a = k := by
  rcases Nat.lt_trichotomy p past.length with hlt | rfl | hlt
  · rw [List.getElem?_append_left hlt]
    simp [Nat.ne_of_lt hlt]
  · simp
  · have hend : (past ++ [a])[p]? = none := List.getElem?_eq_none (by simp; omega)
    simp [hend, List.getElem?_eq_none (Nat.le_of_lt hlt), Nat.ne_of_gt hlt]

theorem Records.concat (h : Records seen past) (ha : seen.lookup (implementationKey a) = none) :
    Records ((implementationKey a, past.length) :: seen) (past ++ [a]) := by
  intro k p
  rw [exists_getElem?_concat, ← h k p, List.lookup_cons]
  by_cases hk : k = implementationKey a
  · simp [hk, ha, eq_comm]
  · simp [beq_eq_false_iff_ne.mpr hk, Ne.symm hk]

theorem implementationFault_spec (hr : Records seen past) (hc : ∀ a ∈ specs, Complete a) :
    implementationFault seen past.length specs = none ∧
        (∀ i j, ¬ Same implementationKey (past ++ specs) i j) ∨
      ∃ i j a, FirstRepeat implementationKey (past ++ specs) i j ∧ (past ++ specs)[j]? = some a ∧
        implementationFault seen past.length specs = some (.repeated j a.typeName a.iface i) := by
  induction specs generalizing past seen with
  | nil => exact .inl ⟨rfl, fun i j h => hr.not_same (by simpa using h)⟩
  | cons a specs ih =>
      obtain ⟨ha, hspecs⟩ := List.forall_mem_cons.mp hc
      have hplace : (past ++ a :: specs)[past.length]? = some a := by simp
      rw [implementationFault.eq_def]
      simp only [ha.typeName, ha.iface, if_false, ha.findSome?_methodFault, Option.none_or]
      cases hlookup : seen.lookup (implementationKey a) with
      | some earlier =>
          obtain ⟨b, hb, hba⟩ := (hr _ earlier).mp hlookup
          have hlt : earlier < past.length := (List.getElem?_eq_some_iff.mp hb).1
          refine .inr ⟨earlier, past.length, a, ⟨⟨hlt, b, a, ?_, hplace, hba⟩, ?_⟩, hplace, rfl⟩
          · rw [List.getElem?_append_left hlt, hb]
          · rintro i' j' hj ⟨hij, c, d, hc, hd, hcd⟩
            rw [List.getElem?_append_left (by omega)] at hc hd
            exact hr.not_same ⟨hij, c, d, hc, hd, hcd⟩
      | none =>
          have hrest := ih (hr.concat hlookup) hspecs
          rwa [List.length_append, List.append_assoc] at hrest

end scan

section verdict

/-- Entries that are the same under `f` are refused, and nothing else is; the error names the first
repeated entry and the one that it repeats. -/
def RefusesRepeats (f : ImplementationSpec → κ) (s : Settings) : Prop :=
  (s.fault? ≠ none ↔ ∃ i j, Same f s.implementations i j) ∧
  ∀ i j, FirstRepeat f s.implementations i j → ∃ a, s.implementations[j]? = some a ∧
    s.fault? = some (.repeated j a.typeName a.iface i)

theorem implementationKey_congr (a b : ImplementationSpec) (h : pair a = pair b) :
    implementationKey a = implementationKey b := by
  obtain ⟨ht, hi⟩ := Prod.mk.inj h
  rw [implementationKey, implementationKey, ht, hi]

theorem fault?_spec (hs : s.scalarFault = none) (hc : ∀ a ∈ s.implementations, Complete a) :
    s.fault? = none ∧ (∀ i j, ¬ Same implementationKey s.implementations i j) ∨
      ∃ i j a, FirstRepeat implementationKey s.implementations i j ∧
        s.implementations[j]? = some a ∧
        s.fault? = some (.repeated j a.typeName a.iface i) := by
  have hstart : Records [] [] := fun k p => by simp
  rw [fault?, hs, Option.none_or]
  exact implementationFault_spec hstart hc

theorem refusesRepeats_key (hs : s.scalarFault = none)
    (hc : ∀ a ∈ s.implementations, Complete a) : s.RefusesRepeats implementationKey := by
  rcases fault?_spec hs hc with ⟨hnone, hno⟩ | ⟨i, j, a, hfirst, ha, he⟩
  · refine ⟨⟨fun h => absurd hnone h, ?_⟩, fun i j h => absurd h.same (hno i j)⟩
    rintro ⟨i, j, h⟩
    exact absurd h (hno i j)
  · refine ⟨⟨fun _ => ⟨i, j, hfirst.same⟩, fun _ => by simp [he]⟩, fun i' j' h' => ?_⟩
    obtain ⟨rfl, rfl⟩ := hfirst.unique h'
    exact ⟨a, ha, he⟩

theorem refusesRepeats_pair_iff (hk : s.RefusesRepeats implementationKey) :
    s.RefusesRepeats pair ↔ ∀ i j, FirstRepeat implementationKey s.implementations i j →
      Same pair s.implementations i j := by
  constructor
  · intro hp i j h
    obtain ⟨a, ha, he⟩ := hk.2 i j h
    obtain ⟨i', j', hsame⟩ := hp.1.mp (by simp [he])
    obtain ⟨i', j', h'⟩ := hsame.exists_firstRepeat
    obtain ⟨b, hb, he'⟩ := hp.2 i' j' h'
    rw [he, Option.some.injEq, SettingsError.repeated.injEq] at he'
    obtain ⟨rfl, _, _, rfl⟩ := he'
    exact h'.same
  · intro h
    refine ⟨⟨fun hf => ?_, ?_⟩, fun i j hp => ?_⟩
    · obtain ⟨i, j, hsame⟩ := hk.1.mp hf
      obtain ⟨i, j, hfirst⟩ := hsame.exists_firstRepeat
      exact ⟨i, j, h i j hfirst⟩
    · rintro ⟨i, j, hsame⟩
      exact hk.1.mpr ⟨i, j, hsame.mono implementationKey_congr⟩
    · obtain ⟨i', j', hfirst⟩ := (hp.same.mono implementationKey_congr).exists_firstRepeat
      -- no pair is repeated before the first key is, so the first repeated pair is the same entry
      have hp' : FirstRepeat pair s.implementations i' j' :=
        ⟨h i' j' hfirst, fun i j hlt hsame => hfirst.first i j hlt (hsame.mono implementationKey_congr)⟩
      obtain ⟨rfl, rfl⟩ := hp.unique hp'
      exact hk.2 i j hfirst

end verdict

section keys

def Overlaps (a b : ImplementationSpec) : Prop :=
  ∃ mid, b.typeName = a.typeName ++ ":" ++ mid ∧ a.iface = mid ++ ":" ++ b.iface

theorem Overlaps.key_eq (h : Overlaps a b) : implementationKey a = implementationKey b := by
  obtain ⟨mid, ht, hi⟩ := h
  simp only [implementationKey, ht, hi, String.append_assoc]

theorem Overlaps.colons (h : Overlaps a b) : ':' ∈ b.typeName.toList ∧ ':' ∈ a.iface.toList := by
  obtain ⟨mid, ht, hi⟩ := h
  simp [ht, hi]

theorem pair_or_overlaps {mid : List Char} (ht : b.typeName.toList = a.typeName.toList ++ mid)
    (hi : ':' :: a.iface.toList = mid ++ ':' :: b.iface.toList) :
    pair a = pair b ∨ Overlaps a b := by
  cases mid with
  | nil =>
      simp only [List.nil_append, List.cons.injEq, true_and, List.append_nil] at ht hi
      exact .inl (Prod.ext (String.toList_inj.mp ht.symm) (String.toList_inj.mp hi))
  | cons c mid =>
      rw [List.cons_append, List.cons.injEq] at hi
      refine .inr ⟨String.ofList mid, String.toList_inj.mp ?_, String.toList_inj.mp ?_⟩
      · simp [ht, ← hi.1]
      · simp [hi.2]

theorem implementationKey_eq_iff (a b : ImplementationSpec) :
    implementationKey a = implementationKey b ↔
      pair a = pair b ∨ Overlaps a b ∨ Overlaps b a := by
  constructor
  · intro h
    have hchars : a.typeName.toList ++ ':' :: a.iface.toList =
        b.typeName.toList ++ ':' :: b.iface.toList := by
      simpa [implementationKey] using congrArg String.toList h
    rcases List.append_eq_append_iff.mp hchars with ⟨mid, ht, hi⟩ | ⟨mid, ht, hi⟩
    · exact (pair_or_overlaps ht hi).imp_right .inl
    · exact (pair_or_overlaps ht hi).imp Eq.symm .inr
  · rintro (h | h | h)
    · exact implementationKey_congr a b h
    · exact h.key_eq
    · exact h.key_eq.symm

theorem refusesRepeats_pair_of_colons (hk : s.RefusesRepeats implementationKey)
    (hcolon : (∀ a ∈ s.implementations, ':' ∉ a.typeName.toList) ∨
      ∀ a ∈ s.implementations, ':' ∉ a.iface.toList) : s.RefusesRepeats pair := by
  refine (refusesRepeats_pair_iff hk).mpr fun i j h => ?_
  obtain ⟨hlt, a, b, ha, hb, hab⟩ := h.same
  have hma := List.mem_of_getElem? ha
  have hmb := List.mem_of_getElem? hb
  have hapart {a b : ImplementationSpec} (ha : a ∈ s.implementations)
      (hb : b ∈ s.implementations) : ¬ Overlaps a b := by
    intro ho
    rcases hcolon with hc | hc
    · exact hc b hb ho.colons.1
    · exact hc a ha ho.colons.2
  refine ⟨hlt, a, b, ha, hb, ?_⟩
  rcases (implementationKey_eq_iff a b).mp hab with h | h | h
  · exact h
  · exact absurd h (hapart hma hmb)
  · exact absurd h (hapart hmb hma)

end keys

theorem duplicates_are_exact_iff (s : Settings) (hs : s.scalarFault = none)
    (hc : ∀ a ∈ s.implementations, Complete a) :
    s.RefusesRepeats implementationKey ∧
    (s.RefusesRepeats pair ↔ ∀ i j, FirstRepeat implementationKey s.implementations i j →
      Same pair s.implementations i j) ∧
    (∀ a b, implementationKey a = implementationKey b ↔
      pair a = pair b ∨ Overlaps a b ∨ Overlaps b a) ∧
    ((∀ a ∈ s.implementations, ':' ∉ a.typeName.toList) ∨
      (∀ a ∈ s.implementations, ':' ∉ a.iface.toList) → s.RefusesRepeats pair) := by
  have hk := refusesRepeats_key hs hc
  exact ⟨hk, refusesRepeats_pair_iff hk, implementationKey_eq_iff, refusesRepeats_pair_of_colons hk⟩

def withPairs (pairs : List (String × String)) : Settings :=
  { default with implementations := pairs.map fun p => ⟨p.1, p.2, []⟩ }

theorem third_entry_repeats_first :
    let s := withPairs [("P", "Eq"), ("P", "Order"), ("P", "Eq")]
    s.scalarFault = none ∧ (∀ a ∈ s.implementations, Complete a) ∧ s.RefusesRepeats pair ∧
      s.fault? = some (.repeated 2 "P" "Eq" 0) := by
  intro s
  have hs : s.scalarFault = none := by decide +kernel
  have hc : ∀ a ∈ s.implementations, Complete a := by decide
  obtain ⟨_, _, _, hplain⟩ := duplicates_are_exact_iff s hs hc
  exact ⟨hs, hc, hplain (.inl (by decide)), by decide +kernel⟩

theorem colon_in_names_misleads :
    let s := withPairs [("A:B", "C"), ("A", "B:C")]
    s.scalarFault = none ∧ (∀ a ∈ s.implementations, Complete a) ∧
    s.fault? = some (.repeated 1 "A" "B:C" 0) ∧ (∀ i j, ¬ Same pair s.implementations i j) ∧
    ¬ s.RefusesRepeats pair := by
  intro s
  have hf : s.fault? = some (.repeated 1 "A" "B:C" 0) := by decide +kernel
  have hno (i j : Nat) : ¬ Same pair s.implementations i j := not_same_of_nodup (by decide)
  refine ⟨by decide +kernel, by decide, hf, hno, fun h => ?_⟩
  obtain ⟨i, j, hsame⟩ := h.1.mp (by simp [hf])
  exact hno i j hsame

end Toolchain.Settings
