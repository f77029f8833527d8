import Toolchain.Interface.Conformance
import Toolchain.Proofs.Diagnostic.Errors

namespace Toolchain

namespace Registry

variable {r : Registry} {p : String × String} {i : Interface} {methods : List Method}
  {want : Method} {typeName : String}

def pairs (r : Registry) : List (String × String) :=
  r.types.flatMap fun t => (r.interfacesOf t).map fun i => (t, i)

def check (r : Registry) (p : String × String) : Diagnostics := r.checkImplementation p.1 p.2

theorem conformance_eq_flatMap_check (r : Registry) : r.conformance = r.pairs.flatMap r.check := by
  simp [conformance, pairs, check, List.flatMap_assoc, List.flatMap_map]

def Provides (typeName : String) (methods : List Method) (want : Method) : Prop :=
  ∃ got, provided? methods want.name = some got ∧ got.params.length = want.params.length ∧
    conforms (implementingType typeName) want got = true

def isUnknown (r : Registry) (p : String × String) : Bool := (r.interface? p.2).isNone

def Broken (r : Registry) (p : String × String) : Prop :=
  ∃ i, r.interface? p.2 = some i ∧
    ∃ want ∈ i.methods, ¬ Provides p.1 ((r.methods? p.1 p.2).getD []) want

theorem checkMethod_eq_nil_iff : checkMethod typeName i methods want = [] ↔
    Provides typeName methods want := by
  unfold checkMethod Provides
  cases hp : provided? methods want.name with
  | none => simp
  | some got =>
      simp only [Option.some.injEq, exists_eq_left']
      split
      next hl => simp [hl]
      next hl =>
        split
        next hc => simpa [hc] using hl
        next hc => simp [hc]

theorem eq_error_of_mem_checkMethod {d : Diagnostic}
    (hd : d ∈ checkMethod typeName i methods want) :
    ∃ span message, d = .error .invalidImplementation span message := by
  unfold checkMethod at hd
  dsimp only at hd
  split at hd
  · exact ⟨_, _, List.mem_singleton.mp hd⟩
  · split at hd
    · exact ⟨_, _, List.mem_singleton.mp hd⟩
    · split at hd
      · exact absurd hd List.not_mem_nil
      · exact ⟨_, _, List.mem_singleton.mp hd⟩

theorem severity_checkMethod :
    ∀ d ∈ checkMethod typeName i methods want, d.severity = .error := by
  intro d hd
  obtain ⟨_, _, rfl⟩ := eq_error_of_mem_checkMethod hd
  rfl

theorem severity_check (hi : r.interface? p.2 = some i) : ∀ d ∈ r.check p, d.severity = .error := by
  intro d hd
  rw [check, checkImplementation, hi] at hd
  obtain ⟨_, _, hm⟩ := List.mem_flatMap.mp hd
  exact severity_checkMethod d hm

theorem hasErrors_check_iff : Diagnostics.hasErrors (r.check p) = true ↔ r.Broken p := by
  cases hi : r.interface? p.2 with
  | none =>
      simp [check, checkImplementation, Broken, hi, Diagnostics.hasErrors, Diagnostic.warning,
        Severity.error, Severity.warning]
  | some i =>
      rw [Diagnostics.hasErrors_of_forall (severity_check hi)]
      simp [check, checkImplementation, Broken, hi, checkMethod_eq_nil_iff]

theorem length_check_of_not_broken (h : ¬ r.Broken p) :
    (r.check p).length = if r.isUnknown p then 1 else 0 := by
  cases hi : r.interface? p.2 with
  | none => simp [check, checkImplementation, isUnknown, hi]
  | some i =>
      rw [← hasErrors_check_iff, Diagnostics.hasErrors_of_forall (severity_check hi)] at h
      have hnil : r.check p = [] := by simpa using h
      simp [hnil, isUnknown, hi]

theorem length_flatMap_check {ps : List (String × String)} (h : ∀ q ∈ ps, ¬ r.Broken q) :
    (ps.flatMap r.check).length = ps.countP r.isUnknown := by
  induction ps with
  | nil => rfl
  | cons q ps ih =>
      obtain ⟨hq, hps⟩ := List.forall_mem_cons.mp h
      rw [List.flatMap_cons, List.length_append, length_check_of_not_broken hq, ih hps,
        List.countP_cons, Nat.add_comm]

theorem Broken.check_eq_cons (h : r.Broken p) :
    ∃ e es, r.check p = e :: es ∧ e.severity = .error := by
  obtain ⟨i, hi, _⟩ := id h
  have herrors := severity_check hi
  cases hc : r.check p with
  | nil => exact absurd (hasErrors_check_iff.mpr h) (by simp [hc, Diagnostics.hasErrors])
  | cons e es => exact ⟨e, es, rfl, herrors e (hc ▸ List.mem_cons_self ..)⟩

theorem exists_first_broken (h : Diagnostics.hasErrors r.conformance = true) :
    ∃ before p after, r.pairs = before ++ p :: after ∧ r.Broken p ∧ ∀ q ∈ before, ¬ r.Broken q := by
  rw [conformance_eq_flatMap_check, Diagnostics.hasErrors_flatMap] at h
  obtain ⟨p, hp⟩ := Option.isSome_iff_exists.mp (List.find?_isSome.mpr h)
  obtain ⟨hb, before, after, heq, hbefore⟩ := List.find?_eq_some_iff_append.mp hp
  refine ⟨before, p, after, heq, hasErrors_check_iff.mp hb, fun q hq hbroken => ?_⟩
  simpa [hasErrors_check_iff.mpr hbroken] using hbefore q hq

end Registry

end Toolchain
