import Toolchain.Proofs.Analysis.Reports
import Toolchain.Proofs.Interface.Broken

namespace Toolchain

def Registry.Crowded (r : Registry) (cap : Int) : Prop :=
  ∃ before p after, r.pairs = before ++ p :: after ∧ r.Broken p ∧ (∀ q ∈ before, ¬ r.Broken q) ∧
    cap ≤ (before.countP r.isUnknown : Int)

theorem Registry.hidden_conformance_iff (r : Registry) (cap : Int) :
    Diagnostics.Hidden r.conformance cap ↔ 0 < cap ∧ r.Crowded cap := by
  -- Up to the first broken implementation there are only warnings, one for each unknown interface.
  have hsplit {before after : List (String × String)} {p : String × String}
      (heq : r.pairs = before ++ p :: after) (hp : r.Broken p)
      (hbefore : ∀ q ∈ before, ¬ r.Broken q) : Diagnostics.Hidden r.conformance cap ↔
        0 < cap ∧ cap ≤ (before.countP r.isUnknown : Int) := by
    obtain ⟨e, es, hcheck, he⟩ := hp.check_eq_cons
    have hnone : Diagnostics.hasErrors (before.flatMap r.check) = false := by
      refine Bool.eq_false_iff.mpr fun herrors => ?_
      obtain ⟨q, hq, hbroken⟩ := Diagnostics.hasErrors_flatMap.mp herrors
      exact hbefore q hq (Registry.hasErrors_check_iff.mp hbroken)
    rw [Registry.conformance_eq_flatMap_check, heq, List.flatMap_append, List.flatMap_cons, hcheck,
      List.cons_append, Diagnostics.hidden_append_cons_iff hnone he,
      Registry.length_flatMap_check hbefore]
  constructor
  · intro h
    obtain ⟨before, p, after, heq, hp, hbefore⟩ := Registry.exists_first_broken h.1
    obtain ⟨h0, hle⟩ := (hsplit heq hp hbefore).mp h
    exact ⟨h0, before, p, after, heq, hp, hbefore, hle⟩
  · rintro ⟨h0, before, p, after, heq, hp, hbefore, hle⟩
    exact (hsplit heq hp hbefore).mpr ⟨h0, hle⟩

def Settings.capped (s : Settings) (cap : Int) : Settings :=
  { s with analysis := { s.analysis with cap } }

namespace SourceUnit

variable (u : SourceUnit) (s : Settings) (label : String) (archive : Option Archive) (cap : Int)

theorem failed_analysed : (u.analysed s label archive).failed =
    (!(u.faults s).isEmpty ||
      Diagnostics.hasErrors (Diagnostics.truncate (u.reports s) s.analysis.cap)) := by
  obtain ⟨_, h⟩ := u.stands_analysed s label archive
  exact h.failed_eq

theorem failed_capped_eq_iff : (u.analysed (s.capped cap) label archive).failed =
      (u.analysed (s.capped 0) label archive).failed ↔
    ¬ (u.faults s = [] ∧ Diagnostics.Hidden (u.reports s) cap) := by
  have hcapped : (u.analysed (s.capped cap) label archive).failed = (!(u.faults s).isEmpty ||
      Diagnostics.hasErrors (Diagnostics.truncate (u.reports s) cap)) := u.failed_analysed _ _ _
  have hfree : (u.analysed (s.capped 0) label archive).failed = (!(u.faults s).isEmpty ||
      Diagnostics.hasErrors (u.reports s)) := u.failed_analysed _ _ _
  rw [hcapped, hfree]
  cases hf : u.faults s with
  | nil => simpa using Diagnostics.hasErrors_truncate_eq_iff
  | cons f fs => simp

theorem typeErrors_eq_nil_iff : u.typeErrors = [] ↔
    ∀ b ∈ u.vars ++ u.functions ++ u.declarations, ∃ t, Ty.parse b.type = .ok t := by
  have hnone (kind : String) (b : Binding) :
      u.typeError? kind b = none ↔ ∃ t, Ty.parse b.type = .ok t := by
    unfold typeError?
    cases Ty.parse b.type <;> simp
  simp only [typeErrors, List.append_eq_nil_iff, List.filterMap_eq_nil_iff, hnone,
    List.forall_mem_append]

theorem solve_constraints_eq_nil_iff (r : Registry) : r.solve u.constraints = [] ↔
    ∀ d ∈ u.demands, r.implements d.type d.iface = true := by
  simp [Registry.solve, Registry.unmet, constraints]

theorem severity_solve (r : Registry) (cs : List Constraint) :
    ∀ d ∈ r.solve cs, d.severity = .error := by
  intro d hd
  obtain ⟨c, _, rfl⟩ := List.mem_map.mp hd
  rfl

/-- Nothing is wrong with the unit or the settings but broken implementations, and warnings about
unknown interfaces take up the cap before the first of them is reported. -/
structure Masked : Prop where
  positive : 0 < cap
  verified : s.analysis.verifySignatures = true
  readable : firstFault s.implementations = none
  typed : ∀ b ∈ u.vars ++ u.functions ++ u.declarations, ∃ t, Ty.parse b.type = .ok t
  met : ∀ d ∈ u.demands, s.registry.implements d.type d.iface = true
  crowded : s.registry.Crowded cap

theorem masked_iff : u.Masked s cap ↔
    u.typeErrors = [] ∧ s.signatureFaults = [] ∧ Diagnostics.Hidden (u.checks s) cap := by
  have hsig : s.signatureFaults = [] ↔ firstFault s.implementations = none := by
    simp [Settings.signatureFaults]
  have hchecks : Diagnostics.Hidden (u.checks s) cap ↔ s.analysis.verifySignatures = true ∧
      s.registry.solve u.constraints = [] ∧ 0 < cap ∧ s.registry.Crowded cap := by
    rw [checks, Diagnostics.hidden_append_iff (severity_solve _ _)]
    cases s.analysis.verifySignatures with
    | true => simp [Registry.hidden_conformance_iff]
    | false => simp [Diagnostics.Hidden, Diagnostics.hasErrors]
  rw [hsig, hchecks, typeErrors_eq_nil_iff, solve_constraints_eq_nil_iff]
  constructor
  · rintro ⟨h0, hv, hs, ht, hm, hc⟩
    exact ⟨ht, hs, hv, hm, h0, hc⟩
  · rintro ⟨ht, hs, hv, hm, h0, hc⟩
    exact ⟨h0, hv, hs, ht, hm, hc⟩

theorem hidden_reports_iff_masked :
    u.faults s = [] ∧ Diagnostics.Hidden (u.reports s) cap ↔ u.Masked s cap := by
  have herrors := u.severity_typeErrors
  rw [masked_iff]
  by_cases h : u.Unhindered s
  · rw [faults_of_unhindered h, reports_of_unhindered h, Diagnostics.hidden_append_iff herrors]
    exact and_left_comm
  · -- The analysis ends early, with nothing reported but texts that are no types.
    have hkept : ¬ Diagnostics.Hidden u.typeErrors cap := by
      rw [← Diagnostics.hasErrors_truncate_eq_iff, Diagnostics.hasErrors_truncate herrors,
        Diagnostics.hasErrors_of_forall herrors]
    constructor
    · rintro ⟨-, hhidden⟩
      exact absurd (reports_of_not_unhindered h ▸ hhidden) hkept
    · rintro ⟨ht, hf, -⟩
      exact absurd (.inr ⟨ht, hf⟩) h

theorem verdict_survives_cap_iff : (u.analysed (s.capped cap) label archive).failed =
      (u.analysed (s.capped 0) label archive).failed ↔ ¬ u.Masked s cap := by
  rw [failed_capped_eq_iff, hidden_reports_iff_masked]

-- `Alpha` comes first, and its interface is unknown; `Beta` lacks the method of its interface.
theorem warning_hides_error :
    let u : SourceUnit := ⟨"u", 0, [], [], [], []⟩
    let s : Settings := { Settings.default with
      analysis := ⟨0, false, true, false⟩
      implementations := [⟨"Alpha", "Unlisted", []⟩, ⟨"Beta", "Eq", []⟩] }
    (u.analysed (s.capped 1) "" none).failed = false ∧
      (u.analysed (s.capped 0) "" none).failed = true := by
  intro u s
  rw [failed_analysed, failed_analysed]
  decide +kernel

end SourceUnit

end Toolchain
