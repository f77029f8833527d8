import Toolchain.Proofs.Analysis.Cap
import Toolchain.Proofs.Interface.Declared

namespace Toolchain

theorem Registry.eq_of_mem_conformance {r : Registry} {d : Diagnostic} (hd : d ∈ r.conformance) :
    ∃ severity message span, d = { code := .invalidImplementation, severity, message, span } := by
  rw [conformance_eq_flatMap_check] at hd
  obtain ⟨p, _, hp⟩ := List.mem_flatMap.mp hd
  rw [check, checkImplementation] at hp
  split at hp
  · exact ⟨_, _, _, List.mem_singleton.mp hp⟩
  · obtain ⟨want, _, hwant⟩ := List.mem_flatMap.mp hp
    obtain ⟨_, _, rfl⟩ := eq_error_of_mem_checkMethod hwant
    exact ⟨_, _, _, rfl⟩

/-- Whether a type implements an interface, which goes by names alone: it is one of those that can
be added, or the settings declare it with signatures that can all be read. -/
def Settings.Declares (s : Settings) (typeName iface : String) : Prop :=
  iface = "Addable" ∧ typeName ∈ ["int", "float", "str"] ∨
    ∃ spec ∈ s.implementations, spec.typeName = typeName ∧ spec.iface = iface ∧ spec.Typed

instance (s : Settings) (typeName iface : String) : Decidable (s.Declares typeName iface) :=
  inferInstanceAs (Decidable (_ ∨ _))

theorem Settings.implements_registry_iff {s : Settings} {typeName iface : String} :
    s.registry.implements typeName iface = true ↔ s.Declares typeName iface := by
  rw [registry, Registry.implements_declareAll_iff, Registry.implements_seed_bare_iff]
  exact Iff.rfl

theorem Settings.signatureFaults_eq_nil_iff {s : Settings} :
    s.signatureFaults = [] ↔ ∀ spec ∈ s.implementations, spec.Typed := by
  rw [← firstFault_eq_none_iff]
  simp [signatureFaults]

namespace SourceUnit

variable (u : SourceUnit) (s : Settings) (label : String) (archive : Option Archive)

def unmetReport (d : Demand) : Diagnostic :=
  .error .traitNotImplemented (u.span d.start d.stop)
    ("type " ++ d.type ++ " does not implement interface " ++ d.iface)

def unmetReports : Diagnostics :=
  (u.demands.filter fun d => ¬ s.Declares d.type d.iface).map u.unmetReport

theorem solve_constraints_eq : s.registry.solve u.constraints = u.unmetReports s := by
  have hmet (d : Demand) : (!s.registry.implements d.type d.iface) =
      decide (¬ s.Declares d.type d.iface) := by
    rw [Bool.eq_iff_iff, Bool.not_eq_true', decide_eq_true_iff, ← Settings.implements_registry_iff,
      Bool.not_eq_true]
  have hfilter : (fun c : Constraint => !s.registry.implements c.typeName c.iface) ∘
      (fun d : Demand => ⟨d.type, d.iface, u.span d.start d.stop⟩) =
        fun d => decide (¬ s.Declares d.type d.iface) := funext hmet
  rw [Registry.solve, Registry.unmet, constraints, List.filter_map, List.map_map, hfilter]
  rfl

theorem diagnostics_analysed : (u.analysed s label archive).diagnostics =
    Diagnostics.truncate (u.reports s) s.analysis.cap := by
  obtain ⟨_, h⟩ := u.stands_analysed s label archive
  have hkeeps : (u.analysed s label archive).diagnostics = _ := h.keeps
  rw [hkeeps, h.settings]

theorem reports_subset : u.reports s ⊆ u.typeErrors ++ u.checks s := by
  unfold reports
  split
  · exact List.subset_append_left _ _
  · exact fun _ => id

def reportCodes : List Code := [.invalidType, .traitNotImplemented, .invalidImplementation]

theorem eq_of_mem_diagnostics {d : Diagnostic}
    (hd : d ∈ (u.analysed s label archive).diagnostics) :
    ∃ code ∈ reportCodes, ∃ severity message span, d = { code, severity, message, span } := by
  rw [diagnostics_analysed] at hd
  have hmem := u.reports_subset s (Diagnostics.truncate_subset _ _ hd)
  rw [checks, solve_constraints_eq, List.mem_append, List.mem_append] at hmem
  rcases hmem with htype | hunmet | hbroken
  · obtain ⟨_, _, rfl⟩ := u.eq_error_of_mem_typeErrors htype
    exact ⟨.invalidType, by decide, _, _, _, rfl⟩
  · obtain ⟨_, _, rfl⟩ := List.mem_map.mp hunmet
    exact ⟨.traitNotImplemented, by decide, _, _, _, rfl⟩
  · split at hbroken
    · exact ⟨.invalidImplementation, by decide, Registry.eq_of_mem_conformance hbroken⟩
    · exact absurd hbroken List.not_mem_nil

theorem code_ne_invalidGeneric :
    ∀ d ∈ (u.analysed s label archive).diagnostics, d.code ≠ .invalidGeneric := by
  intro d hd
  obtain ⟨code, hcode, _, _, _, rfl⟩ := u.eq_of_mem_diagnostics s label archive hd
  have hcodes : ∀ code ∈ reportCodes, code ≠ .invalidGeneric := by decide
  exact hcodes code hcode

theorem severity_unmetReports : ∀ d ∈ u.unmetReports s, d.severity = .error := by
  rw [← solve_constraints_eq]
  exact severity_solve _ _

theorem failed_of_uncapped (hcap : s.analysis.cap = 0) : (u.analysed s label archive).failed =
    (!u.typeErrors.isEmpty || !s.signatureFaults.isEmpty || Diagnostics.hasErrors (u.checks s)) := by
  have hall : Diagnostics.truncate (u.reports s) s.analysis.cap = u.reports s := by
    rw [hcap]
    rfl
  have htypes : Diagnostics.hasErrors u.typeErrors = !u.typeErrors.isEmpty :=
    Diagnostics.hasErrors_of_forall u.severity_typeErrors
  rw [failed_analysed, hall]
  by_cases h : u.Unhindered s
  · rw [faults_of_unhindered h, reports_of_unhindered h, Diagnostics.hasErrors, List.any_append,
      ← Diagnostics.hasErrors, ← Diagnostics.hasErrors, htypes, ← Bool.or_assoc,
      Bool.or_comm (!s.signatureFaults.isEmpty)]
  · obtain ⟨hstop, hne⟩ := stop_of_not_unhindered h
    rw [reports_of_not_unhindered h, htypes, faults, hstop]
    cases ht : u.typeErrors with
    | nil => simp [hne.resolve_left (absurd ht)]
    | cons r rs => simp

theorem unit_is_reported_in_full (hcap : s.analysis.cap = 0)
    (hstop : s.analysis.stopOnError = false) (hverify : s.analysis.verifySignatures = false) :
    (u.analysed s label archive).diagnostics = u.typeErrors ++ u.unmetReports s ∧
    (∀ s', ∀ d ∈ (u.analysed s' label archive).diagnostics, d.code ≠ .invalidGeneric) ∧
    ((u.analysed s label archive).failed = false ↔
      u.typeErrors ++ u.unmetReports s = [] ∧ ∀ spec ∈ s.implementations, spec.Typed) := by
  have hchecks : u.checks s = u.unmetReports s := by
    rw [checks, solve_constraints_eq, hverify]
    exact List.append_nil _
  refine ⟨?_, fun s' => u.code_ne_invalidGeneric s' label archive, ?_⟩
  · rw [diagnostics_analysed, reports_of_unhindered (.inl hstop), hchecks, hcap]
    rfl
  · rw [failed_of_uncapped u s label archive hcap, hchecks,
      Diagnostics.hasErrors_of_forall (u.severity_unmetReports s),
      ← Settings.signatureFaults_eq_nil_iff]
    simp [and_right_comm]

theorem exists_error_parse_angle : ∃ e, Ty.parse "<" = .error e := by
  cases hp : Ty.parse "<" with
  | error e => exact ⟨e, rfl⟩
  | ok t =>
      have hchars : "<".toList = ['<'] := by decide
      have hlex : Ty.lex 0 ['<'] = [⟨0, 1, .mark '<'⟩] := by
        rw [Ty.lex_mark (by decide), Ty.lex.eq_def]
      rw [Ty.parse_eq_ok, hchars, hlex] at hp
      obtain ⟨_, _, he, hopens⟩ := hp.opens (by simp)
      obtain ⟨rfl, _⟩ := List.cons.inj he
      exact absurd hopens (by simp [Ty.Token.Opens])

-- `Beta` is declared with a signature that cannot be read, so its demand is not met.
theorem unit_is_reported_in_full_beta :
    let u : SourceUnit := ⟨"u", 1, [⟨"x", "<", 0, 2, 5⟩], [], [],
      [⟨"int", "Addable", 0, 0⟩, ⟨"Alpha", "Eq", 3, 4⟩, ⟨"Beta", "Eq", 7, 9⟩]⟩
    let s : Settings := { Settings.default with
      implementations := [⟨"Alpha", "Eq", []⟩, ⟨"Beta", "Eq", [⟨"eq", ["<"], "bool"⟩]⟩] }
    (u.analysed s "u" none).diagnostics.map (fun d => (d.code, d.span)) =
        [(.invalidType, ⟨1, 2, 5⟩), (.traitNotImplemented, ⟨1, 7, 9⟩)] ∧
      (u.analysed s "u" none).failed = true := by
  intro u s
  obtain ⟨e, he⟩ := exists_error_parse_angle
  obtain ⟨hreports, -, hfailed⟩ := u.unit_is_reported_in_full s "u" none rfl rfl rfl
  have htypes : u.typeErrors.map (fun d => (d.code, d.span)) = [(.invalidType, ⟨1, 2, 5⟩)] := by
    simp [u, typeErrors, typeError?, he, Diagnostic.error, span, Span.ordered]
  have hunread : ¬ ImplementationSpec.Typed ⟨"Beta", "Eq", [⟨"eq", ["<"], "bool"⟩]⟩ := by
    simp [ImplementationSpec.Typed, MethodSpec.Typed, he, Except.isOk, Except.toBool]
  have hread : ImplementationSpec.Typed ⟨"Alpha", "Eq", []⟩ := by simp [ImplementationSpec.Typed]
  have hunmet : u.unmetReports s = [u.unmetReport ⟨"Beta", "Eq", 7, 9⟩] := by
    simp [u, s, unmetReports, Settings.Declares, hread, hunread]
  refine ⟨?_, ?_⟩
  · rw [hreports, List.map_append, htypes, hunmet]
    rfl
  · rw [← Bool.not_eq_false, hfailed]
    rintro ⟨-, htyped⟩
    exact hunread (htyped _ (by simp [s]))

end SourceUnit

def Settings.limited (s : Settings) (cap : Int) (stop : Bool) : Settings :=
  { s with analysis := { s.analysis with cap, stopOnError := stop } }

namespace SourceUnit

variable (u : SourceUnit) (s : Settings) (label : String) (archive : Option Archive)

theorem reports_limited_isPrefix (cap : Int) :
    u.reports (s.limited cap true) <+: u.reports (s.limited cap false) := by
  have hgoing : u.reports (s.limited cap false) = u.typeErrors ++ u.checks (s.limited cap true) :=
    reports_of_unhindered (.inl rfl)
  rw [hgoing]
  by_cases h : u.Unhindered (s.limited cap true)
  · exact reports_of_unhindered h ▸ List.prefix_rfl
  · rw [reports_of_not_unhindered h]
    exact List.prefix_append _ _

theorem limits_cut_reports_short :
    (∀ n : Nat, 1 ≤ n → ∀ stop, (u.analysed (s.limited n stop) label archive).diagnostics =
      (u.analysed (s.limited 0 stop) label archive).diagnostics.take n) ∧
    (u.analysed (s.limited 0 true) label archive).diagnostics <+:
      (u.analysed (s.limited 0 false) label archive).diagnostics ∧
    (u.analysed (s.limited 0 true) label archive).failed =
      (u.analysed (s.limited 0 false) label archive).failed := by
  have hfree (stop : Bool) : (u.analysed (s.limited 0 stop) label archive).diagnostics =
      u.reports (s.limited 0 stop) := u.diagnostics_analysed _ _ _
  refine ⟨fun n hn stop => ?_, ?_, ?_⟩
  · have hpos : (0 : Int) < n := by omega
    have hcapped : (u.analysed (s.limited n stop) label archive).diagnostics =
        Diagnostics.truncate (u.reports (s.limited 0 stop)) n := u.diagnostics_analysed _ _ _
    rw [hcapped, hfree, Diagnostics.truncate, if_pos hpos, Int.toNat_natCast]
  · rw [hfree, hfree]
    exact u.reports_limited_isPrefix s 0
  · rw [u.failed_of_uncapped _ _ _ rfl, u.failed_of_uncapped _ _ _ rfl]
    rfl

-- Of two texts that are no types the cap keeps the first, and the demand is not looked at.
theorem limits_cut_reports_short_once :
    let u : SourceUnit := ⟨"u", 0, [⟨"x", "<", 0, 1, 2⟩, ⟨"y", "<", 0, 3, 4⟩], [], [],
      [⟨"bool", "Order", 5, 6⟩]⟩
    (u.analysed (Settings.default.limited 1 true) "u" none).diagnostics.map (·.span) =
      [⟨0, 1, 2⟩] := by
  intro u
  obtain ⟨e, he⟩ := exists_error_parse_angle
  obtain ⟨hcut, -, -⟩ := u.limits_cut_reports_short Settings.default "u" none
  have hfirst : (u.analysed (Settings.default.limited 1 true) "u" none).diagnostics = _ :=
    hcut 1 (Nat.le_refl 1) true
  have htypes : u.typeErrors.map (·.span) = [⟨0, 1, 2⟩, ⟨0, 3, 4⟩] := by
    simp [u, typeErrors, typeError?, he, Diagnostic.error, span, Span.ordered]
  have hstopped : ¬ u.Unhindered (Settings.default.limited 0 true) := by
    rintro (hgoing | ⟨hnone, -⟩)
    · exact absurd hgoing (by decide)
    · exact absurd htypes (by simp [hnone])
  have hall : (u.analysed (Settings.default.limited 0 true) "u" none).diagnostics = u.typeErrors := by
    rw [diagnostics_analysed, reports_of_not_unhindered hstopped]
    rfl
  rw [hfirst, hall, List.map_take, htypes]
  rfl

end SourceUnit

end Toolchain
