import Toolchain.Analysis.Stage
import Toolchain.Proofs.Diagnostic.Errors
import Toolchain.Proofs.Ty.Expressible

namespace Toolchain

namespace Context

variable {c : Context} {r : Diagnostic} {ds es : Diagnostics}

def Keeps (c : Context) (emitted : Diagnostics) : Prop :=
  c.diagnostics = Diagnostics.truncate emitted c.settings.analysis.cap

theorem Keeps.add (h : c.Keeps ds) : (c.add r).Keeps (ds ++ [r]) := by
  unfold Keeps at *
  have hfull : c.isFull = true ↔ 0 < c.settings.analysis.cap ∧
      c.settings.analysis.cap ≤
        ((Diagnostics.truncate ds c.settings.analysis.cap).length : Int) := by
    simp [isFull, h]
  unfold Context.add
  split
  next hf => rw [h, Diagnostics.truncate_append_of_full (hfull.mp hf).1 (hfull.mp hf).2]
  next hf => rw [h, Diagnostics.truncate_concat (fun hn => hf (hfull.mpr hn))]

theorem keeps_new (label : String) (s : Settings) (archive : Option Archive) :
    (Context.new label s archive).Keeps [] := by
  simp [Keeps, Context.new, Diagnostics.truncate]

end Context

def SourceUnit.typeError? (u : SourceUnit) (kind : String) (b : Binding) : Option Diagnostic :=
  match Ty.parse b.type with
  | .ok _ => none
  | .error e =>
      some (.error .invalidType (u.span b.start b.stop)
        (kind ++ " " ++ b.name ++ ": " ++ e.message))

def SourceUnit.typeErrors (u : SourceUnit) : Diagnostics :=
  u.vars.filterMap (u.typeError? "variable") ++ u.functions.filterMap (u.typeError? "function") ++
    u.declarations.filterMap (u.typeError? "declaration")

def SourceUnit.constraints (u : SourceUnit) : List Constraint :=
  u.demands.map fun d => ⟨d.type, d.iface, u.span d.start d.stop⟩

/-- From one context to another the reports `ds` are made, and nothing changes that later stages
look at, except that declarations are added. -/
structure Reports (c c' : Context) (ds : Diagnostics) : Prop where
  settings : c'.settings = c.settings
  registry : c'.registry = c.registry
  faults : c'.faults = c.faults
  constraints : c'.environment.constraints = c.environment.constraints
  declared : (∀ d ∈ c.declarations, d.type.firstMalformed = none) →
    ∀ d ∈ c'.declarations, d.type.firstMalformed = none
  keeps : ∀ es, c.Keeps es → c'.Keeps (es ++ ds)

namespace Reports

variable {c c' c'' : Context} {ds es : Diagnostics} {u : SourceUnit} {t : Ty}

theorem refl (c : Context) : Reports c c [] where
  settings := rfl
  registry := rfl
  faults := rfl
  constraints := rfl
  declared h := h
  keeps es h := by rwa [List.append_nil]

theorem trans (h : Reports c c' ds) (h' : Reports c' c'' es) : Reports c c'' (ds ++ es) where
  settings := h'.settings.trans h.settings
  registry := h'.registry.trans h.registry
  faults := h'.faults.trans h.faults
  constraints := h'.constraints.trans h.constraints
  declared hd := h'.declared (h.declared hd)
  keeps fs hf := by
    rw [← List.append_assoc]
    exact h'.keeps _ (h.keeps fs hf)

theorem add (c : Context) (r : Diagnostic) : Reports c (c.add r) [r] := by
  refine ⟨?_, ?_, ?_, ?_, ?_, fun es h => h.add⟩ <;> (unfold Context.add; split)
  all_goals first | rfl | exact id

theorem addAll (c : Context) (ds : Diagnostics) : Reports c (c.addAll ds) ds := by
  induction ds generalizing c with
  | nil => exact refl c
  | cons r ds ih => exact (add c r).trans (ih (c.add r))

theorem foldl {α : Type} {f : Context → α → Context} {g : α → Option Diagnostic}
    (h : ∀ c x, Reports c (f c x) (g x).toList) (xs : List α) (c : Context) :
    Reports c (xs.foldl f c) (xs.filterMap g) := by
  induction xs generalizing c with
  | nil => exact refl c
  | cons x xs ih =>
      have hx := (h c x).trans (ih (f c x))
      cases hg : g x <;> simpa [hg] using hx

theorem readBinding (c : Context) (u : SourceUnit) (kind : String) (b : Binding) :
    (∃ c', c.readBinding u kind b = .error c' ∧ Reports c c' (u.typeError? kind b).toList) ∨
    (∃ t, c.readBinding u kind b = .ok t ∧ t.firstMalformed = none ∧
      u.typeError? kind b = none) := by
  unfold Context.readBinding SourceUnit.typeError?
  cases hp : Ty.parse b.type with
  | ok t => exact .inr ⟨t, rfl, (Ty.expressible_of_parse hp).firstMalformed, rfl⟩
  | error e => exact .inl ⟨_, rfl, add c _⟩

theorem declare (c : Context) (name : String) (span : Span) (ht : t.firstMalformed = none) :
    Reports c (c.declare name t span) [] := by
  refine ⟨rfl, rfl, rfl, rfl, fun hd => ?_, (refl c).keeps⟩
  exact List.forall_mem_append.mpr ⟨hd, List.forall_mem_singleton.mpr ht⟩

theorem bindFunction (c : Context) (name : String) (t : Ty) :
    Reports c { c with environment := c.environment.bindFunction name t } [] :=
  ⟨rfl, rfl, rfl, rfl, id, (refl c).keeps⟩

theorem loadVariable (u : SourceUnit) (c : Context) (b : Binding) :
    Reports c (c.loadVariable u b) (u.typeError? "variable" b).toList := by
  unfold Context.loadVariable
  rcases readBinding c u "variable" b with ⟨c', hr, h⟩ | ⟨t, hr, _, hn⟩
  · rw [hr]
    exact h
  · rw [hr, hn]
    exact ⟨rfl, rfl, rfl, Environment.constraints_bind _ _ _, id, (refl c).keeps⟩

theorem loadFunction (u : SourceUnit) (c : Context) (b : Binding) :
    Reports c (c.loadFunction u b) (u.typeError? "function" b).toList := by
  unfold Context.loadFunction
  rcases readBinding c u "function" b with ⟨c', hr, h⟩ | ⟨t, hr, ht, hn⟩
  · rw [hr]
    exact h
  · rw [hr, hn]
    exact (bindFunction c b.name t).trans (declare _ b.name _ ht)

theorem loadDeclaration (u : SourceUnit) (c : Context) (b : Binding) :
    Reports c (c.loadDeclaration u b) (u.typeError? "declaration" b).toList := by
  unfold Context.loadDeclaration
  rcases readBinding c u "declaration" b with ⟨c', hr, h⟩ | ⟨t, hr, ht, hn⟩
  · rw [hr]
    exact h
  · rw [hr, hn]
    exact declare c b.name _ ht

end Reports

def Settings.registry (s : Settings) : Registry := Registry.bare.seed.declareAll s.implementations

def Settings.signatureFaults (s : Settings) : List Fault :=
  ((firstFault s.implementations).map Fault.signature).toList

/-- Where the analysis of a unit stands: the implementations and failures so far, and all reports
made so far, those past the cap included. -/
structure Stands (u : SourceUnit) (s : Settings) (r : Registry) (faults : List Fault)
    (emitted : Diagnostics) (c : Context) : Prop where
  settings : c.settings = s
  registry : c.registry = r
  faults : c.faults = faults
  constraints : c.environment.constraints = u.constraints
  declared : ∀ d ∈ c.declarations, d.type.firstMalformed = none
  keeps : c.Keeps emitted

namespace Stands

variable {u : SourceUnit} {s : Settings} {r : Registry} {faults : List Fault}
  {emitted ds : Diagnostics} {c c' : Context}

theorem reports (h : Stands u s r faults emitted c) (hr : Reports c c' ds) :
    Stands u s r faults (emitted ++ ds) c' where
  settings := hr.settings.trans h.settings
  registry := hr.registry.trans h.registry
  faults := hr.faults.trans h.faults
  constraints := hr.constraints.trans h.constraints
  declared := hr.declared h.declared
  keeps := hr.keeps _ h.keeps

theorem notify (h : Stands u s r faults emitted c) (ns : List Notice) :
    Stands u s r faults emitted (c.notify ns) := ⟨h.1, h.2, h.3, h.4, h.5, h.6⟩

theorem foldl_loadDemand (u : SourceUnit) (ds : List Demand) (c : Context) :
    ds.foldl (Context.loadDemand u) c = { c with environment := { c.environment with
      constraints := c.environment.constraints ++
        ds.map fun d => ⟨d.type, d.iface, u.span d.start d.stop⟩ } } := by
  induction ds generalizing c with
  | nil => simp
  | cons d ds ih => simp [ih, Context.loadDemand, Environment.constrain]

theorem load (u : SourceUnit) (s : Settings) (label : String) (archive : Option Archive) :
    Stands u s .bare [] u.typeErrors (Stage.load u (.new label s archive)) := by
  have hvars := Reports.foldl (Reports.loadVariable u) u.vars (.new label s archive)
  have hfuncs := hvars.trans (Reports.foldl (Reports.loadFunction u) u.functions _)
  have hdecls := hfuncs.trans (Reports.foldl (Reports.loadDeclaration u) u.declarations _)
  have hkeeps := hdecls.keeps [] (Context.keeps_new label s archive)
  unfold Stage.load
  rw [foldl_loadDemand]
  refine ⟨hdecls.settings, hdecls.registry, hdecls.faults, ?_, ?_, hkeeps⟩
  · exact congrArg (· ++ u.constraints) hdecls.constraints
  · exact hdecls.declared (fun _ h => nomatch h)

theorem implementations_eq (c : Context) : Stage.implementations c =
    { c.notify (c.registry.seedNotices ++
        c.registry.seed.declareNotices c.settings.implementations) with
      registry := c.registry.seed.declareAll c.settings.implementations
      faults := c.faults ++ c.settings.signatureFaults } := by
  unfold Stage.implementations Settings.signatureFaults
  cases hf : firstFault c.settings.implementations <;>
    simp [hf, Context.addFault, Context.notify]

theorem implementations (h : Stands u s .bare [] emitted c) :
    Stands u s s.registry s.signatureFaults emitted (Stage.implementations c) := by
  obtain ⟨rfl, hr, hf, hc, hd, hk⟩ := h
  rw [implementations_eq, hr, hf]
  exact ⟨rfl, rfl, rfl, hc, hd, hk⟩

theorem wellFormedness (h : Stands u s r faults emitted c) :
    Stands u s r faults emitted (Stage.wellFormedness c) := by
  have hnone : c.declarations.filterMap Stage.malformed? = [] := by
    rw [List.filterMap_eq_nil_iff]
    intro d hd
    rw [Stage.malformed?, h.declared d hd, Option.map_none]
  unfold Stage.wellFormedness
  rw [hnone]
  exact h

theorem constraints_stage (h : Stands u s r faults emitted c) :
    Stands u s r faults (emitted ++ (r.solve u.constraints ++
      if s.analysis.verifySignatures then r.conformance else [])) (Stage.constraints c) := by
  have hsolve := (h.notify (c.registry.solveNotices c.environment.constraints)).reports
    (.addAll _ (c.registry.solve c.environment.constraints))
  have hconform := hsolve.reports (.addAll _ r.conformance)
  unfold Stage.constraints
  dsimp only
  rw [hsolve.settings, hsolve.registry]
  rw [h.registry, h.constraints] at hsolve hconform ⊢
  split
  · rwa [← List.append_assoc]
  · rwa [List.append_nil]

theorem failed_eq (h : Stands u s r faults emitted c) : c.failed =
    (!faults.isEmpty || Diagnostics.hasErrors (Diagnostics.truncate emitted s.analysis.cap)) := by
  have hk : c.diagnostics = _ := h.keeps
  rw [Context.failed, h.faults, hk, h.settings]

theorem stops_eq (h : Stands u s r faults emitted c) : c.stops = (s.analysis.stopOnError &&
    (!faults.isEmpty || Diagnostics.hasErrors (Diagnostics.truncate emitted s.analysis.cap))) := by
  rw [Context.stops, h.failed_eq, h.settings]

end Stands

namespace Stage

variable {total done : Nat} {st : Stage} {ss : List Stage} {c : Context}

theorem runFrom_of_stops (h : (st c).stops = true) : runFrom total done (st :: ss) c =
    (st c).notify [.stopped (st c).label (done + 1) total] := if_pos h

theorem runFrom_of_not_stops (h : (st c).stops = false) :
    runFrom total done (st :: ss) c = runFrom total (done + 1) ss (st c) :=
  if_neg (Bool.eq_false_iff.mp h)

end Stage

namespace SourceUnit

variable (u : SourceUnit) (s : Settings)

def checks : Diagnostics :=
  s.registry.solve u.constraints ++
    if s.analysis.verifySignatures then s.registry.conformance else []

def reports : Diagnostics :=
  if s.analysis.stopOnError && (!u.typeErrors.isEmpty || !s.signatureFaults.isEmpty) then
    u.typeErrors
  else u.typeErrors ++ u.checks s

def faults : List Fault :=
  if s.analysis.stopOnError && !u.typeErrors.isEmpty then [] else s.signatureFaults

def analysed (label : String) (archive : Option Archive) : Context :=
  Stage.run (Stage.load u :: Stage.analysis) (.new label s archive)

theorem eq_error_of_mem_typeErrors {r : Diagnostic} (hr : r ∈ u.typeErrors) :
    ∃ span message, r = .error .invalidType span message := by
  have hkind (kind : String) (bs : List Binding) (hr : r ∈ bs.filterMap (u.typeError? kind)) :
      ∃ span message, r = .error .invalidType span message := by
    obtain ⟨b, _, hb⟩ := List.mem_filterMap.mp hr
    unfold typeError? at hb
    split at hb
    · exact absurd hb (by simp)
    · exact ⟨_, _, (Option.some.inj hb).symm⟩
  simp only [typeErrors, List.mem_append] at hr
  rcases hr with (hr | hr) | hr
  · exact hkind _ _ hr
  · exact hkind _ _ hr
  · exact hkind _ _ hr

theorem severity_typeErrors : ∀ r ∈ u.typeErrors, r.severity = .error := by
  intro r hr
  obtain ⟨_, _, rfl⟩ := u.eq_error_of_mem_typeErrors hr
  rfl

theorem stops_of_typeErrors {r : Registry} {faults : List Fault} {c : Context}
    (h : Stands u s r faults u.typeErrors c) :
    c.stops = (s.analysis.stopOnError && (!faults.isEmpty || !u.typeErrors.isEmpty)) := by
  rw [h.stops_eq, Diagnostics.hasErrors_truncate u.severity_typeErrors]

def Unhindered : Prop :=
  s.analysis.stopOnError = false ∨ u.typeErrors = [] ∧ s.signatureFaults = []

theorem stands_of_unhindered (h : u.Unhindered s) (label : String) (archive : Option Archive) :
    Stands u s s.registry s.signatureFaults (u.typeErrors ++ u.checks s)
      (u.analysed s label archive) := by
  have h₁ := Stands.load u s label archive
  have h₂ := h₁.implementations
  have h₃ := h₂.wellFormedness
  have h₄ := h₃.constraints_stage
  have hgo (faults : List Fault) (hf : faults = [] ∨ faults = s.signatureFaults) :
      (s.analysis.stopOnError && (!faults.isEmpty || !u.typeErrors.isEmpty)) = false := by
    rcases h with h | ⟨ht, hs⟩
    · simp [h]
    · rcases hf with rfl | rfl <;> simp [ht, hs]
  unfold analysed Stage.run Stage.analysis
  rw [Stage.runFrom_of_not_stops (by rw [u.stops_of_typeErrors s h₁, hgo [] (.inl rfl)]),
    Stage.runFrom_of_not_stops (by rw [u.stops_of_typeErrors s h₂, hgo _ (.inr rfl)]),
    Stage.runFrom_of_not_stops (by rw [u.stops_of_typeErrors s h₃, hgo _ (.inr rfl)])]
  simp only [Stage.runFrom]
  split
  · exact h₄.notify _
  · exact h₄

variable {u s}

theorem faults_of_unhindered (h : u.Unhindered s) : u.faults s = s.signatureFaults := by
  rcases h with h | ⟨ht, hf⟩ <;> simp [faults, *]

theorem reports_of_unhindered (h : u.Unhindered s) : u.reports s = u.typeErrors ++ u.checks s := by
  rcases h with h | ⟨ht, hf⟩ <;> simp [reports, *]

theorem stop_of_not_unhindered (h : ¬ u.Unhindered s) : s.analysis.stopOnError = true ∧
    (u.typeErrors ≠ [] ∨ s.signatureFaults ≠ []) := by
  obtain ⟨hstop, hne⟩ := not_or.mp h
  exact ⟨Bool.not_eq_false _ ▸ hstop, Classical.not_and_iff_not_or_not.mp hne⟩

theorem reports_of_not_unhindered (h : ¬ u.Unhindered s) : u.reports s = u.typeErrors := by
  obtain ⟨hstop, hne⟩ := stop_of_not_unhindered h
  exact if_pos (by simpa [hstop] using hne)

variable (u s)

theorem stands_analysed (label : String) (archive : Option Archive) :
    ∃ r, Stands u s r (u.faults s) (u.reports s) (u.analysed s label archive) := by
  by_cases h : u.Unhindered s
  · rw [faults_of_unhindered h, reports_of_unhindered h]
    exact ⟨s.registry, stands_of_unhindered u s h label archive⟩
  · have h₁ := Stands.load u s label archive
    have h₂ := h₁.implementations
    obtain ⟨hstop, hne⟩ := stop_of_not_unhindered h
    rw [reports_of_not_unhindered h]
    unfold analysed Stage.run Stage.analysis
    by_cases ht : u.typeErrors = []
    · have hf : s.signatureFaults ≠ [] := hne.resolve_left (absurd ht)
      rw [Stage.runFrom_of_not_stops (by rw [u.stops_of_typeErrors s h₁]; simp [ht]),
        Stage.runFrom_of_stops (by rw [u.stops_of_typeErrors s h₂]; simp [hstop, hf])]
      exact ⟨_, by simpa [faults, hstop, ht] using h₂.notify _⟩
    · rw [Stage.runFrom_of_stops (by rw [u.stops_of_typeErrors s h₁]; simp [hstop, ht])]
      exact ⟨_, by simpa [faults, hstop, ht] using h₁.notify _⟩

end SourceUnit

end Toolchain
