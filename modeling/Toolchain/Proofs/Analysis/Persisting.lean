import Toolchain.Command.Check
import Toolchain.Proofs.Analysis.FullReport
import Toolchain.Proofs.Diagnostic.ReadBack

namespace Toolchain

namespace Context

def filing (c : Context) : String × Option Archive × Option RunId := (c.label, c.archive, c.run)

def silent (c : Context) : Context := { c with notices := [] }

def filed (c : Context) (a : Archive) (id : RunId) : Context :=
  { c with archive := some a, run := some id }

theorem filing_silent (c : Context) : c.silent.filing = c.filing := rfl

theorem diagnostics_silent (c : Context) : c.silent.diagnostics = c.diagnostics := rfl

theorem failed_silent (c : Context) : c.silent.failed = c.failed := rfl

theorem stops_silent (c : Context) : c.silent.stops = c.stops := rfl

theorem filing_add (c : Context) (d : Diagnostic) : (c.add d).filing = c.filing := by
  unfold add
  split <;> rfl

theorem filing_foldl {α : Type} {f : Context → α → Context}
    (hf : ∀ c x, (f c x).filing = c.filing) (xs : List α) (c : Context) :
    (xs.foldl f c).filing = c.filing := by
  induction xs generalizing c with
  | nil => rfl
  | cons x xs ih => exact (ih (f c x)).trans (hf c x)

theorem filing_addAll (c : Context) (ds : Diagnostics) : (c.addAll ds).filing = c.filing :=
  filing_foldl filing_add ds c

theorem filing_readBinding {c : Context} {g : Ty → Context} (hg : ∀ t, (g t).filing = c.filing)
    (u : SourceUnit) (kind : String) (b : Binding) :
    (match c.readBinding u kind b with | .error c => c | .ok t => g t).filing = c.filing := by
  unfold readBinding
  cases Ty.parse b.type with
  | ok t => exact hg t
  | error e => exact filing_add c _

theorem filing_loadVariable (u : SourceUnit) (c : Context) (b : Binding) :
    (c.loadVariable u b).filing = c.filing := by
  refine filing_readBinding ?_ u "variable" b
  exact fun _ => rfl

theorem filing_loadFunction (u : SourceUnit) (c : Context) (b : Binding) :
    (c.loadFunction u b).filing = c.filing := by
  refine filing_readBinding ?_ u "function" b
  exact fun _ => rfl

theorem filing_loadDeclaration (u : SourceUnit) (c : Context) (b : Binding) :
    (c.loadDeclaration u b).filing = c.filing := by
  refine filing_readBinding ?_ u "declaration" b
  exact fun _ => rfl

end Context

namespace Stage

variable {total done : Nat} {st : Stage} {ss : List Stage} {c : Context}

theorem filing_load (u : SourceUnit) (c : Context) : (load u c).filing = c.filing := by
  unfold load
  rw [Context.filing_foldl (f := Context.loadDemand u) fun _ _ => rfl,
    Context.filing_foldl (Context.filing_loadDeclaration u),
    Context.filing_foldl (Context.filing_loadFunction u),
    Context.filing_foldl (Context.filing_loadVariable u)]

theorem filing_constraints (c : Context) : (constraints c).filing = c.filing := by
  unfold constraints
  dsimp only
  split
  · rw [Context.filing_addAll, Context.filing_addAll]
    rfl
  · rw [Context.filing_addAll]
    rfl

theorem filing_of_mem_analysis (hst : st ∈ analysis) (c : Context) : (st c).filing = c.filing := by
  simp only [analysis, List.mem_cons, List.not_mem_nil, or_false] at hst
  rcases hst with rfl | rfl | rfl
  · rw [Stands.implementations_eq]
    rfl
  · exact Context.filing_addAll c _
  · exact filing_constraints c

theorem filing_runFrom (hss : ∀ st ∈ ss, ∀ c, (st c).filing = c.filing) :
    (runFrom total done ss c).filing = c.filing := by
  induction ss generalizing done c with
  | nil => rfl
  | cons st ss ih =>
      obtain ⟨hst, hss⟩ := List.forall_mem_cons.mp hss
      cases hstops : (st c).stops with
      | true =>
          rw [runFrom_of_stops hstops]
          exact hst c
      | false =>
          rw [runFrom_of_not_stops hstops, ih hss]
          exact hst c

theorem silent_runFrom (total' done' : Nat) :
    (runFrom total done ss c).silent = (runFrom total' done' ss c).silent := by
  induction ss generalizing done done' c with
  | nil => rfl
  | cons st ss ih =>
      cases hstops : (st c).stops with
      | true =>
          rw [runFrom_of_stops hstops, runFrom_of_stops hstops]
          rfl
      | false =>
          rw [runFrom_of_not_stops hstops, runFrom_of_not_stops hstops]
          exact ih (done' + 1)

theorem runFrom_concat (hc : c.stops = false) : runFrom total done (ss ++ [st]) c =
    if (runFrom total done ss c).stops then runFrom total done ss c
    else runFrom total (done + ss.length) [st] (runFrom total done ss c) := by
  induction ss generalizing done c with
  | nil => rw [runFrom, hc]; rfl
  | cons st' ss ih =>
      cases hstops : (st' c).stops with
      | true =>
          rw [List.cons_append, runFrom_of_stops hstops, runFrom_of_stops hstops]
          exact (if_pos hstops).symm
      | false =>
          rw [List.cons_append, runFrom_of_not_stops hstops, runFrom_of_not_stops hstops, ih hstops,
            List.length_cons, Nat.add_right_comm done 1, Nat.add_assoc]

theorem silent_runFrom_singleton : (runFrom total done [st] c).silent = (st c).silent := by
  simp only [runFrom]
  split <;> rfl

theorem persist_eq {a : Archive} {id : RunId} {now : Instant} (harchive : c.archive = some a)
    (hwritable : a.Writable) (hfree : a.Free id) :
    persist id now c = c.filed (a.insert id now c.label c.diagnostics) id := by
  rw [persist, harchive]
  dsimp only
  rw [hwritable.save_eq hfree]
  rfl

end Stage

namespace SourceUnit

variable {u : SourceUnit} {s : Settings} {a : Archive} {id : RunId} {now : Instant}

theorem plain_of_mem_diagnostics {label : String} {archive : Option Archive} :
    ∀ d ∈ (u.analysed s label archive).diagnostics, d.code ∈ Code.all ∧ d.plain = d := by
  intro d hd
  obtain ⟨code, hcode, _, _, _, rfl⟩ := u.eq_of_mem_diagnostics s label archive hd
  have hdefined : ∀ code ∈ reportCodes, code ∈ Code.all := by decide
  exact ⟨hdefined code hcode, rfl⟩

theorem diagnostics_analysed_eq (label : String) (archive : Option Archive) :
    (u.analysed s label archive).diagnostics = (u.analysed s u.label none).diagnostics := by
  rw [diagnostics_analysed, diagnostics_analysed]

theorem failed_analysed_eq (label : String) (archive : Option Archive) :
    (u.analysed s label archive).failed = (u.analysed s u.label none).failed := by
  rw [failed_analysed, failed_analysed]

theorem settings_analysed (label : String) (archive : Option Archive) :
    (u.analysed s label archive).settings = s := by
  obtain ⟨_, h⟩ := u.stands_analysed s label archive
  exact h.settings

theorem stops_analysed (label : String) (archive : Option Archive) :
    (u.analysed s label archive).stops =
      (s.analysis.stopOnError && (u.analysed s u.label none).failed) := by
  rw [Context.stops, settings_analysed, failed_analysed_eq]

theorem filing_analysed (label : String) (archive : Option Archive) :
    (u.analysed s label archive).filing = (label, archive, none) :=
  Stage.filing_runFrom (List.forall_mem_cons.mpr
    ⟨Stage.filing_load u, fun _ => Stage.filing_of_mem_analysis⟩)

variable (u s a id now)

def processed : Context := Stage.run (u.stages id now) (.new u.label s (some a))

def leavesRun : Bool := !(s.analysis.stopOnError && (u.analysed s u.label none).failed)

theorem exists_silent_run (archive : Option Archive) :
    ∃ c : Context, c.silent = (u.analysed s u.label archive).silent ∧
      (Stage.run (u.stages id now) (.new u.label s archive)).silent =
        if c.stops then c.silent else (Stage.persist id now c).silent := by
  have hnew : (Context.new u.label s archive).stops = false := Bool.and_false _
  unfold Stage.run stages
  rw [Stage.runFrom_concat hnew]
  -- Before the last stage this is the analysis, but for a notice that counts one stage more.
  generalize hc : Stage.runFrom _ 0 (Stage.load u :: Stage.analysis) _ = c
  refine ⟨c, ?_, ?_⟩
  · rw [← hc]
    exact Stage.silent_runFrom _ _
  · split
    · rfl
    · exact Stage.silent_runFrom_singleton

variable {u s a id now}

theorem silent_processed (hwritable : a.Writable) (hfree : a.Free id) :
    (u.processed s a id now).silent =
      if u.leavesRun s then
        (u.analysed s u.label (some a)).silent.filed
          (a.insert id now u.label (u.analysed s u.label none).diagnostics) id
      else (u.analysed s u.label (some a)).silent := by
  obtain ⟨c, hsilent, hrun⟩ := u.exists_silent_run s id now (some a)
  have hstops : c.stops = !u.leavesRun s := by
    rw [← c.stops_silent, hsilent, Context.stops_silent, stops_analysed, leavesRun, Bool.not_not]
  rw [processed, hrun, hstops]
  cases u.leavesRun s with
  | false => exact hsilent
  | true =>
      have hfiling : c.filing = (u.label, some a, none) := by
        rw [← c.filing_silent, hsilent, Context.filing_silent, filing_analysed]
      have hlabel : c.label = u.label := congrArg (·.1) hfiling
      have harchive : c.archive = some a := congrArg (·.2.1) hfiling
      have hdiagnostics : c.diagnostics = (u.analysed s u.label none).diagnostics := by
        rw [← c.diagnostics_silent, hsilent, Context.diagnostics_silent, diagnostics_analysed_eq]
      rw [Bool.not_true, if_neg Bool.false_ne_true, if_pos rfl,
        Stage.persist_eq harchive hwritable hfree, hlabel, hdiagnostics, ← hsilent]
      rfl

theorem diagnostics_processed (hwritable : a.Writable) (hfree : a.Free id) :
    (u.processed s a id now).diagnostics = (u.analysed s u.label none).diagnostics := by
  rw [← Context.diagnostics_silent, silent_processed hwritable hfree,
    ← diagnostics_analysed_eq u.label (some a)]
  split <;> rfl

theorem failed_processed (hwritable : a.Writable) (hfree : a.Free id) :
    (u.processed s a id now).failed = (u.analysed s u.label none).failed := by
  rw [← Context.failed_silent, silent_processed hwritable hfree,
    ← failed_analysed_eq u.label (some a)]
  split <;> rfl

theorem archive_of_leavesRun (hwritable : a.Writable) (hfree : a.Free id)
    (hleaves : u.leavesRun s = true) (now : Instant) :
    (u.processed s a id now).archive =
        some (a.insert id now u.label (u.analysed s u.label none).diagnostics) ∧
      (u.processed s a id now).run = some id := by
  have h : (u.processed s a id now).silent = _ := silent_processed hwritable hfree
  rw [if_pos hleaves] at h
  exact ⟨congrArg Context.archive h, congrArg Context.run h⟩

theorem archive_of_not_leavesRun (hwritable : a.Writable) (hfree : a.Free id)
    (hleaves : u.leavesRun s = false) (now : Instant) :
    (u.processed s a id now).archive = some a ∧ (u.processed s a id now).run = none := by
  have h : (u.processed s a id now).filing = (u.label, some a, none) := by
    rw [← Context.filing_silent, silent_processed hwritable hfree, hleaves]
    exact filing_analysed _ _
  exact ⟨congrArg (·.2.1) h, congrArg (·.2.2) h⟩

end SourceUnit

end Toolchain
