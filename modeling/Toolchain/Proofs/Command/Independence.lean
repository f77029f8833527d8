import Toolchain.Proofs.Analysis.Places
import Toolchain.Proofs.Command.Checking

namespace Toolchain

theorem SourceUnit.silent_unfiled (u : SourceUnit) (s : Settings) (id : RunId) (now : Instant) :
    (Stage.run (u.stages id now) (.new u.label s none)).silent =
      (u.analysed s u.label none).silent := by
  obtain ⟨c, hsilent, hrun⟩ := u.exists_silent_run s id now none
  have hfiling : c.filing = (u.label, none, none) := by
    rw [← c.filing_silent, hsilent, Context.filing_silent, filing_analysed]
  have harchive : c.archive = none := congrArg (·.2.1) hfiling
  have hpersist : Stage.persist id now c = c := by rw [Stage.persist, harchive]
  rw [hrun, hpersist, ite_self, hsilent]

namespace Checked

variable {r r' : Renderer} {c : Checked} {cs cs' : List Checked}

def Local (c : Checked) : Prop := ∀ d ∈ c.context.diagnostics, d.Within c.unit.file

def written (r : Renderer) : List Checked → List (Renderer × Checked)
  | [] => []
  | c :: cs =>
      let r := r.nameFile c.unit.file c.path
      (r, c) :: written r cs

theorem texts_eq_join (r : Renderer) (cs : List Checked) :
    texts r cs = String.join ((written r cs).map fun q => q.2.text q.1) := by
  induction cs generalizing r with
  | nil => rfl
  | cons c cs ih => rw [texts, written, List.map_cons, String.join_cons, ← ih]

theorem map_snd_written (r : Renderer) (cs : List Checked) : (written r cs).map (·.2) = cs := by
  induction cs generalizing r with
  | nil => rfl
  | cons c cs ih => exact congrArg (c :: ·) (ih _)

theorem of_mem_written {q : Renderer × Checked} (hq : q ∈ written r cs) :
    q.2 ∈ cs ∧ ∃ r : Renderer, q.1 = r.nameFile q.2.unit.file q.2.path := by
  induction cs generalizing r with
  | nil => exact absurd hq List.not_mem_nil
  | cons c cs ih =>
      rcases List.mem_cons.mp hq with rfl | hq
      · exact ⟨List.mem_cons_self, r, rfl⟩
      · obtain ⟨hmem, hnamed⟩ := ih hq
        exact ⟨List.mem_cons_of_mem _ hmem, hnamed⟩

-- A name given to the file of a local unit is the only one that counts for its reports.
theorem Local.text_nameFile (hc : c.Local) (hcolor : r.color = r'.color) :
    c.text (r.nameFile c.unit.file c.path) = c.text (r'.nameFile c.unit.file c.path) := by
  have hlines : (r.nameFile c.unit.file c.path).allLines c.context.diagnostics =
      (r'.nameFile c.unit.file c.path).allLines c.context.diagnostics := by
    refine Renderer.allLines_congr hcolor fun d hd place hplace => ?_
    rw [(hc d hd).location r c.path place hplace, (hc d hd).location r' c.path place hplace]
  rw [text, text, hlines]

theorem texts_congr (hcs : ∀ c ∈ cs, c.Local) (hcolor : r.color = r'.color) :
    texts r cs = texts r' cs := by
  induction cs generalizing r r' with
  | nil => rfl
  | cons c cs ih =>
      obtain ⟨hc, hcs⟩ := List.forall_mem_cons.mp hcs
      have hrest : texts (r.nameFile c.unit.file c.path) cs =
          texts (r'.nameFile c.unit.file c.path) cs := ih hcs hcolor
      rw [texts, texts, hc.text_nameFile hcolor, hrest]

theorem texts_append (hcs' : ∀ c ∈ cs', c.Local) (r : Renderer) (cs : List Checked) :
    texts r (cs ++ cs') = texts r cs ++ texts r cs' := by
  induction cs generalizing r with
  | nil => exact (String.empty_append).symm
  | cons c cs ih =>
      have hrest : texts (r.nameFile c.unit.file c.path) cs' = texts r cs' := texts_congr hcs' rfl
      rw [List.cons_append, texts, texts, ih, String.append_assoc, hrest]

end Checked

namespace World

variable {w : World} {s : Settings} {paths : List String}

section unfiled

variable (w s)

def inspect (p : String × SourceUnit) : Checked :=
  ⟨p.1, p.2, Stage.run (p.2.stages (w.ids w.used) w.now) (.new p.2.label s none)⟩

theorem silent_inspect (p : String × SourceUnit) :
    (w.inspect s p).context.silent = (p.2.analysed s p.2.label none).silent :=
  p.2.silent_unfiled s _ _

theorem diagnostics_inspect (p : String × SourceUnit) : (w.inspect s p).context.diagnostics =
    (p.2.analysed s p.2.label none).diagnostics := by
  rw [← Context.diagnostics_silent, silent_inspect, Context.diagnostics_silent]

theorem failed_inspect (p : String × SourceUnit) : (w.inspect s p).context.failed =
    (p.2.analysed s p.2.label none).failed := by
  rw [← Context.failed_silent, silent_inspect, Context.failed_silent]

theorem filing_inspect (p : String × SourceUnit) :
    (w.inspect s p).context.filing = (p.2.label, none, none) := by
  rw [← Context.filing_silent, silent_inspect, Context.filing_silent, SourceUnit.filing_analysed]

theorem local_inspect (p : String × SourceUnit) : (w.inspect s p).Local := by
  intro d hd
  rw [diagnostics_inspect] at hd
  exact SourceUnit.within_of_mem_diagnostics d hd

theorem analyse_unfiled (ps : List (String × SourceUnit)) :
    w.analyse s w.used none ps = (ps.map (w.inspect s), w.used, none) := by
  induction ps with
  | nil => rfl
  | cons p ps ih =>
      have hfiling := w.filing_inspect s p
      have harchive : (w.inspect s p).context.archive = none := congrArg (·.2.1) hfiling
      have hrun : (w.inspect s p).context.run = none := congrArg (·.2.2) hfiling
      rw [inspect] at harchive hrun
      rw [analyse, harchive, hrun]
      dsimp only
      rw [if_neg (by simp), ih]
      rfl

def fails (path : String) : Bool :=
  match w.loadUnit path with
  | .error _ => true
  | .ok u => (u.analysed s u.label none).failed

variable {w s}

theorem store_unset (hstore : s.store = "") : w.store s.store = (.ok .nowhere, w) := if_pos hstore

theorem mem_units {q : String × SourceUnit} :
    q ∈ w.units paths ↔ q.1 ∈ paths ∧ w.loadUnit q.1 = .ok q.2 := by
  obtain ⟨p, u⟩ := q
  simp only [units, List.mem_filterMap, Option.map_eq_some_iff, Prod.mk.injEq]
  constructor
  · rintro ⟨p, hp, u, hu, rfl, rfl⟩
    refine ⟨hp, ?_⟩
    cases hload : w.loadUnit p with
    | error e => exact absurd hu (by simp [hload, Except.toOption])
    | ok u' => simpa [hload, Except.toOption] using hu
  · rintro ⟨hp, hu⟩
    exact ⟨p, hp, u, by rw [hu]; rfl, rfl, rfl⟩

theorem fails_iff {p : String} : w.fails s p = true ↔ (∃ e, w.loadUnit p = .error e) ∨
    ∃ u, w.loadUnit p = .ok u ∧ (u.analysed s u.label none).failed = true := by
  unfold fails
  cases w.loadUnit p <;> simp

theorem exists_fails_iff : (∃ p ∈ paths, w.fails s p = true) ↔
    (∃ p ∈ paths, ∃ e, w.loadUnit p = .error e) ∨
      ∃ q ∈ w.units paths, (q.2.analysed s q.2.label none).failed = true := by
  simp only [fails_iff, mem_units]
  constructor
  · rintro ⟨p, hp, he | ⟨u, hu, hfailed⟩⟩
    · exact .inl ⟨p, hp, he⟩
    · exact .inr ⟨(p, u), ⟨hp, hu⟩, hfailed⟩
  · rintro (⟨p, hp, he⟩ | ⟨⟨p, u⟩, ⟨hp, hu⟩, hfailed⟩)
    · exact ⟨p, hp, .inl he⟩
    · exact ⟨p, hp, .inr ⟨u, hu, hfailed⟩⟩

theorem Breaks.fails {p : String} (h : w.Breaks p) : w.fails s p = true := by
  rw [fails_iff]
  unfold Breaks at h
  cases hload : w.loadUnit p with
  | error e => exact .inl ⟨e, rfl⟩
  | ok u => exact absurd h (by simp [hload, internalError?])

theorem verdict_of_not_breaks (hstore : s.store = "") (hne : paths ≠ [])
    (hsound : ∀ p ∈ paths, ¬ w.Breaks p) : (w.check s paths).1.broken = false ∧
      (w.check s paths).1.code = if ∃ p ∈ paths, w.fails s p = true then 1 else 0 := by
  have hnone := (w.findSome?_internalError paths).mpr hsound
  have hrun : w.analyse s w.used (w.archive .nowhere) (w.units paths) = _ :=
    w.analyse_unfiled s (w.units paths)
  unfold check
  rw [if_neg (by simpa using hne), store_unset hstore]
  dsimp only
  rw [hnone, filterMap_loaded]
  refine ⟨rfl, if_congr ?_ rfl rfl⟩
  rw [Bool.or_eq_true, exists_fails_iff, hrun]
  refine or_congr ?_ ?_
  · simp only [Bool.not_eq_true', List.isEmpty_eq_false_iff_exists_mem, List.filterMap_map,
      List.mem_filterMap, Function.comp_apply]
    constructor
    · rintro ⟨_, p, hp, hsome⟩
      cases hload : w.loadUnit p with
      | error e => exact ⟨p, hp, e, hload⟩
      | ok u => exact absurd hsome (by simp [hload])
    · rintro ⟨p, hp, e, he⟩
      exact ⟨_, p, hp, by rw [he]⟩
  · simp only [List.any_map, List.any_eq_true, Function.comp_apply, failed_inspect]

theorem out_of_not_breaks (hstore : s.store = "") (hne : paths ≠ [])
    (hsound : ∀ p ∈ paths, ¬ w.Breaks p) : (w.check s paths).1.out =
      Checked.texts (.ofMode s.color) ((w.units paths).map (w.inspect s)) := by
  obtain ⟨hout, -⟩ := check_of_not_breaks hne (store_unset hstore) hsound
  rw [hout]
  exact congrArg (fun run => Checked.texts _ run.1) (w.analyse_unfiled s _)

theorem broken_iff (hstore : s.store = "") (hne : paths ≠ []) :
    (w.check s paths).1.broken = true ↔ ∃ p ∈ paths, w.Breaks p := by
  constructor
  · intro hbroken
    by_contra hnone
    have hsound : ∀ p ∈ paths, ¬ w.Breaks p := fun p hp hbreaks => hnone ⟨p, hp, hbreaks⟩
    rw [(verdict_of_not_breaks hstore hne hsound).1] at hbroken
    exact absurd hbroken Bool.false_ne_true
  · rintro ⟨p, hp, hbreaks⟩
    exact (check_of_breaks (store_unset hstore) hp hbreaks).1

theorem code_eq (hstore : s.store = "") (hne : paths ≠ []) :
    (w.check s paths).1.code = if ∃ p ∈ paths, w.fails s p = true then 1 else 0 := by
  by_cases hbreaks : ∃ p ∈ paths, w.Breaks p
  · obtain ⟨p, hp, hbreaks⟩ := hbreaks
    obtain ⟨_, hcheck⟩ := internal_of_breaks (store_unset hstore) hp hbreaks
    rw [hcheck, if_pos ⟨p, hp, hbreaks.fails⟩]
    rfl
  · exact (verdict_of_not_breaks hstore hne fun p hp h => hbreaks ⟨p, hp, h⟩).2

theorem code_singleton (hstore : s.store = "") (p : String) :
    (w.check s [p]).1.code = 1 ↔ w.fails s p = true := by
  rw [code_eq hstore (List.cons_ne_nil p [])]
  simp

theorem units_cons (w : World) (p : String) (ps : List String) :
    w.units (p :: ps) = w.units [p] ++ w.units ps := by
  rw [units, ← List.singleton_append, List.filterMap_append]
  rfl

-- Without a store the texts of units are put together as their paths are.
theorem texts_units (paths : List String) :
    Checked.texts (.ofMode s.color) ((w.units paths).map (w.inspect s)) =
      String.join (paths.map fun p =>
        Checked.texts (.ofMode s.color) ((w.units [p]).map (w.inspect s))) := by
  have hlocal (ps : List String) : ∀ c ∈ (w.units ps).map (w.inspect s), c.Local :=
    List.forall_mem_map.mpr fun q _ => w.local_inspect s q
  induction paths with
  | nil => rfl
  | cons p ps ih =>
      rw [units_cons, List.map_append, Checked.texts_append (hlocal ps), ih, List.map_cons,
        String.join_cons]

end unfiled

theorem units_are_checked_alone (w : World) (s : Settings) (hstore : s.store = "")
    (paths : List String) (hne : paths ≠ []) :
    let whole := (w.check s paths).1
    let alone := fun p => (w.check s [p]).1
    let written := Checked.written (.ofMode s.color) (w.analyse s w.used none (w.units paths)).1
    (whole.broken = true ↔ ∃ p ∈ paths, w.Breaks p) ∧
    (whole.broken = true → whole.out = "") ∧
    (whole.broken = false → whole.out = String.join (paths.map fun p => (alone p).out)) ∧
    (whole.code = if ∃ p ∈ paths, (alone p).code = 1 then 1 else 0) ∧
    (whole.broken = false → whole.out = String.join (written.map fun q => q.2.text q.1)) ∧
    written.map (fun q => (q.2.path, q.2.unit)) = w.units paths ∧
    ∀ q ∈ written, ∀ d ∈ q.2.context.diagnostics, ∀ place ∈ d.places,
      q.1.location place = q.2.path ++ ":" ++ place.renderRange := by
  intro whole alone written
  have hbroken : whole.broken = true ↔ ∃ p ∈ paths, w.Breaks p := broken_iff hstore hne
  have hsound (h : whole.broken = false) : ∀ p ∈ paths, ¬ w.Breaks p := fun p hp hbreaks =>
    absurd (hbroken.mpr ⟨p, hp, hbreaks⟩) (by simp [h])
  have hrun : w.analyse s w.used none (w.units paths) = _ := w.analyse_unfiled s _
  have hwritten : written = Checked.written (.ofMode s.color) ((w.units paths).map (w.inspect s)) :=
    congrArg (fun run => Checked.written (.ofMode s.color) run.1) hrun
  refine ⟨hbroken, fun h => ?_, fun h => ?_, ?_, fun h => ?_, ?_, fun q hq d hd => ?_⟩
  · obtain ⟨p, hp, hbreaks⟩ := hbroken.mp h
    obtain ⟨_, hcheck⟩ := internal_of_breaks (store_unset hstore) hp hbreaks
    exact congrArg (·.1.out) hcheck
  · have halone : ∀ p ∈ paths, (alone p).out =
        Checked.texts (.ofMode s.color) ((w.units [p]).map (w.inspect s)) := fun p hp =>
      out_of_not_breaks hstore (List.cons_ne_nil p [])
        (List.forall_mem_singleton.mpr (hsound h p hp))
    rw [List.map_congr_left halone, ← texts_units]
    exact out_of_not_breaks hstore hne (hsound h)
  · have hcode : whole.code = _ := code_eq hstore hne
    rw [hcode]
    exact if_congr (by simp only [alone, code_singleton hstore]) rfl rfl
  · have hout : whole.out = _ := out_of_not_breaks hstore hne (hsound h)
    rw [hout, Checked.texts_eq_join, hwritten]
  · have hpairs : written.map (fun q => (q.2.path, q.2.unit)) =
        (written.map (·.2)).map fun c => (c.path, c.unit) := by
      rw [List.map_map]
      rfl
    rw [hpairs, Checked.map_snd_written]
    exact map_analyse _ _
  · obtain ⟨hmem, r, hnamed⟩ := Checked.of_mem_written hq
    rw [hrun] at hmem
    obtain ⟨p, _, hp⟩ := List.mem_map.mp hmem
    have hlocal : q.2.Local := hp ▸ w.local_inspect s p
    rw [hnamed]
    exact (hlocal d hd).location r q.2.path

section twins

def twinSource : String :=
  "file: 7\nconstraints:\n- type: bool\n  interface: Order\n  span: {start: 4, end: 9}\n"

def twins : World where
  files := ⟨[(["a"], .file twinSource), (["b"], .file twinSource),
    (["p"], .file "{<<: {}, {a: b}: c}")]⟩
  cwd := []
  archives := []
  ids := fun n => ⟨n + 1⟩
  used := 0
  now := 0

def twin (path : String) : SourceUnit := ⟨path, 7, [], [], [], [⟨"bool", "Order", 4, 9⟩]⟩

def twinText (path : String) : String :=
  "error[A2004]: type bool does not implement interface Order\n  --> " ++ path ++
    ":4..9\n1 error(s), 0 warning(s)\n"

theorem parse_twins :
    (SourceUnit.parse twinSource "a").toOption = some (twin "a") ∧
      (SourceUnit.parse twinSource "b").toOption = some (twin "b") ∧
      SourceUnit.parse "{<<: {}, {a: b}: c}" "p" = .error .stuck := by
  decide +kernel

theorem loadUnit_a : twins.loadUnit "a" = .ok (twin "a") :=
  loadUnit_of_read rfl parse_twins.1

theorem loadUnit_b : twins.loadUnit "b" = .ok (twin "b") :=
  loadUnit_of_read rfl parse_twins.2.1

theorem loadUnit_absent : twins.loadUnit "m" = .error (.unreadable "m" (.missing "m")) := by
  have hread : twins.files.read twins.cwd "m" = .error (.missing "m") := rfl
  rw [loadUnit, hread]

theorem breaks_p : twins.Breaks "p" := by
  have hread : twins.files.read twins.cwd "p" = .ok "{<<: {}, {a: b}: c}" := rfl
  rw [Breaks, loadUnit, hread]
  dsimp only
  rw [parse_twins.2.2]
  rfl

def twinReports : Diagnostics := [.traitNotImplemented "bool" "Order" ⟨7, 4, 9⟩]

theorem reports_twins :
    Diagnostics.truncate ((twin "").reports .default) Settings.default.analysis.cap = twinReports ∧
      String.join (Renderer.allLines ⟨false, [(7, "a")]⟩ twinReports) = twinText "a" ∧
      String.join (Renderer.allLines ⟨false, [(7, "b")]⟩ twinReports) = twinText "b" := by
  decide +kernel

theorem diagnostics_twin (path : String) :
    ((twin path).analysed .default path none).diagnostics = twinReports := by
  rw [SourceUnit.diagnostics_analysed]
  exact reports_twins.1

theorem out_twin {path : String} (hload : twins.loadUnit path = .ok (twin path))
    (htext : String.join (Renderer.allLines ⟨false, [(7, path)]⟩ twinReports) = twinText path) :
    (twins.check .default [path]).1.out = twinText path := by
  have hunits : twins.units [path] = [(path, twin path)] := by
    simp [units, hload, Except.toOption]
  have hsound : ∀ p ∈ [path], ¬ twins.Breaks p := by
    simp [Breaks, internalError?, hload]
  have hdiagnostics : (twins.inspect .default (path, twin path)).context.diagnostics = _ :=
    (twins.diagnostics_inspect .default _).trans (diagnostics_twin path)
  have hrun : (twins.inspect .default (path, twin path)).context.run = none :=
    congrArg (·.2.2) (twins.filing_inspect .default _)
  rw [out_of_not_breaks rfl (List.cons_ne_nil path []) hsound, hunits, List.map_singleton,
    Checked.texts, Checked.texts, Checked.text, hdiagnostics, hrun, String.append_empty,
    String.append_empty]
  exact htext

theorem out_a : (twins.check .default ["a"]).1.out = twinText "a" :=
  out_twin loadUnit_a reports_twins.2.1

theorem out_b : (twins.check .default ["b"]).1.out = twinText "b" :=
  out_twin loadUnit_b reports_twins.2.2

theorem out_absent : (twins.check .default ["m"]).1.out = "" := by
  have hsound : ∀ p ∈ ["m"], ¬ twins.Breaks p := by
    simp [Breaks, internalError?, loadUnit_absent, UnitError.isInternal]
  have hunits : twins.units ["m"] = [] := by simp [units, loadUnit_absent, Except.toOption]
  rw [out_of_not_breaks rfl (List.cons_ne_nil _ _) hsound, hunits]
  rfl

-- There is no file `m`; the two units go by one file id, and each is named by its own path.
theorem units_are_checked_alone_twins :
    let whole := (twins.check .default ["a", "m", "b", "a"]).1
    Settings.default.store = "" ∧ whole.code = 1 ∧
      whole.out = String.join [twinText "a", "", twinText "b", twinText "a"] := by
  intro whole
  obtain ⟨hbroken, -, hout, hcode, -⟩ :=
    units_are_checked_alone twins .default rfl ["a", "m", "b", "a"] (List.cons_ne_nil _ _)
  have hsound : ¬ ∃ p ∈ ["a", "m", "b", "a"], twins.Breaks p := by
    simp [Breaks, internalError?, loadUnit_a, loadUnit_b, loadUnit_absent, UnitError.isInternal]
  have habsent : (twins.check .default ["m"]).1.code = 1 :=
    (code_singleton rfl "m").mpr (fails_iff.mpr (.inl ⟨_, loadUnit_absent⟩))
  refine ⟨rfl, hcode.trans (if_pos ⟨"m", by decide, habsent⟩), ?_⟩
  rw [hout (Bool.eq_false_iff.mpr fun h => hsound (hbroken.mp h))]
  simp only [List.map_cons, List.map_nil, out_a, out_b, out_absent]

theorem broken_unit_silences_others :
    Settings.default.store = "" ∧ (twins.check .default ["a", "p"]).1.out ≠
      String.join (["a", "p"].map fun p => (twins.check .default [p]).1.out) := by
  have hwhole : (twins.check .default ["a", "p"]).1.out = "" := by
    have hp : "p" ∈ ["a", "p"] := by decide
    have hopen : twins.store Settings.default.store = (.ok .nowhere, twins) := store_unset rfl
    obtain ⟨_, hcheck⟩ := internal_of_breaks hopen hp breaks_p
    exact congrArg (·.1.out) hcheck
  have hreported : twinText "a" ≠ "" := by decide
  refine ⟨rfl, fun h => hreported ?_⟩
  rw [hwhole, List.map_cons, out_a, String.join_cons] at h
  exact (String.append_eq_empty_iff.mp h.symm).1

end twins

end World

end Toolchain
