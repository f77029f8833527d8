import Toolchain.Proofs.Analysis.Loading
import Toolchain.Proofs.Analysis.Persisting

namespace Toolchain

section plainStores

theorem StoreQuery.pragmas_nil : pragmas [] = [] := by simp [pragmas, values]

theorem StoreQuery.lock_nil : lock [] = "" := by
  simp [lock, first, values, Text.shown, Text.signs]

theorem StoreQuery.lateFault?_nil : lateFault? [] = none := by
  rw [lateFault?, lock_nil]
  rfl

theorem Opening.ok_bind {α β : Type} (x : α) (f : α → Opening β) :
    ((liftM (Except.ok x : Except StoreFault α) : Opening α) >>= f) = f x := rfl

theorem OpenStore.ofText_of_no_options {text : String} {a : StoreAddress}
    (hquery : StoreQuery.ofStore text = .ok []) (haddress : StoreAddress.ofText text [] = .ok a)
    (hengine : a.hasEngine = true) : ofText text = (do
      let o ← ofAddress a
      o.found
      return o.place []) := by
  simp only [ofText, hquery, Except.mapError, Opening.ok_bind, haddress, hengine,
    StoreQuery.pragmas_nil, StoreQuery.lateFault?_nil, List.flatMap_nil, List.foldlM_nil]
  rfl

end plainStores

structure Checked.Filed (a : Archive) (c : Checked) (row : RunRow) : Prop where
  run : c.context.run = some row.id
  label : row.label = a.kept c.unit.label
  count : row.count = c.context.diagnostics.length
  loads : a.load false row.id = .ok (c.context.diagnostics.map a.keptReport)

/-- From one archive to another the given rows are added, one for each unit whose analysis gets as
far as saving its reports. -/
structure Checked.Files (s : Settings) (a a' : Archive) (cs : List Checked) (rows : List RunRow) :
    Prop where
  runs : a'.runs = a.runs ++ rows
  wide : a'.wide = a.wide
  fresh : ∀ row ∈ rows, a.Free row.id
  distinct : (rows.map (·.id)).Nodup
  others : ∀ id, (∀ row ∈ rows, row.id ≠ id) → a'.load false id = a.load false id
  reports : ∀ c ∈ cs, c.context.diagnostics = (c.unit.analysed s c.unit.label none).diagnostics
  verdicts : ∀ c ∈ cs, c.context.failed = (c.unit.analysed s c.unit.label none).failed
  filed : List.Forall₂ (Filed a') (cs.filter (·.unit.leavesRun s)) rows
  unfiled : ∀ c ∈ cs, c.unit.leavesRun s = false → c.context.run = none

namespace Checked

variable {s : Settings} {a a' : Archive} {c : Checked} {cs : List Checked} {row : RunRow}
  {rows : List RunRow} {id : RunId} {now : Instant}

theorem Files.nil (s : Settings) (a : Archive) : Files s a a [] [] where
  runs := (List.append_nil _).symm
  wide := rfl
  fresh := fun _ h => absurd h List.not_mem_nil
  distinct := List.nodup_nil
  others := fun _ _ => rfl
  reports := fun _ h => absurd h List.not_mem_nil
  verdicts := fun _ h => absurd h List.not_mem_nil
  filed := .nil
  unfiled := fun _ h => absurd h List.not_mem_nil

def process (s : Settings) (a : Archive) (id : RunId) (now : Instant) (p : String × SourceUnit) :
    Checked :=
  ⟨p.1, p.2, p.2.processed s a id now⟩

variable {p : String × SourceUnit}

theorem Files.skip (hwritable : a.Writable) (hfree : a.Free id) (hskip : p.2.leavesRun s = false)
    (h : Files s a a' cs rows) : Files s a a' (process s a id now p :: cs) rows where
  runs := h.runs
  wide := h.wide
  fresh := h.fresh
  distinct := h.distinct
  others := h.others
  reports := List.forall_mem_cons.mpr ⟨SourceUnit.diagnostics_processed hwritable hfree, h.reports⟩
  verdicts := List.forall_mem_cons.mpr ⟨SourceUnit.failed_processed hwritable hfree, h.verdicts⟩
  filed := by
    rw [List.filter_cons_of_neg (by simp [process, hskip])]
    exact h.filed
  unfiled := by
    have hrun := (SourceUnit.archive_of_not_leavesRun hwritable hfree hskip now).2
    exact List.forall_mem_cons.mpr ⟨fun _ => hrun, h.unfiled⟩

def saved (s : Settings) (a : Archive) (id : RunId) (now : Instant) (u : SourceUnit) : Archive :=
  a.insert id now u.label (u.analysed s u.label none).diagnostics

def savedRow (s : Settings) (a : Archive) (id : RunId) (now : Instant) (u : SourceUnit) : RunRow :=
  ⟨id, a.kept u.label, now, (u.analysed s u.label none).diagnostics.length⟩

theorem Filed.mono (h : c.Filed a row) (hwide : a'.wide = a.wide)
    (hloads : a'.load false row.id = a.load false row.id) : c.Filed a' row := by
  have hkept : a'.kept = a.kept := by
    unfold Archive.kept
    rw [hwide]
  have hreport : a'.keptReport = a.keptReport := by
    unfold Archive.keptReport
    rw [hkept]
  refine ⟨h.run, ?_, h.count, ?_⟩
  · rw [hkept]
    exact h.label
  · rw [hloads, hreport]
    exact h.loads

theorem filed_process (hwritable : a.Writable) (hfree : a.Free id) (hsave : p.2.leavesRun s = true) :
    (process s a id now p).Filed (saved s a id now p.2) (savedRow s a id now p.2) := by
  have hdiagnostics : (process s a id now p).context.diagnostics = _ :=
    SourceUnit.diagnostics_processed hwritable hfree
  have hrun := (SourceUnit.archive_of_leavesRun hwritable hfree hsave now).2
  refine ⟨hrun, rfl, ?_, ?_⟩
  · rw [hdiagnostics]
    rfl
  · rw [hdiagnostics]
    exact Archive.load_insert_of_plain hwritable.opened hfree SourceUnit.plain_of_mem_diagnostics

theorem Files.save (hwritable : a.Writable) (hfree : a.Free id) (hsave : p.2.leavesRun s = true)
    (h : Files s (saved s a id now p.2) a' cs rows) :
    Files s a a' (process s a id now p :: cs) (savedRow s a id now p.2 :: rows) where
  runs := by
    rw [h.runs, saved, Archive.runs_insert, List.append_assoc]
    rfl
  wide := h.wide
  fresh := List.forall_mem_cons.mpr ⟨hfree, fun row hrow => (h.fresh row hrow).of_insert.1⟩
  distinct := by
    rw [List.map_cons, List.nodup_cons]
    refine ⟨fun hmem => ?_, h.distinct⟩
    obtain ⟨row, hrow, hid⟩ := List.mem_map.mp hmem
    exact (h.fresh row hrow).of_insert.2 hid.symm
  others id' hid' := by
    obtain ⟨hne, hrows⟩ := List.forall_mem_cons.mp hid'
    rw [h.others id' hrows]
    exact Archive.load_insert_of_ne hne false
  reports := List.forall_mem_cons.mpr ⟨SourceUnit.diagnostics_processed hwritable hfree, h.reports⟩
  verdicts := List.forall_mem_cons.mpr ⟨SourceUnit.failed_processed hwritable hfree, h.verdicts⟩
  filed := by
    rw [List.filter_cons_of_pos (by exact hsave)]
    -- The runs saved later have other ids, so the new one stays as it was saved.
    refine .cons ((filed_process hwritable hfree hsave).mono h.wide ?_) h.filed
    exact h.others id fun row hrow => (h.fresh row hrow).of_insert.2.symm
  unfiled := by
    refine List.forall_mem_cons.mpr ⟨fun hskip => ?_, h.unfiled⟩
    exact absurd hskip (by simp [process, hsave])

theorem Files.filed_of_narrow (h : Files s a a' cs rows) (hnarrow : a.wide = false) :
    List.Forall₂ (fun c row => row.label = c.unit.label ∧
      a'.load false row.id = .ok c.context.diagnostics) (cs.filter (·.unit.leavesRun s)) rows := by
  have hwide : a'.wide = false := h.wide.trans hnarrow
  refine h.filed.imp fun c row hfiled => ⟨?_, ?_⟩
  · rw [hfiled.label, Archive.kept, hwide]
    rfl
  · rw [hfiled.loads, Archive.map_keptReport hwide]

theorem map_filter_leavesRun {ps : List (String × SourceUnit)}
    (hps : cs.map (fun c => (c.path, c.unit)) = ps) :
    (cs.filter (·.unit.leavesRun s)).map (fun c => (c.path, c.unit)) =
      ps.filter (·.2.leavesRun s) := by
  rw [← hps, List.filter_map]
  rfl

theorem Files.length_rows {ps : List (String × SourceUnit)} (h : Files s a a' cs rows)
    (hps : cs.map (fun c => (c.path, c.unit)) = ps) :
    rows.length = (ps.filter (·.2.leavesRun s)).length := by
  rw [← map_filter_leavesRun hps, List.length_map, h.filed.length_eq]

theorem Files.complete_iff {ps : List (String × SourceUnit)} (h : Files s a a' cs rows)
    (hps : cs.map (fun c => (c.path, c.unit)) = ps) :
    rows.length = ps.length ↔ ∀ q ∈ ps, q.2.leavesRun s = true := by
  rw [h.length_rows hps, List.length_filter_eq_length_iff]

end Checked

namespace World

variable {w w' : World} {s : Settings} {a : Archive} {used : Nat} {paths : List String}
  {place : StorePlace}

structure Supplies (w : World) (used : Nat) (a : Archive) : Prop where
  free : ∀ k, used ≤ k → a.Free (w.ids k)
  distinct : ∀ j k, used ≤ j → j < k → w.ids j ≠ w.ids k

theorem Supplies.saved (h : w.Supplies used a) (u : SourceUnit) :
    w.Supplies (used + 1) (Checked.saved s a (w.ids used) w.now u) where
  free k hk := (h.free k (Nat.le_of_succ_le hk)).insert (h.distinct used k (Nat.le_refl _) hk)
  distinct j k hj := h.distinct j k (Nat.le_of_succ_le hj)

theorem analyse_of_leavesRun {p : String × SourceUnit} (hwritable : a.Writable)
    (hfree : a.Free (w.ids used)) (hleaves : p.2.leavesRun s = true)
    (ps : List (String × SourceUnit)) :
    w.analyse s used (some a) (p :: ps) =
      let rest := w.analyse s (used + 1) (some (Checked.saved s a (w.ids used) w.now p.2)) ps
      (.process s a (w.ids used) w.now p :: rest.1, rest.2) := by
  obtain ⟨harchive, hrun⟩ := SourceUnit.archive_of_leavesRun hwritable hfree hleaves w.now
  rw [analyse, ← SourceUnit.processed, harchive, hrun]
  rfl

theorem analyse_of_not_leavesRun {p : String × SourceUnit} (hwritable : a.Writable)
    (hfree : a.Free (w.ids used)) (hleaves : p.2.leavesRun s = false)
    (ps : List (String × SourceUnit)) :
    w.analyse s used (some a) (p :: ps) =
      let rest := w.analyse s used (some a) ps
      (.process s a (w.ids used) w.now p :: rest.1, rest.2) := by
  obtain ⟨harchive, hrun⟩ := SourceUnit.archive_of_not_leavesRun hwritable hfree hleaves w.now
  rw [analyse, ← SourceUnit.processed, harchive, hrun]
  rfl

theorem map_analyse (archive : Option Archive) (ps : List (String × SourceUnit)) :
    (w.analyse s used archive ps).1.map (fun c => (c.path, c.unit)) = ps := by
  induction ps generalizing used archive with
  | nil => rfl
  | cons p ps ih => exact congrArg (p :: ·) (ih _)

theorem files_analyse (hwritable : a.Writable) (hids : w.Supplies used a)
    (ps : List (String × SourceUnit)) :
    ∃ a' rows, (w.analyse s used (some a) ps).2.2 = some a' ∧
      Checked.Files s a a' (w.analyse s used (some a) ps).1 rows := by
  induction ps generalizing used a with
  | nil => exact ⟨a, [], rfl, .nil s a⟩
  | cons p ps ih =>
      have hfree : a.Free (w.ids used) := hids.free used (Nat.le_refl _)
      cases hleaves : p.2.leavesRun s with
      | false =>
          obtain ⟨a', rows, hlast, hfiles⟩ := ih hwritable hids
          rw [analyse_of_not_leavesRun hwritable hfree hleaves]
          exact ⟨a', rows, hlast, hfiles.skip hwritable hfree hleaves⟩
      | true =>
          obtain ⟨a', rows, hlast, hfiles⟩ := ih hwritable.insert (hids.saved p.2)
          rw [analyse_of_leavesRun hwritable hfree hleaves]
          exact ⟨a', _, hlast, hfiles.save hwritable hfree hleaves⟩

def units (w : World) (paths : List String) : List (String × SourceUnit) :=
  paths.filterMap fun p => (w.loadUnit p).toOption.map fun u => (p, u)

theorem filterMap_loaded (w : World) (paths : List String) :
    ((paths.map fun p => (p, w.loadUnit p)).filterMap fun (p, r) =>
      r.toOption.map fun u => (p, u)) = w.units paths := List.filterMap_map

/-- Reading the file at a path is an error of the program itself. -/
def Breaks (w : World) (path : String) : Prop := (internalError? (w.loadUnit path)).isSome = true

theorem findSome?_internalError (w : World) (paths : List String) :
    ((paths.map fun p => (p, w.loadUnit p)).findSome? fun (_, r) => internalError? r) = none ↔
      ∀ p ∈ paths, ¬ w.Breaks p := by
  simp [List.findSome?_eq_none_iff, Breaks]

theorem internal_of_breaks (hopen : w.store s.store = (.ok place, w')) {p : String} (hp : p ∈ paths)
    (hbreaks : w'.Breaks p) : ∃ message, w.check s paths = (.internal message, w') := by
  have hne : ¬ paths.isEmpty = true := by
    rintro hempty
    rw [List.isEmpty_iff.mp hempty] at hp
    exact absurd hp List.not_mem_nil
  obtain ⟨e, he⟩ : ∃ e, ((paths.map fun p => (p, w'.loadUnit p)).findSome?
      fun (_, r) => internalError? r) = some e := by
    refine Option.ne_none_iff_exists'.mp fun hnone => ?_
    exact (w'.findSome?_internalError paths).mp hnone p hp hbreaks
  refine ⟨e.message, ?_⟩
  unfold check
  rw [if_neg hne, hopen]
  dsimp only
  rw [he]

theorem check_of_breaks (hopen : w.store s.store = (.ok place, w')) {p : String} (hp : p ∈ paths)
    (hbreaks : w'.Breaks p) : (w.check s paths).1.broken = true ∧ (w.check s paths).2 = w' := by
  obtain ⟨message, hcheck⟩ := internal_of_breaks hopen hp hbreaks
  rw [hcheck]
  exact ⟨rfl, rfl⟩

theorem check_of_not_breaks (hne : paths ≠ []) (hopen : w.store s.store = (.ok place, w'))
    (hsound : ∀ p ∈ paths, ¬ w'.Breaks p) :
    let run := w'.analyse s w'.used (w'.archive place) (w'.units paths)
    (w.check s paths).1.out = Checked.texts (.ofMode s.color) run.1 ∧
      (w.check s paths).2 = { w' with used := run.2.1 }.keep place run.2.2 := by
  have hnone := (w'.findSome?_internalError paths).mpr hsound
  unfold check
  rw [if_neg (by simpa using hne), hopen]
  dsimp only
  rw [hnone, filterMap_loaded]
  exact ⟨rfl, rfl⟩

theorem lookup_keepAt (w : World) (p : Path) (a : Archive) :
    (w.keepAt p a).archives.lookup p = some a := List.lookup_cons_self

/-- Once the store is open and can be written to, each unit leaves a run, save for those that fail
while failures are set to stop the analysis; it does not matter in what order the units come to be
saved. The analysis of a unit that puts a variable in a negative scope does not end. -/
theorem checked_units_leave_runs (hopen : w.store s.store = (.ok place, w'))
    (harchive : w'.archive place = some a) (hwritable : a.Writable)
    (hids : w'.Supplies w'.used a) (paths : List String) :
    let run := w'.analyse s w'.used (some a)
    (paths = [] → (w.check s paths).2 = w) ∧
    ((∃ p ∈ paths, w'.Breaks p) → (w.check s paths).1.broken = true ∧ (w.check s paths).2 = w') ∧
    (∀ q ∈ w'.units paths, ∀ c c', Context.Loads q.2 c c' ↔
      q.2.Scoped ∧ c' = Stage.load q.2 c) ∧
    (paths ≠ [] → (∀ p ∈ paths, ¬ w'.Breaks p) → (∀ q ∈ w'.units paths, q.2.Scoped) →
      (w.check s paths).1.out = Checked.texts (.ofMode s.color) (run (w'.units paths)).1 ∧
      (∀ p, place = .file p none →
        (w.check s paths).2.archives.lookup p = (run (w'.units paths)).2.2) ∧
      ∀ ps, ps.Perm (w'.units paths) →
        (run ps).1.map (fun c => (c.path, c.unit)) = ps ∧
        ∃ a' rows, (run ps).2.2 = some a' ∧ Checked.Files s a a' (run ps).1 rows ∧
          (rows.length = ps.length ↔ ∀ q ∈ w'.units paths, q.2.leavesRun s = true) ∧
          (a.wide = false → List.Forall₂ (fun c row => row.label = c.unit.label ∧
            a'.load false row.id = .ok c.context.diagnostics)
            ((run ps).1.filter (·.unit.leavesRun s)) rows)) := by
  intro run
  refine ⟨?_, ?_, fun q _ c c' => Context.loads_iff, fun hne hsound _ => ?_⟩
  · rintro rfl
    rfl
  · rintro ⟨p, hp, hbreaks⟩
    exact check_of_breaks hopen hp hbreaks
  · obtain ⟨hout, hworld⟩ := check_of_not_breaks hne hopen hsound
    rw [harchive] at hout hworld
    refine ⟨hout, fun p hplace => ?_, fun ps hps => ⟨map_analyse _ _, ?_⟩⟩
    · obtain ⟨a', _, hlast, _⟩ := files_analyse (s := s) hwritable hids (w'.units paths)
      rw [hworld, hplace, hlast]
      exact lookup_keepAt _ p a'
    · obtain ⟨a', rows, hlast, hfiles⟩ := files_analyse (s := s) hwritable hids ps
      refine ⟨a', rows, hlast, hfiles, ?_, hfiles.filed_of_narrow⟩
      rw [hfiles.complete_iff (map_analyse _ _)]
      exact forall_congr' fun q => imp_congr_left hps.mem_iff

section sample

def sample : World where
  files := ⟨[(["u"], .file "constraints:\n- type: bool\n  interface: Order\n"),
    (["v"], .file "variables:\n- {name: x, type: int, scope: 1}\n")]⟩
  cwd := []
  archives := []
  ids := fun n => ⟨n + 1⟩
  used := 0
  now := 0

def sampleOpened : World := (sample.put ["r"] "").keepAt ["r"] .empty

def sampleSettings : Settings :=
  { Settings.default with
    store := "r"
    analysis := ⟨1, true, true, false⟩
    implementations := [⟨"Alpha", "Unlisted", []⟩] }

def faultyUnit : SourceUnit := ⟨"u", 0, [], [], [], [⟨"bool", "Order", 0, 0⟩]⟩

def soundUnit : SourceUnit := ⟨"v", 0, [⟨"x", "int", 1, 0, 0⟩], [], [], []⟩

theorem store_sample : sample.store "r" = (.ok (.file ["r"] none), sampleOpened) := by
  rw [store, if_neg (by decide),
    OpenStore.ofText_of_no_options (a := { name := "r" }) rfl rfl rfl]
  simp only [OpenStore.place, OpenStore.refusal?, StoreQuery.lock_nil]
  rfl

theorem archive_sampleOpened : sampleOpened.archive (.file ["r"] none) = some .empty := rfl

theorem supplies_sampleOpened : sampleOpened.Supplies sampleOpened.used .empty where
  free _ _ := Archive.free_empty _
  distinct j k _ hlt h := by
    have hvalue : j + 1 = k + 1 := congrArg RunId.value h
    omega

theorem loadUnit_of_read {path text : String} {u : SourceUnit}
    (hread : w.files.read w.cwd path = .ok text)
    (hparse : (SourceUnit.parse text path).toOption = some u) : w.loadUnit path = .ok u := by
  have hok : SourceUnit.parse text path = .ok u := by
    cases hp : SourceUnit.parse text path with
    | error e => exact absurd (hp ▸ hparse) (by simp [Except.toOption])
    | ok u' =>
        rw [hp] at hparse
        exact congrArg Except.ok (Option.some.inj hparse)
  simp only [loadUnit, hread, hok, Except.mapError]

theorem parse_sample :
    (SourceUnit.parse "constraints:\n- type: bool\n  interface: Order\n" "u").toOption =
        some faultyUnit ∧
      (SourceUnit.parse "variables:\n- {name: x, type: int, scope: 1}\n" "v").toOption = some soundUnit := by
  decide +kernel

theorem loadUnit_u : sampleOpened.loadUnit "u" = .ok faultyUnit :=
  loadUnit_of_read rfl parse_sample.1

theorem loadUnit_v : sampleOpened.loadUnit "v" = .ok soundUnit :=
  loadUnit_of_read rfl parse_sample.2

theorem loadUnit_m : sampleOpened.loadUnit "m" = .error (.unreadable "m" (.missing "m")) := by
  have hread : sampleOpened.files.read sampleOpened.cwd "m" = .error (.missing "m") := rfl
  rw [loadUnit, hread]

theorem typeErrors_soundUnit : soundUnit.typeErrors = [] := by
  have hint : Ty.parse "int" = .ok .int := SourceUnit.parse_primitive (by decide)
  simp [SourceUnit.typeErrors, SourceUnit.typeError?, soundUnit, hint]

theorem leavesRun_sample : faultyUnit.leavesRun sampleSettings = false ∧
    soundUnit.leavesRun sampleSettings = true := by
  simp only [SourceUnit.leavesRun, SourceUnit.failed_analysed, SourceUnit.faults,
    SourceUnit.reports, typeErrors_soundUnit]
  decide +kernel

theorem leavesRun_faultyUnit : faultyUnit.leavesRun sampleSettings = false := leavesRun_sample.1

theorem leavesRun_soundUnit : soundUnit.leavesRun sampleSettings = true := leavesRun_sample.2

theorem units_sampleOpened : sampleOpened.units ["u", "m", "v"] =
    [("u", faultyUnit), ("v", soundUnit)] := by
  simp [units, loadUnit_u, loadUnit_m, loadUnit_v, Except.toOption]

-- There is no file `m`, and the unit in `u` is at fault, so only the one in `v` leaves a run.
theorem checked_units_leave_runs_one :
    ∃ a row ds, (sample.check sampleSettings ["u", "m", "v"]).2.archives.lookup ["r"] = some a ∧
      a.runs = [row] ∧ row.label = "v" ∧ a.load false row.id = .ok ds ∧
      ds.map (fun d => (d.code, d.severity)) = [(.invalidImplementation, .warning)] := by
  have hsound : ∀ p ∈ ["u", "m", "v"], ¬ sampleOpened.Breaks p := by
    simp [Breaks, internalError?, loadUnit_u, loadUnit_m, loadUnit_v, UnitError.isInternal]
  have hscoped : ∀ q ∈ sampleOpened.units ["u", "m", "v"], q.2.Scoped := by
    simp [units_sampleOpened, SourceUnit.Scoped, faultyUnit, soundUnit]
  obtain ⟨-, -, -, h⟩ := checked_units_leave_runs (s := sampleSettings) store_sample
    archive_sampleOpened ⟨rfl, rfl⟩ supplies_sampleOpened ["u", "m", "v"]
  obtain ⟨-, hkept, hfiled⟩ := h (by decide) hsound hscoped
  obtain ⟨hunits, a, rows, hlast, hfiles, -, hnarrow⟩ := hfiled _ (.refl _)
  have hsaved := Checked.map_filter_leavesRun (s := sampleSettings)
    (hunits.trans units_sampleOpened)
  have hleft : [("u", faultyUnit), ("v", soundUnit)].filter (·.2.leavesRun sampleSettings) =
      [("v", soundUnit)] := by
    simp [leavesRun_faultyUnit, leavesRun_soundUnit]
  obtain ⟨c, hc, hpair⟩ := List.map_eq_singleton_iff.mp (hsaved.trans hleft)
  have hunit : c.unit = soundUnit := (Prod.mk.inj hpair).2
  have hmem := (List.mem_filter.mp (hc ▸ List.mem_singleton_self c)).1
  have hrows := hnarrow rfl
  rw [hc] at hrows
  obtain ⟨row, _, ⟨hlabel, hloads⟩, hnil, rfl⟩ := List.forall₂_cons_left_iff.mp hrows
  rw [List.forall₂_nil_left_iff.mp hnil] at hfiles
  refine ⟨a, row, _, (hkept _ rfl).trans hlast, hfiles.runs, ?_, hloads, ?_⟩
  · rw [hlabel, hunit]
    rfl
  · rw [hfiles.reports c hmem, hunit, SourceUnit.diagnostics_analysed, SourceUnit.reports,
      typeErrors_soundUnit]
    decide +kernel

theorem failing_unit_leaves_no_run :
    let s : Settings := { Settings.default with store := "r", analysis := ⟨0, true, false, false⟩ }
    sample.store s.store = (.ok (.file ["r"] none), sampleOpened) ∧
      sampleOpened.archive (.file ["r"] none) = some .empty ∧ Archive.empty.Writable ∧
      sampleOpened.Supplies sampleOpened.used .empty ∧
      sampleOpened.loadUnit "u" = .ok faultyUnit ∧
      ∃ a, (sample.check s ["u"]).2.archives.lookup ["r"] = some a ∧ a.runs = [] := by
  intro s
  have hwritable : Archive.empty.Writable := ⟨rfl, rfl⟩
  refine ⟨store_sample, archive_sampleOpened, hwritable, supplies_sampleOpened, loadUnit_u, ?_⟩
  have hsound : ∀ p ∈ ["u"], ¬ sampleOpened.Breaks p := by
    simp [Breaks, internalError?, loadUnit_u]
  have hunits : sampleOpened.units ["u"] = [("u", faultyUnit)] := by
    simp [units, loadUnit_u, Except.toOption]
  have hleaves : faultyUnit.leavesRun s = false := by
    rw [SourceUnit.leavesRun, SourceUnit.failed_analysed]
    decide +kernel
  obtain ⟨-, hworld⟩ := check_of_not_breaks (s := s) (by decide) store_sample hsound
  obtain ⟨a, rows, hlast, hfiles⟩ := files_analyse (s := s) hwritable supplies_sampleOpened
    (sampleOpened.units ["u"])
  have hnone : rows = [] := by
    rw [← List.length_eq_zero_iff, hfiles.length_rows (map_analyse _ _), hunits]
    simp [hleaves]
  rw [hnone] at hfiles
  refine ⟨a, ?_, hfiles.runs⟩
  rw [hworld, archive_sampleOpened, hlast]
  exact lookup_keepAt _ _ a

end sample

end World

end Toolchain
