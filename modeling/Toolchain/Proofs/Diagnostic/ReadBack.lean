import Mathlib.Data.List.Induction
import Toolchain.Diagnostic.Archive
import Toolchain.Proofs.Traversal

namespace Toolchain

namespace Code

variable {c : Code}

theorem locate_eq_none_iff {fs : List CodeFamily} {n : Nat} :
    locate fs n = none ↔ total (fs.map (·.size)) ≤ n := by
  induction fs generalizing n with
  | nil => simp [locate, total]
  | cons f fs ih =>
      have htotal : total ((f :: fs).map (·.size)) = f.size + total (fs.map (·.size)) := rfl
      rw [locate, htotal]
      split
      next hn => simp only [reduceCtorEq, false_iff]; omega
      next hn => rw [ih]; omega

theorem mem_all_iff : c ∈ all ↔ 0 ≤ c.ordinal ∧ c.ordinal < defined := by
  obtain ⟨n⟩ := c
  simp only [all, List.mem_map, List.mem_range, mk.injEq]
  constructor
  · rintro ⟨k, hk, rfl⟩
    omega
  · rintro ⟨h0, hlt⟩
    exact ⟨n.toNat, by omega, by omega⟩

theorem render_of_not_mem_all (h : c ∉ all) : c.render = "E0000" := by
  have hnone : c.family? = none := by
    unfold family?
    split
    · rfl
    · have hout : ¬ (0 ≤ c.ordinal ∧ c.ordinal < defined) := mem_all_iff.not.mp h
      rw [locate_eq_none_iff]
      change defined ≤ _
      omega
  rw [render, hnone]

theorem parse?_render_of_mem_all : ∀ c ∈ all, parse? c.render = some c := by decide +kernel

theorem parse?_unknown : parse? "E0000" = none := by decide +kernel

end Code

def Diagnostic.plain (d : Diagnostic) : Diagnostic := { d with secondary := [], suggestions := [] }

namespace Archive

variable {a : Archive} {id id' : RunId} {created : Instant} {label : String} {d : Diagnostic}
  {ds : Diagnostics} {n k : Nat}

def readBack (id : RunId) (d : Diagnostic) : Except Failure Diagnostic :=
  if d.code ∈ Code.all then .ok d.plain else .error (.unknownCode d.code.render id)

theorem exists_readBack_iff : (∃ r, readBack id d = .ok r) ↔ d.code ∈ Code.all := by
  unfold readBack
  split <;> simp [*]

theorem eq_plain_of_readBack {r : Diagnostic} (h : readBack id d = .ok r) : r = d.plain := by
  unfold readBack at h
  split at h
  · exact (Except.ok.inj h).symm
  · exact absurd h (by simp)

section rows

def reportRows (id : RunId) (xs : List (Diagnostic × Nat)) : List ReportRow :=
  xs.map fun (d, seq) => reportRow id seq d

def allNoteRows (id : RunId) (xs : List (Diagnostic × Nat)) : List NoteRow :=
  xs.flatMap fun (d, seq) => noteRows id seq d

theorem run_of_mem_reportRows {xs : List (Diagnostic × Nat)} :
    ∀ r ∈ reportRows id xs, r.run = id := by
  intro r hr
  obtain ⟨_, _, rfl⟩ := List.mem_map.mp hr
  rfl

theorem of_mem_noteRows {r : NoteRow} (h : r ∈ noteRows id n d) : r.run = id ∧ r.seq = n := by
  obtain ⟨_, _, rfl⟩ := List.mem_map.mp h
  exact ⟨rfl, rfl⟩

theorem run_of_mem_allNoteRows {xs : List (Diagnostic × Nat)} :
    ∀ r ∈ allNoteRows id xs, r.run = id := by
  intro r hr
  obtain ⟨_, _, hr⟩ := List.mem_flatMap.mp hr
  exact (of_mem_noteRows hr).1

theorem pairwise_zipIdx {α : Type} (xs : List α) (n : Nat) :
    (xs.zipIdx n).Pairwise fun p q => p.2 < q.2 := by
  have hsnd : ((xs.zipIdx n).map Prod.snd).Pairwise (· < ·) := by
    rw [List.zipIdx_map_snd]
    exact List.pairwise_lt_range'
  exact List.pairwise_map.mp hsnd

theorem mergeSort_reportRows (ds : Diagnostics) :
    (reportRows id ds.zipIdx).mergeSort (fun r r' => r.seq ≤ r'.seq) = reportRows id ds.zipIdx := by
  refine List.mergeSort_of_pairwise (List.pairwise_map.mpr ?_)
  refine (pairwise_zipIdx ds 0).imp fun h => ?_
  exact decide_eq_true (Nat.le_of_lt h)

theorem map_note_noteRows : (noteRows id n d).map (·.note) = d.notes := by
  rw [noteRows, List.map_map]
  exact List.zipIdx_map_fst 0 d.notes

theorem pairwise_noteRows (id : RunId) (n : Nat) (d : Diagnostic) :
    (noteRows id n d).Pairwise fun r r' => r.index < r'.index :=
  List.pairwise_map.mpr (pairwise_zipIdx d.notes 0)

theorem mergeSort_allNoteRows (ds : Diagnostics) :
    (allNoteRows id ds.zipIdx).mergeSort
        (fun r r' => r.seq < r'.seq || r.seq = r'.seq && r.index ≤ r'.index) =
      allNoteRows id ds.zipIdx := by
  refine List.mergeSort_of_pairwise (List.pairwise_flatMap.mpr ⟨fun p _ => ?_, ?_⟩)
  · refine (pairwise_noteRows id p.2 p.1).imp_of_mem fun hr hr' hlt => ?_
    have hseq := (of_mem_noteRows hr).2.trans (of_mem_noteRows hr').2.symm
    simp [hseq, Nat.le_of_lt hlt]
  · refine (pairwise_zipIdx ds 0).imp fun hlt r hr r' hr' => ?_
    rw [← (of_mem_noteRows hr).2, ← (of_mem_noteRows hr').2] at hlt
    simp [hlt]

theorem filter_noteRows_of_ne (h : n ≠ k) :
    (noteRows id n d).filter (·.seq = k) = [] := by
  refine List.filter_eq_nil_iff.mpr fun r hr => ?_
  simpa [(of_mem_noteRows hr).2] using h

theorem filter_allNoteRows {ds : Diagnostics} (h : (d, n) ∈ ds.zipIdx k) :
    (allNoteRows id (ds.zipIdx k)).filter (·.seq = n) = noteRows id n d := by
  induction ds generalizing k with
  | nil => exact absurd h (by simp)
  | cons e ds ih =>
      have hcons : allNoteRows id ((e :: ds).zipIdx k) =
          noteRows id k e ++ allNoteRows id (ds.zipIdx (k + 1)) := rfl
      rw [hcons, List.filter_append]
      rcases List.mem_cons.mp h with heq | htail
      · obtain ⟨rfl, rfl⟩ := Prod.mk.inj heq
        have hself : (noteRows id n d).filter (·.seq = n) = noteRows id n d :=
          List.filter_eq_self.mpr fun r hr => decide_eq_true (of_mem_noteRows hr).2
        have hrest : (allNoteRows id (ds.zipIdx (n + 1))).filter (·.seq = n) = [] := by
          refine List.filter_eq_nil_iff.mpr fun r hr => ?_
          obtain ⟨p, hp, hr⟩ := List.mem_flatMap.mp hr
          have hlater := List.le_snd_of_mem_zipIdx hp
          rw [decide_eq_true_iff, (of_mem_noteRows hr).2]
          omega
        rw [hself, hrest, List.append_nil]
      · have hlater := List.le_snd_of_mem_zipIdx htail
        rw [filter_noteRows_of_ne (by simp only at hlater; omega), ih htail, List.nil_append]

theorem readRow_reportRow {ds : Diagnostics} (h : (d, n) ∈ ds.zipIdx) :
    readRow (allNoteRows id ds.zipIdx) (reportRow id n d) = readBack id d := by
  have hnotes : ((allNoteRows id ds.zipIdx).filter (·.seq = n)).map (·.note) = d.notes := by
    rw [filter_allNoteRows h, map_note_noteRows]
  unfold readRow readBack
  by_cases hc : d.code ∈ Code.all
  · simp only [reportRow, Code.parse?_render_of_mem_all _ hc, if_pos hc]
    exact congrArg (fun notes => Except.ok { d.plain with notes }) hnotes
  · simp only [reportRow, Code.render_of_not_mem_all hc, Code.parse?_unknown, if_neg hc]

theorem mapM_readRow (ds : Diagnostics) :
    (reportRows id ds.zipIdx).mapM (readRow (allNoteRows id ds.zipIdx)) =
      ds.mapM (readBack id) := by
  have hfst : ds = ds.zipIdx.map Prod.fst := (List.zipIdx_map_fst 0 ds).symm
  conv_rhs => rw [hfst]
  rw [reportRows, List.mapM_map, List.mapM_map]
  exact mapM_congr fun _ hp => readRow_reportRow hp

end rows

structure Free (a : Archive) (id : RunId) : Prop where
  runs : ∀ r ∈ a.runs, r.id ≠ id
  reports : ∀ r ∈ a.reports, r.run ≠ id
  notes : ∀ r ∈ a.notes, r.run ≠ id

theorem free_empty (id : RunId) : empty.Free id := by
  constructor <;> exact fun _ h => absurd h List.not_mem_nil

theorem Free.has (h : a.Free id) : a.has id = false := by
  simpa [Archive.has] using h.runs

theorem Free.insert (h : a.Free id') (hne : id ≠ id') :
    (a.insert id created label ds).Free id' where
  runs := List.forall_mem_append.mpr ⟨h.runs, List.forall_mem_singleton.mpr hne⟩
  reports := by
    refine List.forall_mem_append.mpr ⟨h.reports, fun r hr => ?_⟩
    rwa [run_of_mem_reportRows r hr]
  notes := by
    refine List.forall_mem_append.mpr ⟨h.notes, fun r hr => ?_⟩
    rwa [run_of_mem_allNoteRows r hr]

theorem Free.of_insert (h : (a.insert id created label ds).Free id') : a.Free id' ∧ id ≠ id' := by
  obtain ⟨hruns, hlast⟩ := List.forall_mem_append.mp h.runs
  have hreports := (List.forall_mem_append.mp h.reports).1
  have hnotes := (List.forall_mem_append.mp h.notes).1
  exact ⟨⟨hruns, hreports, hnotes⟩, hlast _ (List.mem_singleton_self _)⟩

theorem filter_append_self {α : Type} {key : α → RunId} {xs ys : List α}
    (hxs : ∀ x ∈ xs, key x ≠ id) (hys : ∀ y ∈ ys, key y = id) :
    (xs ++ ys).filter (key · = id) = ys := by
  have hold : xs.filter (key · = id) = [] :=
    List.filter_eq_nil_iff.mpr fun x hx => by simpa using hxs x hx
  have hnew : ys.filter (key · = id) = ys :=
    List.filter_eq_self.mpr fun y hy => by simpa using hys y hy
  rw [List.filter_append, hold, hnew, List.nil_append]

theorem filter_append_of_ne {α : Type} {key : α → RunId} {xs ys : List α}
    (hys : ∀ y ∈ ys, key y = id) (hne : id ≠ id') :
    (xs ++ ys).filter (key · = id') = xs.filter (key · = id') := by
  have hnew : ys.filter (key · = id') = [] :=
    List.filter_eq_nil_iff.mpr fun y hy => by simpa [hys y hy] using hne
  rw [List.filter_append, hnew, List.append_nil]

theorem has_insert_self : (a.insert id created label ds).has id = true := by
  simp [insert, has]

theorem load_insert_self (hopen : a.closed = false) (hfree : a.Free id) :
    (a.insert id created label ds).load false id =
      (ds.map a.keptReport).mapM (readBack id) := by
  have hready : (a.insert id created label ds).ready false .queryRun = .ok () := by
    simp [ready, insert, hopen]
  have hreports : (a.insert id created label ds).reportsOf id =
      reportRows id (ds.map a.keptReport).zipIdx := by
    rw [reportsOf, ← mergeSort_reportRows]
    exact congrArg (List.mergeSort · _) (filter_append_self hfree.reports run_of_mem_reportRows)
  have hnotes : (a.insert id created label ds).notesOf id =
      allNoteRows id (ds.map a.keptReport).zipIdx := by
    rw [notesOf, ← mergeSort_allNoteRows]
    exact congrArg (List.mergeSort · _) (filter_append_self hfree.notes run_of_mem_allNoteRows)
  rw [load, hready, if_pos has_insert_self, hreports, hnotes, mapM_readRow]

theorem load_insert_of_plain (hopen : a.closed = false) (hfree : a.Free id)
    (hds : ∀ d ∈ ds, d.code ∈ Code.all ∧ d.plain = d) :
    (a.insert id created label ds).load false id = .ok (ds.map a.keptReport) := by
  rw [load_insert_self hopen hfree, mapM_eq_ok_iff, List.forall₂_same, List.forall_mem_map]
  intro d hd
  obtain ⟨hcode, hplain⟩ := hds d hd
  rw [readBack, if_pos (show (a.keptReport d).code ∈ Code.all from hcode)]
  exact congrArg (Except.ok ∘ a.keptReport) hplain

theorem load_insert_of_ne (hne : id ≠ id') (cancelled : Bool) :
    (a.insert id created label ds).load cancelled id' = a.load cancelled id' := by
  have hhas : (a.insert id created label ds).has id' = a.has id' := by
    simp [insert, has, hne]
  have hreports : (a.insert id created label ds).reportsOf id' = a.reportsOf id' :=
    congrArg (List.mergeSort · _) (filter_append_of_ne run_of_mem_reportRows hne)
  have hnotes : (a.insert id created label ds).notesOf id' = a.notesOf id' :=
    congrArg (List.mergeSort · _) (filter_append_of_ne run_of_mem_allNoteRows hne)
  rw [load, hhas, hreports, hnotes]
  rfl

theorem runs_insert : (a.insert id created label ds).runs =
    a.runs ++ [⟨id, a.kept label, created, ds.length⟩] := by
  rw [insert, List.length_map]

theorem filter_runs_insert_self (hfree : a.Free id) :
    (a.insert id created label ds).runs.filter (·.id = id) =
      [⟨id, a.kept label, created, ds.length⟩] := by
  rw [runs_insert]
  exact filter_append_self hfree.runs (List.forall_mem_singleton.mpr rfl)

theorem filter_runs_insert_of_ne (hne : id ≠ id') :
    (a.insert id created label ds).runs.filter (·.id = id') = a.runs.filter (·.id = id') :=
  filter_append_of_ne (List.forall_mem_singleton.mpr rfl) hne

structure Writable (a : Archive) : Prop where
  opened : a.closed = false
  allowed : a.refusal = none

theorem Writable.insert (h : a.Writable) : (a.insert id created label ds).Writable :=
  ⟨h.opened, h.allowed⟩

theorem Writable.save_eq (h : a.Writable) (hfree : a.Free id) :
    a.save false id created label ds = .ok (a.insert id created label ds) := by
  have hready : a.ready false .begin = .ok () := by simp [ready, h.opened]
  simp [save, hready, h.allowed, hfree.has]

theorem save_cancelled : ∃ e, a.save true id created label ds = .error e := by
  unfold save ready
  cases a.closed with
  | true => exact ⟨_, rfl⟩
  | false => exact ⟨_, rfl⟩

theorem map_keptReport (h : a.wide = false) (ds : Diagnostics) : ds.map a.keptReport = ds := by
  have hkept : a.kept = fun s => s := funext fun s => by simp [kept, h]
  have hreport : a.keptReport = fun d => d := funext fun d => by simp [keptReport, hkept]
  rw [hreport, List.map_id']

structure SaveCall where
  id : RunId
  created : Instant
  label : String
  reports : Diagnostics
  cancelled : Bool

def SaveCall.row (c : SaveCall) : RunRow := ⟨c.id, c.label, c.created, c.reports.length⟩

def answer (a : Archive) (c : SaveCall) : Archive :=
  match a.save c.cancelled c.id c.created c.label c.reports with
  | .ok a => a
  | .error _ => a

def after (calls : List SaveCall) : Archive := calls.foldl answer empty

structure Holds (a : Archive) (calls : List SaveCall) : Prop where
  writable : a.Writable
  narrow : a.wide = false
  free : ∀ id, (∀ c ∈ calls, c.cancelled = false → c.id ≠ id) → a.Free id
  loads : ∀ c ∈ calls, c.cancelled = false →
    a.load false c.id = c.reports.mapM (readBack c.id)
  lists : ∀ c ∈ calls, c.cancelled = false → a.runs.filter (·.id = c.id) = [c.row]

theorem Holds.cancelled {calls : List SaveCall} {c : SaveCall} (h : a.Holds calls)
    (hc : c.cancelled = true) : a.Holds (calls ++ [c]) where
  writable := h.writable
  narrow := h.narrow
  free id hid := h.free id (List.forall_mem_append.mp hid).1
  loads := by
    refine List.forall_mem_append.mpr ⟨h.loads, List.forall_mem_singleton.mpr fun hn => ?_⟩
    exact absurd hc (by simp [hn])
  lists := by
    refine List.forall_mem_append.mpr ⟨h.lists, List.forall_mem_singleton.mpr fun hn => ?_⟩
    exact absurd hc (by simp [hn])

theorem Holds.insert {calls : List SaveCall} {c : SaveCall} (h : a.Holds calls)
    (hc : c.cancelled = false) (hnew : ∀ c' ∈ calls, c.id ≠ c'.id) :
    (a.insert c.id c.created c.label c.reports).Holds (calls ++ [c]) := by
  have hfree : a.Free c.id := h.free c.id fun c' hc' _ => (hnew c' hc').symm
  refine ⟨h.writable.insert, h.narrow, fun id hid => ?_, ?_, ?_⟩
  · obtain ⟨hold, hlast⟩ := List.forall_mem_append.mp hid
    exact (h.free id hold).insert (List.forall_mem_singleton.mp hlast hc)
  · refine List.forall_mem_append.mpr ⟨fun c' hc' hn => ?_, ?_⟩
    · rw [load_insert_of_ne (hnew c' hc'), h.loads c' hc' hn]
    · refine List.forall_mem_singleton.mpr fun _ => ?_
      rw [load_insert_self h.writable.opened hfree, map_keptReport h.narrow]
  · refine List.forall_mem_append.mpr ⟨fun c' hc' hn => ?_, ?_⟩
    · rw [filter_runs_insert_of_ne (hnew c' hc'), h.lists c' hc' hn]
    · refine List.forall_mem_singleton.mpr fun _ => ?_
      rw [filter_runs_insert_self hfree, kept, h.narrow]
      rfl

theorem Holds.answer {calls : List SaveCall} {c : SaveCall} (h : a.Holds calls)
    (hnew : ∀ c' ∈ calls, c.id ≠ c'.id) : (a.answer c).Holds (calls ++ [c]) := by
  unfold Archive.answer
  cases hc : c.cancelled with
  | true =>
      obtain ⟨e, he⟩ := a.save_cancelled
      rw [he]
      exact h.cancelled hc
  | false =>
      have hfree : a.Free c.id := h.free c.id fun c' hc' _ => (hnew c' hc').symm
      rw [h.writable.save_eq hfree]
      exact h.insert hc hnew

theorem holds_after {calls : List SaveCall} (hfresh : (calls.map (·.id)).Nodup) :
    (after calls).Holds calls := by
  induction calls using List.reverseRecOn with
  | nil =>
      exact ⟨⟨rfl, rfl⟩, rfl, fun id _ => free_empty id, fun _ h => absurd h List.not_mem_nil,
        fun _ h => absurd h List.not_mem_nil⟩
  | append_singleton calls c ih =>
      rw [List.map_append, List.map_singleton, List.nodup_append] at hfresh
      obtain ⟨hcalls, -, hnew⟩ := hfresh
      rw [after, List.foldl_append]
      refine (ih hcalls).answer fun c' hc' => ?_
      exact (hnew c'.id (List.mem_map_of_mem hc') c.id (List.mem_singleton_self _)).symm

theorem saved_runs_read_back (calls : List SaveCall) (hfresh : (calls.map (·.id)).Nodup) :
    (∀ c ∈ calls, c.cancelled = false →
      ((∃ ds, (after calls).load false c.id = .ok ds) ↔ ∀ d ∈ c.reports, d.code ∈ Code.all) ∧
      (∀ ds, (after calls).load false c.id = .ok ds → ds = c.reports.map Diagnostic.plain) ∧
      ∃ rows, (after calls).list false = .ok rows ∧ rows.filter (·.id = c.id) = [c.row]) ∧
    ∀ id, (∀ c ∈ calls, c.cancelled = false → c.id ≠ id) →
      (after calls).load false id = .error .notFound := by
  have h := holds_after hfresh
  refine ⟨fun c hc hn => ⟨?_, fun ds hds => ?_, ?_⟩, fun id hid => ?_⟩
  · rw [h.loads c hc hn, exists_mapM_eq_ok_iff]
    simp only [exists_readBack_iff]
  · rw [h.loads c hc hn] at hds
    exact eq_map_of_mapM (fun _ _ => eq_plain_of_readBack) hds
  · refine ⟨(after calls).runs, ?_, h.lists c hc hn⟩
    simp [list, ready, h.writable.opened, Except.map]
  · simp [load, ready, h.writable.opened, (h.free id hid).has]

-- The code of the second run is unknown.
theorem saved_runs_read_back_two :
    let noted : Diagnostic :=
      { code := ⟨23⟩, severity := .error, message := "m", span := ⟨0, 1, 2⟩,
        secondary := [⟨0, 3, 4⟩], notes := ["n", "o"] }
    let unknown : Diagnostic := { noted with code := ⟨48⟩ }
    let calls : List SaveCall :=
      [⟨⟨1⟩, 0, "a", [noted, noted], false⟩, ⟨⟨2⟩, 0, "b", [noted, unknown], false⟩,
       ⟨⟨3⟩, 0, "c", [], true⟩]
    (after calls).load false ⟨1⟩ = .ok [noted.plain, noted.plain] ∧
      (∀ ds, (after calls).load false ⟨2⟩ ≠ .ok ds) ∧
      (after calls).load false ⟨3⟩ = .error .notFound := by
  intro noted unknown calls
  obtain ⟨hsaved, hother⟩ := saved_runs_read_back calls (by decide)
  refine ⟨?_, fun ds hds => ?_, hother ⟨3⟩ (by simp [calls])⟩
  · obtain ⟨hiff, heq, -⟩ := hsaved ⟨⟨1⟩, 0, "a", [noted, noted], false⟩ (by simp [calls]) rfl
    obtain ⟨ds, hds⟩ := hiff.mpr (by decide)
    exact hds.trans (congrArg Except.ok (heq ds hds))
  · obtain ⟨hiff, -, -⟩ := hsaved ⟨⟨2⟩, 0, "b", [noted, unknown], false⟩ (by simp [calls]) rfl
    exact absurd (hiff.mp ⟨ds, hds⟩) (by decide)

end Archive

end Toolchain
