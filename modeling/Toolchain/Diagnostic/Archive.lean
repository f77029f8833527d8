import Toolchain.Diagnostic.Basic
import Toolchain.Diagnostic.RunId
import Toolchain.Time.Duration

namespace Toolchain

structure RunRow where
  id : RunId
  label : String
  created : Instant
  count : Nat
  deriving DecidableEq, Repr

structure ReportRow where
  run : RunId
  seq : Nat
  code : String
  severity : Int
  message : String
  span : Span
  deriving DecidableEq, Repr

structure NoteRow where
  run : RunId
  seq : Nat
  index : Nat
  note : String
  deriving DecidableEq, Repr

namespace Archive

inductive Step where
  | begin
  | insertRun
  | queryRun
  | queryRuns
  deriving DecidableEq, Repr

def Step.name : Step → String
  | .begin => "begin"
  | .insertRun => "insert run"
  | .queryRun => "query run"
  | .queryRuns => "query runs"

inductive Failure where
  | closed (step : Step)
  | cancelled (step : Step)
  | readOnly (step : Step)
  | unknownLock (name : String)
  | taken
  | notFound
  | unknownCode (code : String) (run : RunId)
  deriving DecidableEq, Repr

def Failure.message : Failure → String
  | .closed s => s.name ++ ": sql: database is closed"
  | .cancelled s => s.name ++ ": context canceled"
  | .readOnly s => s.name ++ ": attempt to write a readonly database (8)"
  | .unknownLock n =>
      Step.begin.name ++ ": SQL logic error: near \"" ++ n ++ "\": syntax error (1)"
  | .taken =>
      Step.insertRun.name ++ ": constraint failed: UNIQUE constraint failed: runs.id (1555)"
  | .notFound => "diagnostics: run not found"
  | .unknownCode c r => "unknown error code " ++ Text.quote c ++ " in run " ++ r.render

end Archive

/-- Runs of reports kept in three tables, each in the order of insertion. Texts may be kept in units
of sixteen bits, and there may be a reason why no run can be saved. -/
structure Archive where
  runs : List RunRow
  reports : List ReportRow
  notes : List NoteRow
  closed : Bool := false
  wide : Bool := false
  refusal : Option Archive.Failure := none
  deriving Repr

namespace Archive

def empty : Archive := { runs := [], reports := [], notes := [] }

def reportRow (id : RunId) (seq : Nat) (d : Diagnostic) : ReportRow :=
  ⟨id, seq, d.code.render, d.severity.level, d.message, d.span⟩

def noteRows (id : RunId) (seq : Nat) (d : Diagnostic) : List NoteRow :=
  d.notes.zipIdx.map fun (note, index) => ⟨id, seq, index, note⟩

def ready (a : Archive) (cancelled : Bool) (s : Step) : Except Failure Unit :=
  if a.closed then .error (.closed s)
  else if cancelled then .error (.cancelled s)
  else .ok ()

def kept (a : Archive) (s : String) : String := if a.wide then Text.widened s else s

def keptReport (a : Archive) (d : Diagnostic) : Diagnostic :=
  { d with message := a.kept d.message, notes := d.notes.map a.kept }

def insert (a : Archive) (id : RunId) (created : Instant) (label : String) (ds : Diagnostics) :
    Archive :=
  let ds := ds.map a.keptReport
  { a with
    runs := a.runs ++ [⟨id, a.kept label, created, ds.length⟩],
    reports := a.reports ++ ds.zipIdx.map (fun (d, seq) => reportRow id seq d),
    notes := a.notes ++ ds.zipIdx.flatMap (fun (d, seq) => noteRows id seq d) }

def has (a : Archive) (id : RunId) : Bool := a.runs.any (·.id = id)

def save (a : Archive) (cancelled : Bool) (id : RunId) (created : Instant) (label : String)
    (ds : Diagnostics) : Except Failure Archive :=
  match a.ready cancelled .begin with
  | .error e => .error e
  | .ok () =>
      match a.refusal with
      | some e => .error e
      | none => if a.has id then .error .taken else .ok (a.insert id created label ds)

def reportsOf (a : Archive) (id : RunId) : List ReportRow :=
  (a.reports.filter (·.run = id)).mergeSort fun r r' => r.seq ≤ r'.seq

def notesOf (a : Archive) (id : RunId) : List NoteRow :=
  (a.notes.filter (·.run = id)).mergeSort fun n n' =>
    n.seq < n'.seq || n.seq = n'.seq && n.index ≤ n'.index

def readRow (notes : List NoteRow) (r : ReportRow) : Except Failure Diagnostic :=
  match Code.parse? r.code with
  | some code =>
      .ok { code, severity := ⟨r.severity⟩, message := r.message, span := r.span,
            notes := (notes.filter (·.seq = r.seq)).map (·.note) }
  | none => .error (.unknownCode r.code r.run)

def load (a : Archive) (cancelled : Bool) (id : RunId) : Except Failure Diagnostics :=
  match a.ready cancelled .queryRun with
  | .error e => .error e
  | .ok () =>
      if a.has id then (a.reportsOf id).mapM (readRow (a.notesOf id)) else .error .notFound

def list (a : Archive) (cancelled : Bool) : Except Failure (List RunRow) :=
  (a.ready cancelled .queryRuns).map fun _ => a.runs

def close (a : Archive) : Archive := { a with closed := true }

end Archive

end Toolchain
