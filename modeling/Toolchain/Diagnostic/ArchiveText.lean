import Toolchain.Diagnostic.Archive
import Toolchain.Yaml.Decode

namespace Toolchain.Archive

open Yaml

def rowText (cells : List String) : String := "- [" ++ String.intercalate ", " cells ++ "]\n"

def runText (r : RunRow) : String :=
  rowText [Text.quote r.id.render, Text.quote r.label, Int.repr r.created, Nat.repr r.count]

def reportText (r : ReportRow) : String :=
  rowText [Text.quote r.run.render, Nat.repr r.seq, Text.quote r.code, Int.repr r.severity,
    Text.quote r.message, Nat.repr r.span.file, Int.repr r.span.start, Int.repr r.span.stop]

def noteText (r : NoteRow) : String :=
  rowText [Text.quote r.run.render, Nat.repr r.seq, Nat.repr r.index, Text.quote r.note]

def toText (a : Archive) : String :=
  "wide: " ++ (if a.wide then "true" else "false") ++ "\n" ++
    "runs:\n" ++ String.join (a.runs.map runText) ++
    "reports:\n" ++ String.join (a.reports.map reportText) ++
    "notes:\n" ++ String.join (a.notes.map noteText)

def readId (n : Node) : Option RunId := n.text?.bind fun s => (RunId.parse s).toOption

def readInt (n : Node) : Option Int := n.word?.map (·.toInt)

def readNat (n : Node) : Option Nat := (readInt n).map Int.toNat

def readRun : Node → Option RunRow
  | .seq [id, label, created, count] =>
      return ⟨← readId id, ← label.text?, ← readInt created, ← readNat count⟩
  | _ => none

def readReport : Node → Option ReportRow
  | .seq [run, seq, code, severity, message, file, start, stop] =>
      return ⟨← readId run, ← readNat seq, ← code.text?, ← readInt severity, ← message.text?,
        ⟨← readNat file, ← readInt start, ← readInt stop⟩⟩
  | _ => none

def readNote : Node → Option NoteRow
  | .seq [run, seq, index, note] =>
      return ⟨← readId run, ← readNat seq, ← readNat index, ← note.text?⟩
  | _ => none

def ofText? (s : String) : Option Archive := do
  let fs ← (← Node.parse? s).fields?
  let wide ← field? fs "wide" Node.bool? false
  let runs ← field? fs "runs" (Node.list? readRun) []
  let reports ← field? fs "reports" (Node.list? readReport) []
  let notes ← field? fs "notes" (Node.list? readNote) []
  return { runs, reports, notes, wide }

end Toolchain.Archive
