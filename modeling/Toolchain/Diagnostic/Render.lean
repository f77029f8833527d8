import Toolchain.Diagnostic.Basic

namespace Toolchain

structure Renderer where
  color : Bool
  files : List (FileId × String)
  deriving Repr

namespace Renderer

/-- Output never goes to a terminal, so only the mode `always` gives colour. -/
def ofMode (mode : String) : Renderer := ⟨mode = "always", []⟩

def nameFile (r : Renderer) (id : FileId) (name : String) : Renderer :=
  { r with files := (id, name) :: r.files }

def paint (r : Renderer) (code s : String) : String :=
  if r.color then code ++ s ++ "\x1b[0m" else s

def fileName (r : Renderer) (id : FileId) : String :=
  (r.files.lookup id).getD ("file#" ++ Nat.repr id)

def location (r : Renderer) (s : Span) : String := r.fileName s.file ++ ":" ++ s.renderRange

def blue : String := "\x1b[34m"

end Renderer

def Severity.color (s : Severity) : String :=
  if s = error then "\x1b[31m"
  else if s = warning then "\x1b[33m"
  else "\x1b[36m"

namespace Renderer

def lines (r : Renderer) (d : Diagnostic) : List String :=
  (r.paint ("\x1b[1m" ++ d.severity.color) d.header ++ ": " ++ d.message ++ "\n") ::
    ((if d.span.isNone then []
      else ["  " ++ r.paint blue "-->" ++ " " ++ r.location d.span ++ "\n"]) ++
      d.secondary.map (fun s => "  " ++ r.paint blue "..." ++ " " ++ r.location s ++ "\n") ++
      d.suggestions.map (fun s =>
        "  = suggestion: " ++ s.message ++ ": `" ++ s.replacement ++ "` at " ++ r.location s.span ++
          "\n") ++
      d.notes.map (fun n => "  = note: " ++ n ++ "\n"))

def summary (ds : Diagnostics) : List String :=
  let errors := (ds.bySeverity .error).length
  let warnings := (ds.bySeverity .warning).length
  if errors = 0 ∧ warnings = 0 then []
  else [Nat.repr errors ++ " error(s), " ++ Nat.repr warnings ++ " warning(s)\n"]

def allLines (r : Renderer) (ds : Diagnostics) : List String := ds.flatMap r.lines ++ summary ds

end Renderer

def writeLines (limit : Option Nat) (ls : List String) : String × Bool :=
  match limit with
  | none => (String.join ls, true)
  | some k => (String.join (ls.take k), decide (ls.length ≤ k))

end Toolchain
