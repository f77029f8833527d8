import Toolchain.Diagnostic.Code
import Toolchain.Diagnostic.Span

namespace Toolchain

structure Severity where
  level : Int
  deriving DecidableEq, Repr, Inhabited

namespace Severity

def error : Severity := ⟨0⟩

def warning : Severity := ⟨1⟩

def note : Severity := ⟨2⟩

def name (s : Severity) : String :=
  if s = error then "error"
  else if s = warning then "warning"
  else if s = note then "note"
  else "unknown"

end Severity

structure Suggestion where
  message : String
  replacement : String
  span : Span
  deriving DecidableEq, Repr

structure Diagnostic where
  code : Code
  severity : Severity
  message : String
  span : Span
  secondary : List Span := []
  suggestions : List Suggestion := []
  notes : List String := []
  deriving DecidableEq, Repr, Inhabited

namespace Diagnostic

def error (code : Code) (span : Span) (message : String) : Diagnostic :=
  { code, severity := .error, message, span }

def warning (code : Code) (span : Span) (message : String) : Diagnostic :=
  { code, severity := .warning, message, span }

def traitNotImplemented (typeName iface : String) (span : Span) : Diagnostic :=
  error .traitNotImplemented span
    ("type " ++ typeName ++ " does not implement interface " ++ iface)

def withNote (d : Diagnostic) (note : String) : Diagnostic := { d with notes := d.notes ++ [note] }

def withSecondary (d : Diagnostic) (span : Span) : Diagnostic :=
  { d with secondary := d.secondary ++ [span] }

def withSuggestion (d : Diagnostic) (s : Suggestion) : Diagnostic :=
  { d with suggestions := d.suggestions ++ [s] }

def header (d : Diagnostic) : String := d.severity.name ++ "[" ++ d.code.render ++ "]"

def text (d : Diagnostic) : String := d.header ++ ": " ++ d.message

end Diagnostic

abbrev Diagnostics := List Diagnostic

namespace Diagnostics

def bySeverity (ds : Diagnostics) (s : Severity) : Diagnostics := ds.filter (·.severity = s)

def hasErrors (ds : Diagnostics) : Bool := ds.any (·.severity = .error)

def hasWarnings (ds : Diagnostics) : Bool := ds.any (·.severity = .warning)

/-- Keeps at most `max` reports; a bound below one keeps all. -/
def truncate {α : Type} (ds : List α) (max : Int) : List α :=
  if 0 < max then ds.take max.toNat else ds

def text : Diagnostics → String
  | [] => "no diagnostics"
  | [d] => d.text
  | ds => Nat.repr ds.length ++ " diagnostics:\n" ++ String.intercalate "\n" (ds.map (·.text))

end Diagnostics

end Toolchain
