import Toolchain.Files
import Toolchain.Settings.Validation

namespace Toolchain.Settings

def fileName : String := "tjcore.yaml"

def find? (f : Files) (cwd : Path) (dir : String) : Option String :=
  (f.findUpward fileName (Path.resolve cwd dir)).map Path.render

inductive LoadError where
  | unreadable (path : String) (cause : FileError)
  | rejected (path : String) (cause : ParseError)
  deriving DecidableEq, Repr

def LoadError.message : LoadError → String
  | .unreadable path e => "reading config " ++ path ++ ": " ++ e.message
  | .rejected path e => e.message path

def LoadError.isInternal : LoadError → Bool
  | .rejected _ .stuck => true
  | _ => false

def load (f : Files) (cwd : Path) (path : String) : Except LoadError Settings :=
  match f.read cwd path with
  | .error e => .error (.unreadable path e)
  | .ok content => (parse content).mapError (.rejected path)

def loadFor (f : Files) (cwd : Path) (path : String) : Except LoadError Settings :=
  if path ≠ "" then load f cwd path
  else
    match find? f cwd "." with
    | some found => load f cwd found
    | none => .ok default

end Toolchain.Settings
