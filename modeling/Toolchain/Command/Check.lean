import Toolchain.Analysis.Stage
import Toolchain.Command.OpenStore
import Toolchain.Diagnostic.Render

namespace Toolchain

inductive UnitError where
  | unreadable (path : String) (cause : FileError)
  | rejected (path : String) (cause : SourceUnit.ParseError)
  deriving DecidableEq, Repr

def UnitError.message : UnitError → String
  | .unreadable path e => "reading unit " ++ path ++ ": " ++ e.message
  | .rejected path e => e.message path

def UnitError.isInternal : UnitError → Bool
  | .rejected _ .stuck => true
  | _ => false

structure Checked where
  path : String
  unit : SourceUnit
  context : Context

def SourceUnit.stages (u : SourceUnit) (id : RunId) (now : Instant) : List Stage :=
  Stage.load u :: Stage.analysis ++ [Stage.persist id now]

namespace Checked

def text (r : Renderer) (c : Checked) : String :=
  String.join (r.allLines c.context.diagnostics) ++
    match c.context.run with
    | some id => "saved run " ++ id.render ++ "\n"
    | none => ""

def texts (r : Renderer) : List Checked → String
  | [] => ""
  | c :: cs =>
      let r := r.nameFile c.unit.file c.path
      c.text r ++ texts r cs

def faultText (c : Checked) : String :=
  String.join (c.context.faults.map fun f => "- " ++ f.message ++ "\n")

end Checked

namespace World

def loadUnit (w : World) (path : String) : Except UnitError SourceUnit :=
  match w.files.read w.cwd path with
  | .error e => .error (.unreadable path e)
  | .ok content => (SourceUnit.parse content path).mapError (.rejected path)

def internalError? : Except UnitError SourceUnit → Option UnitError
  | .error e => if e.isInternal then some e else none
  | .ok _ => none

def analyse (w : World) (s : Settings) (used : Nat) (a : Option Archive) :
    List (String × SourceUnit) → List Checked × Nat × Option Archive
  | [] => ([], used, a)
  | (path, u) :: us =>
      let c := Stage.run (u.stages (w.ids used) w.now) (.new u.label s a)
      let (cs, used, a) := w.analyse s (if c.run.isSome then used + 1 else used) c.archive us
      (⟨path, u, c⟩ :: cs, used, a)

/-- Opens the store, loads all units, analyses those that could be loaded and reports on them in
order. An internal error on the way leaves nothing but itself. -/
def check (w : World) (s : Settings) (paths : List String) : Outcome × World :=
  if paths.isEmpty then ({ code := 2, err := "check: no unit files given\n" }, w)
  else
    match w.store s.store with
    | (.error e, w) => ({ code := 1, err := "Error: " ++ e.message ++ "\n" }, w)
    | (.ok place, w) =>
        let loaded := paths.map fun p => (p, w.loadUnit p)
        let units := loaded.filterMap fun (p, r) => r.toOption.map fun u => (p, u)
        let errors := loaded.filterMap fun (_, r) =>
          match r with
          | .error e => some ("Error: " ++ e.message ++ "\n")
          | .ok _ => none
        match loaded.findSome? fun (_, r) => internalError? r with
        | some e => (.internal e.message, w)
        | none =>
            let (checked, used, a) := w.analyse s w.used (w.archive place) units
            let failed := !errors.isEmpty || checked.any (·.context.failed)
            ({ code := if failed then 1 else 0
               out := Checked.texts (.ofMode s.color) checked
               err := String.join errors ++ String.join (checked.map (·.faultText))
               notices := checked.flatMap (·.context.notices) },
             { w with used }.keep place a)

end World

end Toolchain
