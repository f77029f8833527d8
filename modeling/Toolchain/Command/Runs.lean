import Toolchain.Command.OpenStore
import Toolchain.Diagnostic.Render
import Toolchain.Time.Ago

namespace Toolchain.World

def padRight (width : Nat) (s : String) : String :=
  s ++ String.ofList (List.replicate (width - s.length) ' ')

def padLeft (width : Nat) (s : String) : String :=
  String.ofList (List.replicate (width - s.length) ' ') ++ s

def runLine (now : Instant) (r : RunRow) : String :=
  r.id.render ++ "  " ++ padRight 20 r.label ++ " " ++ padLeft 4 (Nat.repr r.count) ++
    " diagnostic(s)  " ++ Instant.ago now r.created ++ "\n"

def failure (message : String) : Outcome := { code := 1, err := "Error: " ++ message ++ "\n" }

def withArchive (w : World) (s : Settings) (command : String) (f : Archive → Outcome) :
    Outcome × World :=
  match w.store s.store with
  | (.error e, w) => (failure e.message, w)
  | (.ok place, w) =>
      match w.archive place with
      | none => ({ code := 1, err := command ++ ": diagnostics.store is not configured\n" }, w)
      | some a => (f a, w)

def runs (w : World) (s : Settings) : Outcome × World :=
  w.withArchive s "runs" fun a =>
    match a.list false with
    | .error e => failure e.message
    | .ok rows => { code := 0, out := String.join (rows.map (runLine w.now)) }

def showRun (w : World) (s : Settings) : List String → Outcome × World
  | [text] =>
      match RunId.parse text with
      | .error e => ({ code := 2, err := "show: " ++ e.message ++ "\n" }, w)
      | .ok id =>
          w.withArchive s "show" fun a =>
            match a.load false id with
            | .error e => failure e.message
            | .ok ds => { code := 0, out := String.join ((Renderer.ofMode s.color).allLines ds) }
  | _ => ({ code := 2, err := "show: expected one run id\n" }, w)

end Toolchain.World
