import Toolchain.Command.Check
import Toolchain.Command.Heap
import Toolchain.Command.Runs
import Toolchain.Command.Types
import Toolchain.Settings.Search

namespace Toolchain

def usage : String :=
  "Usage: tjcore [-debug] [-config FILE] <command> [args]\n\nCommands:\n" ++
  "  check UNIT...    analyze unit files and report diagnostics\n" ++
  "  type EXPR...     parse type expressions and show their structure\n" ++
  "  runs             list persisted analysis runs\n" ++
  "  show RUN-ID      render the diagnostics of a persisted run\n" ++
  "  heap [N]         exercise the collector with N frames of bindings\n"

structure Options where
  debug : Bool := false
  config : String := ""
  deriving DecidableEq, Repr

inductive FlagResult where
  | ready (options : Options) (rest : List String)
  | help
  | configMissing
  | unknown (flag : String)
  deriving DecidableEq, Repr

def Options.read (o : Options) : List String → FlagResult
  | [] => .ready o []
  | a :: as =>
      if a.startsWith "-" then
        if a ∈ ["-debug", "--debug"] then read { o with debug := true } as
        else if a ∈ ["-config", "--config"] then
          match as with
          | [] => .configMissing
          | path :: as => read { o with config := path } as
        else if a ∈ ["-help", "--help", "-h"] then .help
        else .unknown a
      else .ready o (a :: as)

namespace World

def command (w : World) (s : Settings) (debug : Bool) (name : String) (args : List String) :
    Outcome × World :=
  match name with
  | "check" => w.check s args
  | "type" => (types args, w)
  | "runs" => w.runs s
  | "show" => w.showRun s args
  | "heap" => (heap w.clock s debug args, w)
  | "help" => ({ code := 0, out := usage }, w)
  | name => ({ code := 2, err := "unknown command " ++ Text.quote name ++ "\n" ++ usage }, w)

def run (w : World) (args : List String) : Outcome × World :=
  match Options.read {} args with
  | .help => ({ code := 0, out := usage }, w)
  | .configMissing => ({ code := 2, err := "-config needs a file\n" }, w)
  | .unknown flag => ({ code := 2, err := "unknown flag " ++ flag ++ "\n" ++ usage }, w)
  | .ready _ [] => ({ code := 2, err := usage }, w)
  | .ready o (name :: args) =>
      match Settings.loadFor w.files w.cwd o.config with
      | .error e =>
          (if e.isInternal then .internal e.message
           else { code := 1, err := "Error: " ++ e.message ++ "\n" }, w)
      | .ok s =>
          let debug := o.debug || s.analysis.debug
          let (r, w) := w.command s debug name args
          ({ r with notices := if debug then r.notices else [] }, w)

end World

end Toolchain
