import Toolchain.Analysis.Context
import Toolchain.Interface.Conformance
import Toolchain.SourceUnit
import Toolchain.Ty.WellFormed

namespace Toolchain

abbrev Stage := Context → Context

namespace Context

def readBinding (c : Context) (u : SourceUnit) (kind : String) (b : Binding) : Except Context Ty :=
  (Ty.parse b.type).mapError fun e =>
    c.add (.error .invalidType (u.span b.start b.stop) (kind ++ " " ++ b.name ++ ": " ++ e.message))

def loadVariable (u : SourceUnit) (c : Context) (b : Binding) : Context :=
  match c.readBinding u "variable" b with
  | .error c => c
  | .ok t => { c with environment := (c.environment.enterTo b.scope.toNat).bind b.name t }

def loadFunction (u : SourceUnit) (c : Context) (b : Binding) : Context :=
  match c.readBinding u "function" b with
  | .error c => c
  | .ok t =>
      { c with environment := c.environment.bindFunction b.name t }.declare b.name t
        (u.span b.start b.stop)

def loadDeclaration (u : SourceUnit) (c : Context) (b : Binding) : Context :=
  match c.readBinding u "declaration" b with
  | .error c => c
  | .ok t => c.declare b.name t (u.span b.start b.stop)

def loadDemand (u : SourceUnit) (c : Context) (d : Demand) : Context :=
  { c with environment := c.environment.constrain ⟨d.type, d.iface, u.span d.start d.stop⟩ }

end Context

namespace Stage

def load (u : SourceUnit) : Stage := fun c =>
  let c := u.vars.foldl (Context.loadVariable u) c
  let c := u.functions.foldl (Context.loadFunction u) c
  let c := u.declarations.foldl (Context.loadDeclaration u) c
  u.demands.foldl (Context.loadDemand u) c

def implementations : Stage := fun c =>
  let specs := c.settings.implementations
  let seeded := c.registry.seed
  let c := c.notify (c.registry.seedNotices ++ seeded.declareNotices specs)
  let c := { c with registry := seeded.declareAll specs }
  match firstFault specs with
  | some e => c.addFault (.signature e)
  | none => c

def describe : Ty → String
  | .absent => "missing type"
  | .generic "" _ => "unnamed generic"
  | t => "`" ++ t.render ++ "`"

def malformed? (d : Declaration) : Option Diagnostic :=
  d.type.firstMalformed.map fun t =>
    .error .invalidGeneric d.span
      ("declaration " ++ d.name ++ " has malformed type " ++ describe t)

def wellFormedness : Stage := fun c => c.addAll (c.declarations.filterMap malformed?)

def constraints : Stage := fun c =>
  let cs := c.environment.constraints
  let c := (c.notify (c.registry.solveNotices cs)).addAll (c.registry.solve cs)
  if c.settings.analysis.verifySignatures then c.addAll c.registry.conformance else c

def analysis : List Stage := [implementations, wellFormedness, constraints]

def persist (id : RunId) (now : Instant) : Stage := fun c =>
  match c.archive with
  | none => c
  | some a =>
      match a.save false id now c.label c.diagnostics with
      | .ok a => { c with archive := some a, run := some id }
      | .error e => c.addFault (.unsaved c.label e)

def runFrom (total done : Nat) : List Stage → Context → Context
  | [], c => c
  | s :: ss, c =>
      let c := s c
      if c.stops then c.notify [.stopped c.label (done + 1) total]
      else runFrom total (done + 1) ss c

def run (stages : List Stage) (c : Context) : Context := runFrom stages.length 0 stages c

def trace : List Stage → Context → List Context
  | [], _ => []
  | s :: ss, c =>
      let c := s c
      c :: if c.stops then [] else trace ss c

end Stage

end Toolchain
