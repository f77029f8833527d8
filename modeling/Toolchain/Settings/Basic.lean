import Toolchain.Heap.Basic
import Toolchain.Interface.Spec
import Toolchain.Yaml.Shape

namespace Toolchain

/-- How a unit is analysed. A cap of zero is none. -/
structure AnalysisSettings where
  cap : Int
  stopOnError : Bool
  verifySignatures : Bool
  debug : Bool
  deriving DecidableEq, Repr

structure Settings where
  gc : Policy
  analysis : AnalysisSettings
  color : String
  store : String
  implementations : List ImplementationSpec
  deriving DecidableEq, Repr

open Yaml

namespace Settings

def readPolicy (n : Node) : Option Policy := do
  let fs ← n.fields?
  return {
    threshold := ← field? fs "threshold" Node.word? 0
    interval := ← field? fs "interval" Node.duration? (.ofInt 0)
    tuning := {
      low := ← field? fs "low_efficiency" Node.double? .zero
      high := ← field? fs "high_efficiency" Node.double? .zero
      grow := ← field? fs "grow_factor" Node.double? .zero
      shrink := ← field? fs "shrink_factor" Node.double? .zero } }

def noPolicy : Policy := ⟨0, .ofInt 0, .zero, .zero, .zero, .zero⟩

def readAnalysis (n : Node) : Option AnalysisSettings := do
  let fs ← n.fields?
  return {
    cap := (← field? fs "max_diagnostics" Node.word? 0).toInt
    stopOnError := ← field? fs "stop_on_error" Node.bool? false
    verifySignatures := ← field? fs "verify_signatures" Node.bool? false
    debug := ← field? fs "debug" Node.bool? false }

def noAnalysis : AnalysisSettings := ⟨0, false, false, false⟩

def readMethod (n : Node) : Option MethodSpec := do
  let fs ← n.fields?
  return {
    name := ← field? fs "name" Node.text? ""
    params := ← field? fs "params" (Node.list? Node.text?) []
    result := ← field? fs "returns" Node.text? "" }

def readImplementation (n : Node) : Option ImplementationSpec := do
  let fs ← n.fields?
  return {
    typeName := ← field? fs "type" Node.text? ""
    iface := ← field? fs "interface" Node.text? ""
    methods := ← field? fs "methods" (Node.list? readMethod) [] }

def readOutput (n : Node) : Option (String × String) := do
  let fs ← n.fields?
  return (← field? fs "color" Node.text? "", ← field? fs "store" Node.text? "")

def shape : Shape :=
  let scalars := fun (names : List String) => Shape.record (names.map fun n => (n, .scalar))
  let method := Shape.record [("name", .scalar), ("params", .list .scalar), ("returns", .scalar)]
  let implementation :=
    Shape.record [("type", .scalar), ("interface", .scalar), ("methods", .list method)]
  .record
    [("gc", scalars ["threshold", "interval", "low_efficiency", "high_efficiency", "grow_factor",
        "shrink_factor"]),
     ("analysis", scalars ["max_diagnostics", "stop_on_error", "verify_signatures", "debug"]),
     ("diagnostics", scalars ["color", "store"]),
     ("implementations", .list implementation)]

def ofNode? (n : Node) : Option Settings := do
  let fs ← n.fields?
  let gc ← field? fs "gc" readPolicy noPolicy
  let analysis ← field? fs "analysis" readAnalysis noAnalysis
  let (color, store) ← field? fs "diagnostics" readOutput ("", "")
  let implementations ← field? fs "implementations" (Node.list? readImplementation) []
  return { gc, analysis, color, store, implementations }

end Settings

def Double.orDefault (x default : Double) : Double := if x.isZero then default else x

def Policy.withDefaults (p : Policy) : Policy where
  threshold := if p.threshold = 0 then Policy.default.threshold else p.threshold
  interval := if p.interval.toInt = 0 then Policy.default.interval else p.interval
  tuning := {
    low := p.tuning.low.orDefault Policy.default.tuning.low
    high := p.tuning.high.orDefault Policy.default.tuning.high
    grow := p.tuning.grow.orDefault Policy.default.tuning.grow
    shrink := p.tuning.shrink.orDefault Policy.default.tuning.shrink }

namespace Settings

def withDefaults (s : Settings) : Settings :=
  { s with gc := s.gc.withDefaults, color := if s.color = "" then "auto" else s.color }

def default : Settings := withDefaults ⟨noPolicy, noAnalysis, "", "", []⟩

end Settings

end Toolchain
