import Toolchain.Number.Shortest
import Toolchain.Settings.Basic
import Toolchain.Text.Quoted

namespace Toolchain

inductive SettingsError where
  | negativeThreshold
  | negativeInterval
  | efficiencyBounds (low high : Double)
  | growFactor (got : Double)
  | shrinkFactor (got : Double)
  | negativeCap
  | color (got : String)
  | typeMissing (place : Nat)
  | interfaceMissing (place : Nat) (typeName : String)
  | repeated (place : Nat) (typeName iface : String) (earlier : Nat)
  | methodNameMissing (place method : Nat) (typeName : String)
  | resultMissing (place method : Nat) (typeName name : String)
  deriving DecidableEq, Repr

namespace SettingsError

def implementation (i : Nat) : String := "implementations[" ++ Nat.repr i ++ "]"

def method (i j : Nat) : String := implementation i ++ ".methods[" ++ Nat.repr j ++ "]"

def message : SettingsError → String
  | .negativeThreshold => "gc.threshold must not be negative"
  | .negativeInterval => "gc.interval must not be negative"
  | .efficiencyBounds low high =>
      "gc.low_efficiency (" ++ low.render ++ ") exceeds gc.high_efficiency (" ++ high.render ++ ")"
  | .growFactor x => "gc.grow_factor must be at least 1, got " ++ x.render
  | .shrinkFactor x => "gc.shrink_factor must be within [0, 1], got " ++ x.render
  | .negativeCap => "analysis.max_diagnostics must not be negative"
  | .color c => "diagnostics.color must be auto, always or never, got " ++ Text.quote c
  | .typeMissing i => implementation i ++ ": type is required"
  | .interfaceMissing i t => implementation i ++ " (" ++ t ++ "): interface is required"
  | .repeated i t f earlier =>
      implementation i ++ ": " ++ t ++ " implements " ++ f ++ " already declared at " ++
        implementation earlier
  | .methodNameMissing i j t => method i j ++ " (" ++ t ++ "): name is required"
  | .resultMissing i j t name => method i j ++ " (" ++ t ++ "." ++ name ++ "): returns is required"

end SettingsError

namespace Settings

def one : Double := .ofNat 1

def colors : List String := ["auto", "always", "never"]

def scalarFault (s : Settings) : Option SettingsError :=
  let t := s.gc.tuning
  if s.gc.threshold < 0 then some .negativeThreshold
  else if s.gc.interval.toInt < 0 then some .negativeInterval
  else if t.high.lt t.low then some (.efficiencyBounds t.low t.high)
  else if t.grow.lt one then some (.growFactor t.grow)
  else if one.lt t.shrink || t.shrink.lt .zero then some (.shrinkFactor t.shrink)
  else if s.analysis.cap < 0 then some .negativeCap
  else if s.color ∈ colors then none
  else some (.color s.color)

def methodFault (i j : Nat) (typeName : String) (m : MethodSpec) : Option SettingsError :=
  if m.name = "" then some (.methodNameMissing i j typeName)
  else if m.result = "" then some (.resultMissing i j typeName m.name)
  else none

def implementationKey (s : ImplementationSpec) : String := s.typeName ++ ":" ++ s.iface

def implementationFault (seen : List (String × Nat)) (i : Nat) :
    List ImplementationSpec → Option SettingsError
  | [] => none
  | s :: specs =>
      if s.typeName = "" then some (.typeMissing i)
      else if s.iface = "" then some (.interfaceMissing i s.typeName)
      else
        match seen.lookup (implementationKey s) with
        | some earlier => some (.repeated i s.typeName s.iface earlier)
        | none =>
            (s.methods.zipIdx.findSome? fun (m, j) => methodFault i j s.typeName m).or
              (implementationFault ((implementationKey s, i) :: seen) (i + 1) specs)

def fault? (s : Settings) : Option SettingsError :=
  s.scalarFault.or (implementationFault [] 0 s.implementations)

/-- Why a text gives no settings; reading one that is stuck is an error of the program itself. -/
inductive ParseError where
  | malformed
  | stuck
  | invalid (cause : SettingsError)
  deriving DecidableEq, Repr

def ParseError.message (path : String) : ParseError → String
  | .malformed => "parsing " ++ path ++ ": yaml: malformed document"
  | .stuck => Yaml.Halt.stuckMessage
  | .invalid cause => path ++ ": " ++ cause.message

def parse (s : String) : Except ParseError Settings :=
  match Yaml.Node.parse? s with
  | none => .error .malformed
  | some n =>
      if shape.halt? n = some .stuck then .error .stuck
      else
        match ofNode? n with
        | none => .error .malformed
        | some t =>
            match t.withDefaults.fault? with
            | some e => .error (.invalid e)
            | none => .ok t.withDefaults

end Settings

end Toolchain
