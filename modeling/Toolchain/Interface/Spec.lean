import Toolchain.Interface.Registry
import Toolchain.Ty.Parser

namespace Toolchain

structure MethodSpec where
  name : String
  params : List String
  result : String
  deriving DecidableEq, Repr

structure ImplementationSpec where
  typeName : String
  iface : String
  methods : List MethodSpec
  deriving DecidableEq, Repr

/-- A text that is no type; `param` is the place of a parameter, or none for the result. -/
structure SignatureError where
  iface : String
  typeName : String
  method : String
  param : Option Nat
  cause : Ty.ParseError
  deriving DecidableEq, Repr

def SignatureError.message (e : SignatureError) : String :=
  "implementation " ++ e.iface ++ " for " ++ e.typeName ++ ": method " ++ e.method ++
    (match e.param with
      | some i => " parameter " ++ Nat.repr i ++ ": "
      | none => " return: ") ++ e.cause.message

namespace ImplementationSpec

def readType (s : ImplementationSpec) (m : MethodSpec) (param : Option Nat) (text : String) :
    Except SignatureError Ty :=
  (Ty.parse text).mapError fun cause => ⟨s.iface, s.typeName, m.name, param, cause⟩

def readMethod (s : ImplementationSpec) (m : MethodSpec) : Except SignatureError Method :=
  match m.params.zipIdx.mapM fun (text, i) => s.readType m (some i) text with
  | .error e => .error e
  | .ok params => (s.readType m none m.result).map fun result => ⟨m.name, params, result, .none⟩

def read (s : ImplementationSpec) : Except SignatureError (List Method) :=
  s.methods.mapM s.readMethod

def fault? (s : ImplementationSpec) : Option SignatureError :=
  match s.read with
  | .error e => some e
  | .ok _ => none

end ImplementationSpec

namespace Registry

def declare (r : Registry) (s : ImplementationSpec) : Registry :=
  match s.read with
  | .ok methods => r.register s.typeName s.iface methods
  | .error _ => r

def declareAll (r : Registry) (specs : List ImplementationSpec) : Registry := specs.foldl declare r

def replacements (r : Registry) : List ImplementationSpec → List ImplementationSpec
  | [] => []
  | s :: specs =>
      (if s.fault?.isNone && r.implements s.typeName s.iface then [s] else []) ++
        replacements (r.declare s) specs

end Registry

def firstFault (specs : List ImplementationSpec) : Option SignatureError :=
  specs.findSome? (·.fault?)

end Toolchain
