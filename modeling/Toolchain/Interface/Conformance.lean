import Toolchain.Interface.Registry
import Toolchain.Ty.Match
import Toolchain.Ty.Parser
import Toolchain.Ty.Render

namespace Toolchain.Registry

/-- The type that a name in the registry stands for; what is no type expression is a name of its
own. -/
def implementingType (name : String) : Ty :=
  match Ty.parse name with
  | .ok t => t
  | .error _ => .generic name []

/-- The method that counts if several are provided under one name: the last. -/
def provided? (methods : List Method) (name : String) : Option Method :=
  methods.reverse.find? (·.name = name)

def expected (self : Ty) (want : Method) : Ty := want.type.apply [(Ty.selfName, self)]

def conforms (self : Ty) (want got : Method) : Bool :=
  (Ty.instantiate [] (expected self want) got.type).1

def checkMethod (typeName : String) (i : Interface) (methods : List Method) (want : Method) :
    Diagnostics :=
  let self := implementingType typeName
  match provided? methods want.name with
  | none =>
      [.error .invalidImplementation i.span
        ("type " ++ typeName ++ " does not provide method " ++ want.name ++
          " required by interface " ++ i.name)]
  | some got =>
      let subject := "method " ++ want.name ++ " of " ++ i.name ++ " for " ++ typeName
      if got.params.length ≠ want.params.length then
        [.error .invalidImplementation got.span
          (subject ++ " takes " ++ Nat.repr got.params.length ++
            " parameter(s), interface declares " ++ Nat.repr want.params.length)]
      else if conforms self want got then []
      else
        [.error .invalidImplementation got.span
          (subject ++ " has signature `" ++ got.type.render ++ "`, expected `" ++
            (expected self want).render ++ "`")]

def checkImplementation (r : Registry) (typeName iface : String) : Diagnostics :=
  match r.interface? iface with
  | none =>
      [.warning .invalidImplementation .none
        ("implementation of unknown interface " ++ iface ++ " for type " ++ typeName)]
  | some i => i.methods.flatMap (checkMethod typeName i ((r.methods? typeName iface).getD []))

def conformance (r : Registry) : Diagnostics :=
  r.types.flatMap fun t => (r.interfacesOf t).flatMap (r.checkImplementation t)

end Toolchain.Registry
