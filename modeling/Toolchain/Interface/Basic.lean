import Toolchain.Diagnostic.Span
import Toolchain.Ty.Basic

namespace Toolchain

structure Method where
  name : String
  params : List Ty
  result : Ty
  span : Span
  deriving DecidableEq

def Method.type (m : Method) : Ty := .func m.params m.result

/-- Methods under a name, in the order of declaration; `Ty.selfName` stands for the implementing
type. -/
structure Interface where
  name : String
  methods : List Method
  span : Span
  deriving DecidableEq

namespace Interface

def method? (i : Interface) (name : String) : Option Method := i.methods.find? (·.name = name)

def selfVar : Ty := .var Ty.selfName

def onSelves (name : String) (result : Ty) : Method := ⟨name, [selfVar, selfVar], result, .none⟩

def addable : Interface := ⟨"Addable", [onSelves "add" selfVar], .none⟩

def eq : Interface := ⟨"Eq", [onSelves "eq" .bool], .none⟩

def order : Interface := ⟨"Order", [onSelves "lt" .bool, onSelves "gt" .bool], .none⟩

def indexable : Interface := ⟨"Indexable", [⟨"index", [selfVar, .int], .var "T", .none⟩], .none⟩

def builtin : List Interface := [addable, eq, order, indexable]

end Interface

end Toolchain
