import Std.Data.TreeMap
import Toolchain.Diagnostic.Basic
import Toolchain.Environment
import Toolchain.Interface.Basic

namespace Toolchain

structure Registry where
  interfaces : Std.TreeMap String Interface
  implementations : Std.TreeMap String (Std.TreeMap String (List Method))

namespace Registry

def define (r : Registry) (i : Interface) : Registry :=
  { r with interfaces := r.interfaces.insert i.name i }

def bare : Registry := Interface.builtin.foldl define ⟨∅, ∅⟩

def interface? (r : Registry) (name : String) : Option Interface := r.interfaces[name]?

def interfaceNames (r : Registry) : List String := r.interfaces.keys

def methods? (r : Registry) (typeName iface : String) : Option (List Method) :=
  r.implementations[typeName]?.bind (·[iface]?)

def implements (r : Registry) (typeName iface : String) : Bool := (r.methods? typeName iface).isSome

def interfacesOf (r : Registry) (typeName : String) : List String :=
  (r.implementations[typeName]?.map (·.keys)).getD []

def types (r : Registry) : List String := r.implementations.keys

def register (r : Registry) (typeName iface : String) (methods : List Method) : Registry :=
  let others := r.implementations[typeName]?.getD ∅
  { r with implementations := r.implementations.insert typeName (others.insert iface methods) }

@[simp]
theorem interfaces_register (r : Registry) (t i : String) (ms : List Method) :
    (r.register t i ms).interfaces = r.interfaces := rfl

@[grind =]
theorem methods?_register (r : Registry) (t i t' i' : String) (ms : List Method) :
    (r.register t i ms).methods? t' i' =
      if t = t' ∧ i = i' then some ms else r.methods? t' i' := by
  unfold register methods?
  rw [Std.TreeMap.getElem?_insert]
  by_cases ht : t = t'
  · subst ht
    by_cases hi : i = i'
    · simp [hi]
    · cases h : r.implementations[t]? <;> simp [hi, Std.TreeMap.getElem?_insert]
  · simp [ht]

def summable : List String := ["int", "float", "str"]

def seed (r : Registry) : Registry :=
  summable.foldl (fun r name =>
    r.register name Interface.addable.name
      [⟨"add", [.con name, .con name], .con name, .none⟩]) r

def unmet (r : Registry) (cs : List Constraint) : List Constraint :=
  cs.filter fun c => !r.implements c.typeName c.iface

def solve (r : Registry) (cs : List Constraint) : Diagnostics :=
  (r.unmet cs).map fun c => .traitNotImplemented c.typeName c.iface c.span

end Registry

end Toolchain
