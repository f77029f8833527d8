import Toolchain.Diagnostic.Span
import Toolchain.Ty.Basic

namespace Toolchain

abbrev Scope := List (String × Ty)

structure Constraint where
  typeName : String
  iface : String
  span : Span
  deriving DecidableEq, Repr

/-- What is known by name while a unit is checked. `scopes` are the open scopes, the innermost
first; functions share one name space. -/
structure Environment where
  globals : Scope
  scopes : List Scope
  functions : Scope
  constraints : List Constraint
  deriving Repr

namespace Environment

def empty : Environment := ⟨[], [], [], []⟩

def depth (e : Environment) : Nat := e.scopes.length

def enter (e : Environment) : Environment := { e with scopes := [] :: e.scopes }

def exit (e : Environment) : Environment := { e with scopes := e.scopes.tail }

def enterTo (e : Environment) (n : Nat) : Environment :=
  { e with scopes := List.replicate (n - e.depth) [] ++ e.scopes.drop (e.depth - n) }

def bind (e : Environment) (name : String) (t : Ty) : Environment :=
  match e.scopes with
  | [] => { e with globals := (name, t) :: e.globals }
  | s :: ss => { e with scopes := ((name, t) :: s) :: ss }

def lookup (e : Environment) (name : String) : Option Ty :=
  (e.scopes.findSome? (·.lookup name)).or (e.globals.lookup name)

def bindFunction (e : Environment) (name : String) (t : Ty) : Environment :=
  { e with functions := (name, t) :: e.functions }

def lookupFunction (e : Environment) (name : String) : Option Ty := e.functions.lookup name

def constrain (e : Environment) (c : Constraint) : Environment :=
  { e with constraints := e.constraints ++ [c] }

def clearConstraints (e : Environment) : Environment := { e with constraints := [] }

@[simp]
theorem depth_enter (e : Environment) : e.enter.depth = e.depth + 1 := rfl

@[simp]
theorem depth_exit (e : Environment) : e.exit.depth = e.depth - 1 := by
  simp [exit, depth]

@[simp]
theorem exit_enter (e : Environment) : e.enter.exit = e := rfl

@[simp]
theorem depth_bind (e : Environment) (name : String) (t : Ty) :
    (e.bind name t).depth = e.depth := by
  unfold bind depth
  split <;> simp_all

@[simp]
theorem functions_bind (e : Environment) (name : String) (t : Ty) :
    (e.bind name t).functions = e.functions := by
  unfold bind
  split <;> rfl

@[simp]
theorem constraints_bind (e : Environment) (name : String) (t : Ty) :
    (e.bind name t).constraints = e.constraints := by
  unfold bind
  split <;> rfl

@[simp]
theorem depth_enterTo (e : Environment) (n : Nat) : (e.enterTo n).depth = n := by
  simp only [enterTo, depth, List.length_append, List.length_replicate, List.length_drop]
  omega

end Environment

end Toolchain
