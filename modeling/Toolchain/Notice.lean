import Toolchain.Heap.Basic
import Toolchain.Interface.Spec

namespace Toolchain

inductive Notice where
  | replaced (iface typeName : String)
  | unmet (c : Constraint)
  | dropped (label : String) (d : Diagnostic)
  | stopped (label : String) (stage stages : Nat)
  | collected (c : Cycle)

def Notice.message : Notice → String
  | .replaced iface typeName => "replacing implementation of " ++ iface ++ " for " ++ typeName
  | .unmet c => "constraint " ++ c.typeName ++ ": " ++ c.iface ++ " unsatisfied"
  | .dropped label d => label ++ ": dropping diagnostic past cap: " ++ d.text
  | .stopped label i n =>
      label ++ ": stopping after stage " ++ Nat.repr i ++ " of " ++ Nat.repr n
  | .collected c => c.message

def logText (messages : List String) : String :=
  String.join (messages.map fun m =>
    "[debug] " ++ m ++ if m.endsWith "\n" then "" else "\n")

namespace Registry

def registerNotices (r : Registry) (typeName iface : String) : List Notice :=
  if r.implements typeName iface then [.replaced iface typeName] else []

def seedNotices (r : Registry) : List Notice :=
  summable.flatMap fun name => r.registerNotices name Interface.addable.name

def declareNotices (r : Registry) (specs : List ImplementationSpec) : List Notice :=
  (r.replacements specs).map fun s => .replaced s.iface s.typeName

def solveNotices (r : Registry) (cs : List Constraint) : List Notice := (r.unmet cs).map .unmet

end Registry

end Toolchain
