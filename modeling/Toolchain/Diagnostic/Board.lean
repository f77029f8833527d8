import Toolchain.Diagnostic.Basic

namespace Toolchain

/-- Collections over a common pool of reports. A report merged into another collection is the same
report: what is added to it later shows in both. -/
structure Board where
  pool : Array Diagnostic
  collections : Array (List Nat)

namespace Board

def empty (n : Nat) : Board := ⟨#[], Array.replicate n []⟩

def entries (b : Board) (c : Nat) : List Nat := b.collections.getD c []

def view (b : Board) (c : Nat) : Diagnostics := (b.entries c).filterMap (b.pool[·]?)

def setEntries (b : Board) (c : Nat) (es : List Nat) : Board :=
  { b with collections := b.collections.setIfInBounds c es }

def add (b : Board) (c : Nat) (d : Diagnostic) : Board :=
  { (b.setEntries c (b.entries c ++ [b.pool.size])) with pool := b.pool.push d }

def merge (b : Board) (c other : Nat) : Board := b.setEntries c (b.entries c ++ b.entries other)

def truncate (b : Board) (c : Nat) (max : Int) : Board :=
  b.setEntries c (Diagnostics.truncate (b.entries c) max)

def clear (b : Board) (c : Nat) : Board := b.setEntries c []

def amend? (b : Board) (c i : Nat) (f : Diagnostic → Diagnostic) : Option Board := do
  let e ← (b.entries c)[i]?
  let d ← b.pool[e]?
  return { b with pool := b.pool.setIfInBounds e (f d) }

end Board

end Toolchain
