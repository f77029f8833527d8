import Toolchain.Number.Basic

namespace Toolchain

structure CodeFamily where
  letter : Char
  stage : String
  first : Nat
  size : Nat
  deriving DecidableEq, Repr

def codeFamilies : List CodeFamily :=
  [⟨'L', "Lexer", 1, 5⟩, ⟨'P', "Parser", 1000, 14⟩, ⟨'A', "Analyzer", 2000, 15⟩,
   ⟨'C', "Codegen", 3000, 9⟩, ⟨'R', "Runtime", 4000, 5⟩]

/-- A code by its place in the list of all codes; other numbers stand for unknown codes. -/
structure Code where
  ordinal : Int
  deriving DecidableEq, Repr, Inhabited

namespace Code

def defined : Nat := total (codeFamilies.map (·.size))

def locate : List CodeFamily → Nat → Option (CodeFamily × Nat)
  | [], _ => none
  | f :: fs, n => if n < f.size then some (f, n) else locate fs (n - f.size)

def family? (c : Code) : Option (CodeFamily × Nat) :=
  if c.ordinal < 0 then none else locate codeFamilies c.ordinal.toNat

def fourDigits (n : Nat) : String :=
  let ds := Nat.toDigits 10 n
  String.ofList (List.replicate (4 - ds.length) '0' ++ ds)

def render (c : Code) : String :=
  match c.family? with
  | some (f, n) => String.singleton f.letter ++ fourDigits (f.first + n)
  | none => "E0000"

def stage (c : Code) : String :=
  match c.family? with
  | some (f, _) => f.stage
  | none => "Unknown"

def all : List Code := (List.range defined).map fun (n : Nat) => ⟨n⟩

def parse? (s : String) : Option Code := all.find? fun c => c.render = s

def invalidType : Code := ⟨10⟩

def traitNotImplemented : Code := ⟨23⟩

def invalidGeneric : Code := ⟨27⟩

def invalidInterface : Code := ⟨29⟩

def invalidImplementation : Code := ⟨30⟩

end Code

end Toolchain
