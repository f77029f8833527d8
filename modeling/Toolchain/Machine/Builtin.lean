import Toolchain.Heap.Collect
import Toolchain.Heap.Report

namespace Toolchain

abbrev Native := List Value → Heap → Except String Value × Heap

structure Builtin where
  name : String
  signature : Ty
  run : Native

abbrev Builtins := List Builtin

namespace Builtins

def get? (bs : Builtins) (name : String) : Option Builtin := bs.find? (·.name == name)

def register : Builtins → Builtin → Builtins
  | [], b => [b]
  | c :: cs, b =>
      if b.name = c.name then b :: cs
      else if b.name < c.name then b :: c :: cs
      else c :: register cs b

def names (bs : Builtins) : List String := bs.map (·.name)

inductive CallError where
  | unknown (name : String)
  | arity (name : String) (expected got : Nat)
  | failed (message : String)
  deriving DecidableEq, Repr

def CallError.message : CallError → String
  | .unknown name => "unknown builtin: " ++ name
  | .arity name n m => name ++ " expects " ++ Nat.repr n ++ " argument(s), got " ++ Nat.repr m
  | .failed message => message

def call (bs : Builtins) (name : String) (args : List Value) (h : Heap) :
    Except CallError Value × Heap :=
  match bs.get? name with
  | none => (.error (.unknown name), h)
  | some b =>
      let run :=
        let (r, h) := b.run args h
        (r.mapError .failed, h)
      match b.signature with
      | .func ps _ =>
          if ps.length = args.length then run
          else (.error (.arity name ps.length args.length), h)
      | _ => run

def ofHeapIn (e : Enumeration) : Builtins :=
  [⟨"gc.collect", .func [] .int, fun _ h =>
      let after := h.collectIn e
      (.ok (.int ((h.count : Int) - after.count)), after)⟩,
   ⟨"gc.count", .func [] .int, fun _ h => (.ok (.int h.count), h)⟩,
   ⟨"gc.memory", .func [] .int, fun _ h => (.ok (.int h.memory), h)⟩,
   ⟨"gc.stats", .func [] .str, fun _ h => (.ok (.str h.summary), h)⟩]

def ofHeap : Builtins := ofHeapIn .ascending

end Builtins

end Toolchain
