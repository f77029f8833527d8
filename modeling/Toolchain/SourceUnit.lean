import Toolchain.Diagnostic.Span
import Toolchain.Yaml.Shape

namespace Toolchain

structure Binding where
  name : String
  type : String
  scope : Int
  start : Int
  stop : Int
  deriving DecidableEq, Repr

structure Demand where
  type : String
  iface : String
  start : Int
  stop : Int
  deriving DecidableEq, Repr

structure SourceUnit where
  label : String
  file : FileId
  vars : List Binding
  functions : List Binding
  declarations : List Binding
  demands : List Demand
  deriving DecidableEq, Repr

open Yaml

namespace SourceUnit

def readEnds (n : Node) : Option (Int × Int) := do
  let fs ← n.fields?
  return ((← field? fs "start" Node.word? 0).toInt, (← field? fs "end" Node.word? 0).toInt)

def readBinding (n : Node) : Option Binding := do
  let fs ← n.fields?
  let name ← field? fs "name" Node.text? ""
  let type ← field? fs "type" Node.text? ""
  let scope ← field? fs "scope" Node.word? 0
  let (start, stop) ← field? fs "span" readEnds (0, 0)
  return { name, type, scope := scope.toInt, start, stop }

def readDemand (n : Node) : Option Demand := do
  let fs ← n.fields?
  let type ← field? fs "type" Node.text? ""
  let iface ← field? fs "interface" Node.text? ""
  let (start, stop) ← field? fs "span" readEnds (0, 0)
  return { type, iface, start, stop }

def shape : Shape :=
  let span := Shape.record [("start", .scalar), ("end", .scalar)]
  let bindings := Shape.list <|
    .record [("name", .scalar), ("type", .scalar), ("scope", .scalar), ("span", span)]
  .record
    [("label", .scalar), ("file", .scalar), ("variables", bindings), ("functions", bindings),
     ("declarations", bindings),
     ("constraints", .list (.record [("type", .scalar), ("interface", .scalar), ("span", span)]))]

def ofNode? (n : Node) : Option SourceUnit := do
  let fs ← n.fields?
  return {
    label := ← field? fs "label" Node.text? ""
    file := ← field? fs "file" Node.word32? 0
    vars := ← field? fs "variables" (Node.list? readBinding) []
    functions := ← field? fs "functions" (Node.list? readBinding) []
    declarations := ← field? fs "declarations" (Node.list? readBinding) []
    demands := ← field? fs "constraints" (Node.list? readDemand) [] }

inductive ParseError where
  | malformed
  | stuck
  | incompleteDemand (place : Nat)
  deriving DecidableEq, Repr

def ParseError.message (path : String) : ParseError → String
  | .malformed => "parsing unit " ++ path ++ ": yaml: malformed document"
  | .stuck => Halt.stuckMessage
  | .incompleteDemand i =>
      path ++ ": constraints[" ++ Nat.repr i ++ "]: type and interface are required"

def firstIncomplete (ds : List Demand) : Option Nat :=
  ds.findIdx? fun d => d.type = "" || d.iface = ""

def parse (s path : String) : Except ParseError SourceUnit :=
  match Node.parse? s with
  | none => .error .malformed
  | some n =>
      if shape.halt? n = some .stuck then .error .stuck
      else
        match ofNode? n with
        | none => .error .malformed
        | some u =>
            match firstIncomplete u.demands with
            | some i => .error (.incompleteDemand i)
            | none => .ok { u with label := if u.label = "" then path else u.label }

def span (u : SourceUnit) (start stop : Int) : Span := .ordered u.file start stop

end SourceUnit

end Toolchain
