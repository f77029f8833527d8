import Toolchain.Command.World
import Toolchain.Machine.Builtin
import Toolchain.Machine.Frame
import Toolchain.Number.Basic
import Toolchain.Value.Render

namespace Toolchain

namespace Machine

-- In what follows `orders i` lists the roots for a collection that the object of number `i` causes.

def pushLink (orders : Nat → Enumeration) (m : Machine) (last : ObjectId) (i : Nat) :
    ObjectId × Machine :=
  let outer := if m.frames.isEmpty then none else some (m.frames.size - 1)
  m.openBoundIn (orders i) outer "link" (.vec i [.int i, .ref last])

def pushLinks (orders : Nat → Enumeration) :
    (count : Nat) → (i : Nat) → Machine → ObjectId → Machine
  | 0, _, m, _ => m
  | n + 1, i, m, last =>
      let (id, m) := m.pushLink orders last i
      pushLinks orders n (i + 1) m id

def nested (orders : Nat → Enumeration) (n : Nat) (h : Heap) : Machine :=
  let (id, m) := (Machine.ofHeap h).openBoundIn (orders 0) none "seed" (.int 0)
  pushLinks orders (n - 1) 1 m id

def closeInner (m : Machine) : (count : Nat) → (newest : Nat) → Machine
  | 0, _ => m
  | _, 0 => m
  | n + 1, f + 1 => closeInner (m.close (f + 1)) n f

def exercise (orders : Nat → Enumeration) (n : Nat) (h : Heap) : Heap :=
  ((nested orders n h).closeInner (n - n / 2) (n - 1)).heap

end Machine

namespace World

def frameCount? (s : String) : Option Nat :=
  let (negative, ds) := Decimal.readSign s.toList
  if ds.isEmpty || !ds.all Decimal.isDigit then none
  else
    let n := Decimal.digitsValue ds
    if negative || n = 0 || wordBound ≤ n then none else some n

def heapCalls : List String := ["gc.count", "gc.collect", "gc.stats"]

def callAll (bs : Builtins) : List String → Heap → String × Option String × Heap
  | [], h => ("", none, h)
  | name :: names, h =>
      match bs.call name [] h with
      | (.error e, h) => ("", some e.message, h)
      | (.ok v, h) =>
          let (out, error, h) := callAll bs names h
          (name ++ " => " ++ (v.render?).getD "" ++ "\n" ++ out, error, h)

def heapRun (orders : Nat → Enumeration) (c : Clock) (s : Settings) (debug : Bool) (n : Nat) :
    Outcome :=
  let h := Machine.exercise orders n (.empty s.gc c)
  let (out, error, h) := callAll (.ofHeapIn (orders n)) heapCalls h
  let notices := h.journal.toList.map .collected
  match error with
  | some e => { code := 1, out, err := "Error: " ++ e ++ "\n", notices }
  | none => { code := 0, out, err := if debug then h.dump else "", notices }

def heapIn (orders : Nat → Enumeration) (c : Clock) (s : Settings) (debug : Bool) :
    List String → Outcome
  | [] => heapRun orders c s debug 100
  | text :: _ =>
      match frameCount? text with
      | some n => heapRun orders c s debug n
      | none => { code := 2, err := "heap: invalid frame count " ++ Text.quote text ++ "\n" }

def heap (c : Clock) (s : Settings) (debug : Bool) (args : List String) : Outcome :=
  heapIn (fun _ => .ascending) c s debug args

def readingTime : Int := 100

def clock (w : World) : Clock := .ticking w.now readingTime

end World

end Toolchain
