namespace Toolchain

abbrev FileId := Nat

structure Span where
  file : FileId
  start : Int
  stop : Int
  deriving DecidableEq, Repr, Inhabited

namespace Span

def none : Span := ⟨0, 0, 0⟩

def ordered (file : FileId) (start stop : Int) : Span :=
  if stop < start then ⟨file, stop, start⟩ else ⟨file, start, stop⟩

def length (s : Span) : Int := (Int64.ofInt (s.stop - s.start)).toInt

def isNone (s : Span) : Bool := decide (s = none)

def renderRange (s : Span) : String := Int.repr s.start ++ ".." ++ Int.repr s.stop

def render (s : Span) : String := Nat.repr s.file ++ ":" ++ s.renderRange

end Span

end Toolchain
