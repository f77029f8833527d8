import Toolchain.Number.Basic

namespace Toolchain.Yaml

def isBlank (c : Char) : Bool := c = ' ' || c = '\t'

def isBreak (c : Char) : Bool :=
  c = '\n' || c = '\r' || c = '\u0085' || c = '\u2028' || c = '\u2029'

def endsLine : List Char → Bool
  | [] => true
  | c :: _ => isBreak c

def endsWord : List Char → Bool
  | [] => true
  | c :: _ => isBlank c || isBreak c

def breakText (c : Char) : Char := if c = '\u2028' || c = '\u2029' then c else '\n'

def orderMark : Char := '\ufeff'

def isAllowed (c : Char) : Bool :=
  c = '\t' || c = '\n' || c = '\r' || (' ' ≤ c && c ≤ '~') || c = '\u0085' ||
    ('\u00a0' ≤ c && c ≤ '\ufffd') || 0x10000 ≤ c.toNat

structure Place where
  index : Nat
  line : Nat
  column : Nat
  deriving Repr

def Place.right (p : Place) : Place := ⟨p.index + 1, p.line, p.column + 1⟩

def Place.down (p : Place) (n : Nat) : Place := ⟨p.index + n, p.line + 1, 0⟩

/-- What is left of a text of `length` characters. It comes in blocks: `ready` characters of the
rest are there, the end counting as one whenever it is asked for, and `blocks` are the sizes of
those to come. Behind these the text ends if it is `sound`, and else it cannot be read on. `marked`
tells whether the characters that were there after the last block had come began with a byte order
mark. -/
structure Source where
  rest : List Char
  length : Nat
  place : Place
  ready : Nat
  blocks : List Nat
  sound : Bool
  marked : Bool
  deriving Repr

namespace Source

def blockBytes : Nat := 512

def cut : List Char → (used : Nat) → (block : List Char) → List (List Char)
  | [], _, block => [block.reverse]
  | c :: cs, used, block =>
      if used + c.utf8Size ≤ blockBytes then cut cs (used + c.utf8Size) (c :: block)
      else block.reverse :: cut cs c.utf8Size [c]

/-- A text from its beginning, where a byte order mark does not count. No block behind one with a
character that is not allowed can be read, nor that one. -/
def ofText (s : String) : Source :=
  let blocks := match s.toList with
    | c :: cs => if c = orderMark then cut cs c.utf8Size [] else cut (c :: cs) 0 []
    | [] => []
  let good := blocks.takeWhile (·.all isAllowed)
  ⟨good.flatten, s.length, ⟨0, 0, 0⟩, 0, good.map List.length, good.length = blocks.length, false⟩

def fill (n : Nat) (sound : Bool) : (ready : Nat) → (blocks : List Nat) → Option (Nat × List Nat)
  | ready, [] => if sound then some (ready + 1, []) else none
  | ready, b :: bs => if n ≤ ready + b then some (ready + b, bs) else fill n sound (ready + b) bs

def need (s : Source) (n : Nat) : Option Source :=
  if n ≤ s.ready then some s
  else
    (fill n s.sound s.ready s.blocks).map fun (ready, blocks) =>
      { s with ready, blocks, marked := s.rest.head? = some orderMark }

def column (s : Source) : Nat := s.place.column

def skip (s : Source) : Source :=
  { s with rest := s.rest.drop 1, place := s.place.right, ready := s.ready - 1 }

def skipBreak (s : Source) : Source :=
  let n := match s.rest with
    | '\r' :: '\n' :: _ => 2
    | _ => 1
  { s with rest := s.rest.drop n, place := s.place.down n, ready := s.ready - n }

def skips : (n : Nat) → Source → Source
  | 0, s => s
  | n + 1, s => skips n s.skip

def skipWhile (p : Char → Bool) : (ahead : List Char) → Source → Option Source
  | [], s => some s
  | c :: cs, s => if p c && !isBreak c then (s.skip.need 1).bind (skipWhile p cs) else some s

def skipLine (s : Source) : Option Source :=
  (s.need 1).bind fun s => skipWhile (fun _ => true) s.rest s

def atMark (s : Source) (mark : Char) : Bool :=
  s.column = 0 && s.rest.take 3 = [mark, mark, mark] && endsWord (s.rest.drop 3)

def atDocumentMark (s : Source) : Bool := s.atMark '-' || s.atMark '.'

def lookLimit : Nat := 512

def lineComment (s : Source) : Option Source :=
  let blanks := (s.rest.takeWhile isBlank).length
  (s.need (min lookLimit (blanks + 1))).bind fun s =>
    if blanks < lookLimit && s.rest[blanks]? = some '#' then
      (skipWhile isBlank s.rest s).bind skipLine
    else some s

def blanksToComment : (limit : Nat) → List Char → Option Nat
  | 0, _ => none
  | _, [] => none
  | n + 1, c :: cs =>
      if c = '#' then some 0
      else if isBlank c || c = '\n' || c = '\r' then (blanksToComment n cs).map (· + 1)
      else none

def lookedAt (cs : List Char) : Nat :=
  let blanks := ((cs.drop 1).takeWhile fun c => isBlank c || c = '\n' || c = '\r').length
  let more := if ((cs.drop (blanks + 1)).head?.map isBreak).getD false then 3 else 2
  min lookLimit (blanks + more)

def skipGap : (count : Nat) → Source → Option Source
  | 0, s => some s
  | n + 1, s =>
      match s.rest with
      | '\r' :: '\n' :: _ => (s.need 2).bind fun s => (s.skipBreak.need 1).bind (skipGap (n - 1))
      | c :: _ =>
          if isBreak c then (s.need 2).bind fun s => (s.skipBreak.need 1).bind (skipGap n)
          else (s.skip.need 1).bind (skipGap n)
      | [] => some s

def comments : (fuel : Nat) → Source → Option Source
  | 0, s => some s
  | fuel + 1, s =>
      match s.skipLine with
      | none => none
      | some s =>
          if s.rest.head? = some '\n' || s.rest.head? = some '\r' then
            (s.need (lookedAt s.rest)).bind fun s =>
              match blanksToComment (lookLimit - 1) (s.rest.drop 1) with
              | some n => (skipGap (n + 1) s).bind (comments fuel)
              | none => some s
          else s.need 2

end Source

end Toolchain.Yaml
