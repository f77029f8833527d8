import Toolchain.Text.Hex
import Toolchain.Yaml.Source

namespace Toolchain.Yaml

structure Gap where
  blanks : List Char
  folded : Bool
  first : Option Char
  more : List Char
  deriving Repr

namespace Gap

def empty : Gap := ⟨[], false, none, []⟩

def continued : Gap := ⟨[], true, none, []⟩

def blank (g : Gap) (c : Char) : Gap := if g.folded then g else { g with blanks := g.blanks ++ [c] }

def lineBreak (g : Gap) (c : Char) : Gap :=
  if g.folded then { g with more := g.more ++ [c] }
  else { g with blanks := [], folded := true, first := some c }

def text (g : Gap) : List Char :=
  if g.folded then
    match g.first, g.more with
    | some '\n', [] => [' ']
    | some '\n', more => more
    | some c, more => c :: more
    | none, more => more
  else g.blanks

def read (limit : Nat) : (ahead : List Char) → Source → Gap → Option (Gap × Source)
  | '\r' :: '\n' :: cs, s, g =>
      (s.need 2).bind fun s =>
        (s.skipBreak.need 1).bind fun s => read limit cs s (g.lineBreak '\n')
  | c :: cs, s, g =>
      if isBreak c then
        (s.need 2).bind fun s =>
          (s.skipBreak.need 1).bind fun s => read limit cs s (g.lineBreak (breakText c))
      else if isBlank c then
        if c = '\t' && g.folded && s.column < limit then none
        else (s.skip.need 1).bind fun s => read limit cs s (g.blank c)
      else some (g, s)
  | [], s, g => some (g, s)

end Gap

structure Segment where
  text : List Char
  gap : Gap
  source : Source
  deriving Repr

def singleSegment : (ahead : List Char) → Source → (before : List Char) → Option Segment
  | '\x27' :: '\x27' :: cs, s, before =>
      (s.skip.skip.need 2).bind fun s => singleSegment cs s ('\x27' :: before)
  | c :: cs, s, before =>
      if c = '\x27' || endsWord [c] then some ⟨before.reverse, .empty, s⟩
      else (s.skip.need 2).bind fun s => singleSegment cs s (c :: before)
  | [], s, before => some ⟨before.reverse, .empty, s⟩

def shortEscapes : List (Char × Char) :=
  [('0', '\x00'), ('a', '\x07'), ('b', '\x08'), ('t', '\t'), ('\t', '\t'), ('n', '\n'),
   ('v', '\x0b'), ('f', '\x0c'), ('r', '\r'), ('e', '\x1b'), (' ', ' '), ('\x22', '\x22'),
   ('\x27', '\x27'), ('\\', '\\'), ('N', '\u0085'), ('_', '\u00a0'), ('L', '\u2028'),
   ('P', '\u2029')]

def escapeWidth : Char → Option Nat
  | 'x' => some 2
  | 'u' => some 4
  | 'U' => some 8
  | _ => none

def hexChar? (width : Nat) (ds : List Char) : Option Char :=
  if ds.length = width then
    match Text.readDigits? 16 ds with
    | some n => if n.isValidChar then some (Char.ofNat n) else none
    | none => none
  else none

def doubleSegment (ahead : List Char) (s : Source) (before : List Char) : Option Segment :=
  match ahead with
  | [] => some ⟨before.reverse, .empty, s⟩
  | ['\\'] => none
  | '\\' :: c :: cs =>
      if isBreak c then
        (s.need 3).map fun s => ⟨before.reverse, .continued, s.skip.skipBreak⟩
      else
        match shortEscapes.lookup c, escapeWidth c with
        | some d, _ => (s.skip.skip.need 2).bind fun s => doubleSegment cs s (d :: before)
        | none, some n =>
            (s.skip.skip.need n).bind fun s =>
              match hexChar? n (cs.take n) with
              | some d =>
                  ((s.skips n).need 2).bind fun s => doubleSegment (cs.drop n) s (d :: before)
              | none => none
        | none, none => none
  | c :: cs =>
      if c = '\x22' || endsWord [c] then some ⟨before.reverse, .empty, s⟩
      else (s.skip.need 2).bind fun s => doubleSegment cs s (c :: before)
termination_by ahead.length
decreasing_by all_goals simp only [List.length_cons, List.length_drop]; omega

/-- The text up to the closing quote, behind parts read so far, the last one first. A line that
marks a document may not stand in it. Every round but the last takes white space. -/
def quoted (segment : List Char → Source → List Char → Option Segment) (quote : Char) :
    (fuel : Nat) → Source → (before : List (List Char)) → Option (List Char × Source)
  | 0, _, _ => none
  | fuel + 1, s, before =>
      (s.need 4).bind fun s =>
        if s.atDocumentMark || s.rest.isEmpty then none
        else
          (segment s.rest s []).bind fun g =>
            (g.source.need 1).bind fun s =>
              let before := g.text :: before
              if s.rest.head? = some quote then some (before.reverse.flatten, s.skip)
              else
                (Gap.read 0 s.rest s g.gap).bind fun (gap, s) =>
                  quoted segment quote fuel s (gap.text :: before)

def endsPlain (flowing : Bool) (c : Char) (cs : List Char) : Bool :=
  endsWord [c] || (c = ':' && endsWord cs) ||
    (flowing && c ∈ [',', '?', '[', ']', '\x7b', '\x7d'])

def plainWord (flowing : Bool) :
    (ahead : List Char) → Source → (before : List Char) → Option (List Char × Source)
  | c :: cs, s, before =>
      if endsPlain flowing c cs then some (before.reverse, s)
      else (s.skip.need 2).bind fun s => plainWord flowing cs s (c :: before)
  | [], s, before => some (before.reverse, s)

structure PlainText where
  text : List Char
  broken : Bool
  source : Source
  deriving Repr

def plain (flowing : Bool) (limit : Nat) :
    (fuel : Nat) → Gap → Source → (before : List (List Char)) → Option PlainText
  | 0, _, _, _ => none
  | fuel + 1, g, s, before =>
      (s.need 4).bind fun s =>
        if s.atDocumentMark || s.rest.head? = some '#' then
          some ⟨before.reverse.flatten, g.folded, s⟩
        else
          (plainWord flowing s.rest s []).bind fun (w, s) =>
            let (before, g) := if w.isEmpty then (before, g) else (w :: g.text :: before, Gap.empty)
            if s.rest.isEmpty || !endsWord s.rest then
              some ⟨before.reverse.flatten, g.folded, s⟩
            else
              (s.need 1).bind fun s =>
                (Gap.read limit s.rest s g).bind fun (g, s) =>
                  if !flowing && s.column < limit then some ⟨before.reverse.flatten, g.folded, s⟩
                  else plain flowing limit fuel g s before

end Toolchain.Yaml
