import Toolchain.Yaml.Scalar

namespace Toolchain.Yaml

inductive Token where
  | streamStart
  | streamEnd
  | documentStart
  | documentEnd
  | blockSequence
  | blockMapping
  | blockEnd
  | flowSequence
  | flowSequenceEnd
  | flowMapping
  | flowMappingEnd
  | item
  | comma
  | key
  | value
  | scalar (text : String) (plain : Bool)
  deriving DecidableEq, Repr

/-- A token, by its number, that turns out to begin a key if a colon follows on its line. In a block
whose keys stand in its column the colon must follow. One that is not `possible` is no candidate any
more. -/
structure Candidate where
  possible : Bool
  required : Bool
  token : Nat
  place : Place
  deriving Repr

def keyLength : Nat := 1024

def Candidate.isStale (k : Candidate) (p : Place) : Bool :=
  k.place.line < p.line || k.place.index + keyLength < p.index

def depthLimit : Nat := 10000

/-- The reading of a text so far. The first `taken` tokens have been handed out. `indent` is the
column of the innermost block and `indents` those around it, `depth` many. So many brackets as
`level` tells are open; `candidates` has an entry for each of them, innermost first, and one for the
text around them. `levels` tells for the number of a token that may begin a key how many brackets
are open around it. -/
structure Reader where
  source : Source
  tokens : Array Token
  taken : Nat
  indent : Int
  indents : List Int
  depth : Nat
  level : Nat
  candidates : List Candidate
  levels : List (Nat × Nat)
  keyAllowed : Bool
  deriving Repr

namespace Reader

def ofText (s : String) : Reader :=
  ⟨.ofText s, #[], 0, -1, [], 0, 0, [⟨false, false, 0, ⟨0, 0, 0⟩⟩], [], true⟩

def flowing (r : Reader) : Bool := 0 < r.level

def column (r : Reader) : Nat := r.source.column

def forget (r : Reader) (token : Nat) : List (Nat × Nat) := r.levels.filter fun (t, _) => t != token

def emit (r : Reader) (t : Token) (width : Nat) : Reader :=
  { r with tokens := r.tokens.push t, source := r.source.skips width }

def insert (r : Reader) (number : Nat) (t : Token) : Reader :=
  { r with
    tokens := if r.taken ≤ number then r.tokens.insertIdxIfInBounds number t else r.tokens.push t }

def skipSpace : (fuel : Nat) → Reader → Option Reader
  | 0, r => some r
  | fuel + 1, r =>
      (r.source.need 1).bind fun s =>
        ((if s.column = 0 && s.marked then s.skip else s).need 1).bind fun s =>
          let tabs := r.flowing || !r.keyAllowed
          (Source.skipWhile (fun c => c = ' ' || (tabs && c = '\t')) s.rest s).bind fun s =>
            (if s.rest.head? = some '#' then s.comments s.length else some s).bind fun s =>
              if s.rest.isEmpty || !endsLine s.rest then some { r with source := s }
              else
                (s.need 2).bind fun s =>
                  skipSpace fuel
                    { r with source := s.skipBreak, keyAllowed := r.keyAllowed || !r.flowing }

def closeBlocks (column : Int) : List Int → Reader → Reader
  | [], r => r
  | i :: is, r =>
      if column < r.indent then
        closeBlocks column is
          { r with
            indent := i, indents := is, depth := r.depth - 1, tokens := r.tokens.push .blockEnd }
      else r

def unroll (r : Reader) (column : Int) : Reader :=
  if r.flowing then r else closeBlocks column r.indents r

def roll (r : Reader) (column : Nat) (t : Token) (number : Nat) : Option Reader :=
  if r.flowing || (column : Int) ≤ r.indent then some r
  else if depthLimit ≤ r.depth then none
  else
    some { r.insert number t with
      indent := column, indents := r.indent :: r.indents, depth := r.depth + 1 }

def dropCandidate (r : Reader) : Option Reader :=
  match r.candidates with
  | k :: ks =>
      if !k.possible then some r
      else if k.required then none
      else
        some { r with candidates := { k with possible := false } :: ks, levels := r.forget k.token }
  | [] => some r

def saveCandidate (r : Reader) : Option Reader :=
  if r.keyAllowed then
    r.dropCandidate.map fun r =>
      let k : Candidate := ⟨true, !r.flowing && r.indent = r.column, r.tokens.size, r.source.place⟩
      { r with
        candidates := k :: r.candidates.tail, levels := (k.token, r.level) :: r.forget k.token }
  else some r

def colon (r : Reader) : Option Reader :=
  match r.candidates with
  | [] => none
  | k :: ks =>
      let stale := k.isStale r.source.place
      let ready : Option Reader :=
        if k.possible && stale && k.required then none
        else if k.possible && !stale then
          let r := { r with
            candidates := { k with possible := false } :: ks, levels := r.forget k.token
            keyAllowed := false }
          (r.insert k.token .key).roll k.place.column .blockMapping k.token
        else
          let r := { r with candidates := { k with possible := false } :: ks }
          if r.flowing then some { r with keyAllowed := false }
          else if r.keyAllowed then r.roll r.column .blockMapping r.tokens.size
          else none
      ready.map (·.emit .value 1)

def openBracket (r : Reader) (t : Token) : Option Reader :=
  r.saveCandidate.bind fun r =>
    if depthLimit ≤ r.level then none
    else
      let k : Candidate := ⟨false, false, r.tokens.size, r.source.place⟩
      some { r.emit t 1 with
        level := r.level + 1, candidates := k :: r.candidates, keyAllowed := true }

def closeBracket (r : Reader) (t : Token) : Option Reader :=
  r.dropCandidate.map fun r =>
    match r.flowing, r.candidates with
    | true, k :: ks =>
        { r.emit t 1 with
          level := r.level - 1, candidates := ks, levels := r.forget k.token, keyAllowed := false }
    | _, _ => { r.emit t 1 with keyAllowed := false }

def comma (r : Reader) : Option Reader :=
  r.dropCandidate.map fun r => { r.emit .comma 1 with keyAllowed := true }

def dash (r : Reader) : Option Reader :=
  if r.flowing || r.keyAllowed then
    (r.roll r.column .blockSequence r.tokens.size).bind fun r =>
      r.dropCandidate.map fun r => { r.emit .item 1 with keyAllowed := true }
  else none

def question (r : Reader) : Option Reader :=
  if r.flowing || r.keyAllowed then
    (r.roll r.column .blockMapping r.tokens.size).bind fun r =>
      r.dropCandidate.map fun r => { r.emit .key 1 with keyAllowed := !r.flowing }
  else none

def documentMark (r : Reader) (t : Token) : Option Reader :=
  (r.unroll (-1)).dropCandidate.map fun r => { r.emit t 3 with keyAllowed := false }

def finish (r : Reader) : Option Reader :=
  let p := r.source.place
  let place := if p.column = 0 then p else ⟨p.index, p.line + 1, 0⟩
  let r : Reader := { r with source := { r.source with place } }
  (r.unroll (-1)).dropCandidate.map fun r => { r.emit .streamEnd 0 with keyAllowed := false }

def quotedScalar (r : Reader) (quote : Char)
    (segment : List Char → Source → List Char → Option Segment) : Option Reader :=
  r.saveCandidate.bind fun r =>
    (quoted segment quote (r.source.length + 1) r.source.skip []).map fun (t, source) =>
      { r with
        source, keyAllowed := false, tokens := r.tokens.push (.scalar (String.ofList t) false) }

def plainScalar (r : Reader) : Option (Reader × Bool) :=
  r.saveCandidate.bind fun r =>
    let s := r.source
    (plain r.flowing (r.indent + 1).toNat (s.length + 1) .empty s []).map fun p =>
      let token := Token.scalar (String.ofList p.text) true
      ({ r with source := p.source, keyAllowed := p.broken, tokens := r.tokens.push token },
       p.broken)

def indicators : List Char :=
  ['-', '?', ':', ',', '[', ']', '\x7b', '\x7d', '#', '&', '*', '!', '|', '>', '\x27', '\x22', '%',
   '@', '\x60']

def startsPlain (flowing : Bool) (c : Char) (cs : List Char) : Bool :=
  !(endsWord [c] || c ∈ indicators) || (c = '-' && !endsWord cs) ||
    (!flowing && (c = '?' || c = ':') && !endsWord cs)

def withComment (r : Option Reader) : Option Reader :=
  r.bind fun r => r.source.lineComment.map fun source => { r with source }

/-- The token that begins with the given characters. Anchors, tags, directives and block scalars are
not part of the language read here. -/
def token (r : Reader) : List Char → Option Reader
  | [] => r.finish
  | c :: cs =>
      if r.source.atMark '-' then r.documentMark .documentStart
      else if r.source.atMark '.' then r.documentMark .documentEnd
      else if c = '[' then withComment (r.openBracket .flowSequence)
      else if c = '\x7b' then withComment (r.openBracket .flowMapping)
      else if c = ']' then withComment (r.closeBracket .flowSequenceEnd)
      else if c = '\x7d' then withComment (r.closeBracket .flowMappingEnd)
      else if c = ',' then withComment r.comma
      else if c = '-' && endsWord cs then r.dash
      else if c = '?' && (r.flowing || endsWord cs) then withComment r.question
      else if c = ':' && (r.flowing || endsWord cs) then withComment r.colon
      else if c = '\x27' then withComment (r.quotedScalar '\x27' singleSegment)
      else if c = '\x22' then withComment (r.quotedScalar '\x22' doubleSegment)
      else if startsPlain r.flowing c cs then
        r.plainScalar.bind fun (r, broken) => if broken then some r else withComment (some r)
      else none

def fetch (r : Reader) : Option Reader :=
  (r.source.need 1).bind fun source =>
    let r := { r with source }
    if r.tokens.isEmpty then some (r.emit .streamStart 0)
    else
      (r.skipSpace (r.source.length + 1)).bind fun r =>
        let r := r.unroll r.column
        (r.source.need 4).bind fun source =>
          let r : Reader := { r with source }
          r.token source.rest

def pending (r : Reader) : Option (Bool × Reader) :=
  match r.levels.lookup r.taken with
  | none => some (false, r)
  | some level =>
      if r.level < level then none
      else
        let i := r.level - level
        match r.candidates[i]? with
        | none => none
        | some k =>
            if !k.possible then some (false, r)
            else if !k.isStale r.source.place then some (true, r)
            else if k.required then none
            else
              some (false, { r with candidates := r.candidates.set i { k with possible := false } })

def settle : (fuel : Nat) → Reader → Option Reader
  | 0, r => some r
  | fuel + 1, r =>
      if r.tokens.size < r.taken + 3 then r.fetch.bind (settle fuel)
      else
        r.pending.bind fun (more, r) => if more then r.fetch.bind (settle fuel) else some r

def peek (r : Reader) : Option (Token × Reader) :=
  (settle (r.source.length + 8) r).bind fun r => r.tokens[r.taken]?.map fun t => (t, r)

def advance (r : Reader) : Reader := { r with taken := r.taken + 1 }

end Reader

end Toolchain.Yaml
