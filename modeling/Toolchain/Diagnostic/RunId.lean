import Toolchain.Text.Quoted

namespace Toolchain

structure RunId where
  value : Nat
  deriving DecidableEq, Repr, Inhabited

namespace RunId

def nil : RunId := ⟨0⟩

def render (id : RunId) : String :=
  let ds := Text.hex 32 id.value
  let part := fun start n => String.ofList ((ds.drop start).take n)
  part 0 8 ++ "-" ++ part 8 4 ++ "-" ++ part 12 4 ++ "-" ++ part 16 4 ++ "-" ++ part 20 12

def ofHex? (cs : List Char) : Option RunId := (Text.readDigits? 16 cs).map (⟨·⟩)

def ofHyphenated? (cs : List Char) : Option RunId :=
  if cs.length < 36 then none
  else if [8, 13, 18, 23].all fun i => cs[i]? == some '-' then
    ofHex? ((cs.take 8) ++ ((cs.drop 9).take 4) ++ ((cs.drop 14).take 4) ++ ((cs.drop 19).take 4) ++
      ((cs.drop 24).take 12))
  else none

inductive ParseError where
  | length (bytes : Nat)
  | urn (start : List UInt8)
  | format
  deriving DecidableEq, Repr

def ParseError.message : ParseError → String
  | .length n => "invalid UUID length: " ++ Nat.repr n
  | .urn start => "invalid urn prefix: " ++ Text.quoteBytes start
  | .format => "invalid UUID format"

def orFormat : Option RunId → Except ParseError RunId
  | some id => .ok id
  | none => .error .format

/-- Accepts the hyphenated form, also after `urn:uuid:` or between braces, and 32 plain digits. -/
def parse (s : String) : Except ParseError RunId :=
  let cs := s.toList
  match s.utf8ByteSize with
  | 36 => orFormat (ofHyphenated? cs)
  | 45 =>
      if String.ofList ((cs.take 9).map Char.toLower) = "urn:uuid:" then
        orFormat (ofHyphenated? (cs.drop 9))
      else .error (.urn ((Text.utf8 s).take 9))
  | 38 =>
      if (cs.take 1).all (·.utf8Size = 1) then orFormat (ofHyphenated? (cs.drop 1))
      else .error .format
  | 32 => orFormat (ofHex? cs)
  | n => .error (.length n)

end RunId

end Toolchain
