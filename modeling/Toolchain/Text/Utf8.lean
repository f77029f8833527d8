namespace Toolchain.Text

inductive Sign where
  | char (c : Char)
  | stray (b : UInt8)
  deriving DecidableEq, Repr

def utf8 (s : String) : List UInt8 := s.toUTF8.toList

def firstChar? (bs : List UInt8) : Option Char :=
  [1, 2, 3, 4].findSome? fun n =>
    (String.fromUTF8? ⟨(bs.take n).toArray⟩).bind fun s => s.toList.head?

def signs : List UInt8 → List Sign
  | [] => []
  | b :: bs =>
      match firstChar? (b :: bs) with
      | some c => .char c :: signs (bs.drop (c.utf8Size - 1))
      | none => .stray b :: signs bs
termination_by bs => bs.length

def replacement : Char := '�'

def Sign.shown : Sign → Char
  | .char c => c
  | .stray _ => replacement

def shown (bs : List UInt8) : String := String.ofList ((signs bs).map Sign.shown)

def isNoncharacter (c : Char) : Bool := c.toNat = 0xfffe || c.toNat = 0xffff

def widened (s : String) : String :=
  String.ofList (s.toList.map fun c => if isNoncharacter c then replacement else c)

end Toolchain.Text
