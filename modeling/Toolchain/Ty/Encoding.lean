import Toolchain.Ty.Basic

namespace Toolchain

namespace Encoding

def text (s : String) : List UInt8 := s.toByteArray.data.toList

def number (n : Nat) : List UInt8 := (Nat.toDigits 10 n).map Char.toUInt8

def named (tag : UInt8) (name : String) : List UInt8 :=
  tag :: number name.utf8ByteSize ++ text ":" ++ text name

def mark : Char → UInt8 := Char.toUInt8

def bracketed (count : Nat) (body : List UInt8) : List UInt8 :=
  number count ++ mark '[' :: body ++ [mark ']']

end Encoding

def Unary.tag : Unary → Char
  | .option => 'O'
  | .vec => 'V'
  | .set => 'S'
  | .task => 'T'

def Binary.tag : Binary → Char
  | .result => 'R'
  | .map => 'M'

namespace Ty

open Encoding

mutual
def encode : Ty → List UInt8
  | .absent => [mark '0']
  | .con n => named (mark 'c') n
  | .var n => named (mark 'v') n
  | .generic n ts => named (mark 'g') n ++ mark 'a' :: bracketed ts.length (encodeAll ts)
  | .product ts => mark 'p' :: bracketed ts.length (encodeAll ts)
  | .sum ts => mark 's' :: bracketed ts.length (encodeAll ts)
  | .tuple ts => mark 't' :: bracketed ts.length (encodeAll ts)
  | .func ps r => mark 'f' :: bracketed ps.length (encodeAll ps) ++ encode r
  | .unary c t => mark 'k' :: mark c.tag :: bracketed 1 (encode t)
  | .binary c t u => mark 'k' :: mark c.tag :: bracketed 2 (encode t ++ encode u)
def encodeAll : List Ty → List UInt8
  | [] => []
  | t :: ts => encode t ++ encodeAll ts
end

def hashStep (h : UInt32) (b : UInt8) : UInt32 := (h ^^^ b.toUInt32) * 16777619

def hashSeed : UInt32 := 2166136261

def fnv1a (bytes : List UInt8) : UInt32 := bytes.foldl hashStep hashSeed

def hashBracketed (count : Nat) (body : UInt32 → UInt32) (h : UInt32) : UInt32 :=
  hashStep (body (hashStep ((number count).foldl hashStep h) (mark '['))) (mark ']')

mutual
def hashFrom (h : UInt32) : Ty → UInt32
  | .absent => hashStep h (mark '0')
  | .con n => (named (mark 'c') n).foldl hashStep h
  | .var n => (named (mark 'v') n).foldl hashStep h
  | .generic n ts =>
      hashBracketed ts.length (fun h => hashAllFrom h ts)
        (hashStep ((named (mark 'g') n).foldl hashStep h) (mark 'a'))
  | .product ts => hashBracketed ts.length (fun h => hashAllFrom h ts) (hashStep h (mark 'p'))
  | .sum ts => hashBracketed ts.length (fun h => hashAllFrom h ts) (hashStep h (mark 's'))
  | .tuple ts => hashBracketed ts.length (fun h => hashAllFrom h ts) (hashStep h (mark 't'))
  | .func ps r =>
      hashFrom (hashBracketed ps.length (fun h => hashAllFrom h ps) (hashStep h (mark 'f'))) r
  | .unary c t =>
      hashBracketed 1 (fun h => hashFrom h t) (hashStep (hashStep h (mark 'k')) (mark c.tag))
  | .binary c t u =>
      hashBracketed 2 (fun h => hashFrom (hashFrom h t) u)
        (hashStep (hashStep h (mark 'k')) (mark c.tag))
def hashAllFrom (h : UInt32) : List Ty → UInt32
  | [] => h
  | t :: ts => hashAllFrom (hashFrom h t) ts
end

def hash (t : Ty) : UInt32 := hashFrom hashSeed t

theorem foldl_bracketed (count : Nat) (bs : List UInt8) (h : UInt32) :
    (bracketed count bs).foldl hashStep h =
      hashBracketed count (fun h => bs.foldl hashStep h) h := by
  simp [bracketed, hashBracketed]

mutual
theorem hashFrom_eq (h : UInt32) (t : Ty) : hashFrom h t = t.encode.foldl hashStep h := by
  cases t <;>
    simp [hashFrom, encode, foldl_bracketed, hashFrom_eq, hashAllFrom_eq]
theorem hashAllFrom_eq (h : UInt32) (ts : List Ty) :
    hashAllFrom h ts = (encodeAll ts).foldl hashStep h := by
  cases ts <;> simp [hashAllFrom, encodeAll, hashFrom_eq, hashAllFrom_eq]
end

theorem hash_eq_fnv1a (t : Ty) : t.hash = fnv1a t.encode := hashFrom_eq _ t

end Ty

end Toolchain
