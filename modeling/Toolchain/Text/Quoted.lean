import Toolchain.Text.Hex
import Toolchain.Text.Printable
import Toolchain.Text.Utf8

namespace Toolchain.Text

def shortEscape (c : Char) : Option Char :=
  if c = '"' then some '"'
  else if c = '\\' then some '\\'
  else if c = '\x07' then some 'a'
  else if c = '\x08' then some 'b'
  else if c = '\x0c' then some 'f'
  else if c = '\n' then some 'n'
  else if c = '\r' then some 'r'
  else if c = '\t' then some 't'
  else if c = '\x0b' then some 'v'
  else none

def escape (c : Char) : List Char :=
  match shortEscape c with
  | some d => ['\\', d]
  | none =>
      if isPrintable c then [c]
      else if c.toNat < 0x80 then '\\' :: 'x' :: hex 2 c.toNat
      else if c.toNat < 0x10000 then '\\' :: 'u' :: hex 4 c.toNat
      else '\\' :: 'U' :: hex 8 c.toNat

def quote (s : String) : String :=
  String.ofList ('"' :: s.toList.flatMap escape ++ ['"'])

def escapeSign : Sign → List Char
  | .char c => escape c
  | .stray b => '\\' :: 'x' :: hex 2 b.toNat

def quoteBytes (bs : List UInt8) : String :=
  String.ofList ('"' :: (signs bs).flatMap escapeSign ++ ['"'])

def quoteChar (c : Char) : String := quote (String.singleton c)

end Toolchain.Text
