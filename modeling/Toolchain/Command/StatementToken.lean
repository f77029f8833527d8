import Toolchain.Text.Hex

namespace Toolchain

inductive StatementToken where
  | blank
  | word (text : String)
  | quoted (text : String)
  | number (text : String)
  | mark (text : String)
  | illegal (text : String)
  deriving DecidableEq, Repr

namespace StatementToken

def text : StatementToken → String
  | .blank => " "
  | .word s | .quoted s | .number s | .mark s | .illegal s => s

def isBlankChar (c : Char) : Bool :=
  c = ' ' || c = '\t' || c = '\n' || c = '\x0c' || c = '\r'

def isNumeral (c : Char) : Bool := '0' ≤ c && c ≤ '9'

def isWordStart (c : Char) : Bool := c.isAlpha || c = '_' || 0x80 ≤ c.toNat

def isWordChar (c : Char) : Bool := isWordStart c || isNumeral c || c = '$'

def quotation? (q : Char) : List Char → Option Nat
  | [] => none
  | [c] => if c = q then some 1 else none
  | c :: d :: cs =>
      if c = q then if d = q then (quotation? q cs).map (· + 2) else some 1
      else (quotation? q (d :: cs)).map (· + 1)

def comment : List Char → Nat
  | '*' :: '/' :: _ => 2
  | [] => 0
  | _ :: cs => comment cs + 1

def digits (cs : List Char) : Nat := (cs.takeWhile fun c => isNumeral c || c = '_').length

def exponent : List Char → Nat
  | e :: c :: cs =>
      if e ≠ 'e' && e ≠ 'E' then 0
      else if isNumeral c then 1 + digits (c :: cs)
      else if (c = '+' || c = '-') && (cs.head?.any isNumeral) then 2 + digits cs
      else 0
  | _ => 0

def decimal (cs : List Char) : Nat :=
  let whole := digits cs
  match cs.drop whole with
  | '.' :: fraction =>
      let n := digits fraction
      whole + 1 + n + exponent (fraction.drop n)
  | rest => whole + exponent rest

def numeral : List Char → Nat
  | '0' :: x :: c :: cs =>
      if (x = 'x' || x = 'X') && (Text.hexValue? c).isSome then
        2 + ((c :: cs).takeWhile fun d => (Text.hexValue? d).isSome || d = '_').length
      else decimal ('0' :: x :: c :: cs)
  | cs => decimal cs

def operators : List String := ["->>", "->", "==", "<=", "<>", "<<", ">=", ">>", "!=", "||"]

def marks : List Char :=
  ['-', '(', ')', ';', '+', '*', '/', '%', '=', '<', '>', '|', ',', '&', '~', '.']

def first (cs : List Char) : StatementToken × Nat :=
  let taken (n : Nat) : String := String.ofList (cs.take n)
  let illegal (n : Nat) : StatementToken × Nat := (.illegal (taken n), n)
  let number : StatementToken × Nat :=
    let n := numeral cs
    let m := n + ((cs.drop n).takeWhile isWordChar).length
    if m ≠ n then illegal m
    else if (cs.take n).contains '_' then (.mark (taken n), n)
    else (.number (taken n), n)
  match cs with
  | [] => (.blank, 0)
  | '-' :: '-' :: rest => (.blank, 2 + (rest.takeWhile (· != '\n')).length)
  | '/' :: '*' :: c :: rest => (.blank, 2 + comment (c :: rest))
  | '[' :: rest =>
      let n := 1 + (rest.takeWhile (· != ']')).length
      if n < cs.length then (.quoted (taken (n + 1)), n + 1) else illegal n
  | c :: rest =>
      if isBlankChar c then (.blank, (cs.takeWhile isBlankChar).length)
      else if c = '\'' || c = '"' || c = '\x60' then
        match quotation? c rest with
        | some n => (.quoted (taken (n + 1)), n + 1)
        | none => illegal cs.length
      else if isNumeral c || (c = '.' && rest.head?.any isNumeral) then number
      else if isWordStart c then
        let n := (cs.takeWhile isWordChar).length
        (.word (taken n), n)
      else if c = '?' then
        let n := 1 + (rest.takeWhile isNumeral).length
        (.mark (taken n), n)
      else if c = '$' || c = '@' || c = '#' || c = ':' then
        let n := 1 + (rest.takeWhile isWordChar).length
        if n = 1 then illegal 1 else (.mark (taken n), n)
      else
        match operators.find? fun o => o.toList.isPrefixOf cs with
        | some o => (.mark o, o.length)
        | none => if c ∈ marks then (.mark (taken 1), 1) else illegal 1

def lex : (fuel : Nat) → List Char → List StatementToken
  | 0, _ | _, [] => []
  | fuel + 1, cs =>
      let (t, n) := first cs
      let ts := lex fuel (cs.drop n)
      if t = .blank then ts else t :: ts

def ofText (s : String) : List StatementToken := lex s.length s.toList

def undouble (q : Char) : List Char → List Char
  | c :: d :: cs => if c = q && d = q then c :: undouble q cs else c :: undouble q (d :: cs)
  | cs => cs

def name : StatementToken → String
  | .quoted s =>
      match s.toList with
      | '[' :: cs => String.ofList cs.dropLast
      | q :: cs => String.ofList (undouble q cs.dropLast)
      | [] => ""
  | t => t.text

end StatementToken

end Toolchain
