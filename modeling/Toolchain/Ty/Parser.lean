import Toolchain.Text.Quoted
import Toolchain.Ty.Basic
import Toolchain.Ty.Token

namespace Toolchain.Ty

namespace Parse

inductive Cause where
  | missingType
  | missingVariable
  | unexpected (c : Char)
  | expected (c : Char) (got : Option Char)
  | arity (name : String) (expected got : Nat)
  deriving DecidableEq, Repr

def Cause.message : Cause → String
  | .missingType => "expected a type, got end of input"
  | .missingVariable => "expected a type variable name after '"
  | .unexpected c => "unexpected " ++ Text.quoteChar c
  | .expected c none => "expected " ++ Text.quoteChar c ++ ", got end of input"
  | .expected c (some d) => "expected " ++ Text.quoteChar c ++ ", got " ++ Text.quoteChar d
  | .arity name n m =>
      name ++ " expects " ++ Nat.repr n ++ " type argument(s), got " ++ Nat.repr m

structure Failure where
  offset : Nat
  cause : Cause
  deriving DecidableEq, Repr

def ofName (name : String) (args : List Ty) : Except Nat Ty :=
  if name ∈ primitives then
    match args with
    | [] => .ok (.con name)
    | _ => .error 0
  else if name = selfName then
    match args with
    | [] => .ok (.var name)
    | _ => .error 0
  else
    match Unary.ofName? name, Binary.ofName? name, args with
    | some c, _, [t] => .ok (.unary c t)
    | some _, _, _ => .error 1
    | none, some c, [t, u] => .ok (.binary c t u)
    | none, some _, _ => .error 2
    | none, none, args => .ok (.generic name args)

def named (name : String) (stop : Nat) (args : List Ty) : Except Failure Ty :=
  match ofName name args with
  | .ok t => .ok t
  | .error n => .error ⟨stop, .arity name n args.length⟩

abbrev Shorter (ls : List Lexeme) := { r : List Lexeme // r.length < ls.length }

abbrev NoLonger (ls : List Lexeme) := { r : List Lexeme // r.length ≤ ls.length }

def accept? (t : Token) (ls : List Lexeme) : Option (Shorter ls) :=
  match ls with
  | [] => none
  | l :: r => if l.token = t then some ⟨r, by simp⟩ else none

def expect (fin : Nat) (c : Char) (ls : List Lexeme) : Except Failure (Shorter ls) :=
  match ls with
  | [] => .error ⟨fin, .expected c none⟩
  | l :: r =>
      if l.token = .mark c then .ok ⟨r, by simp⟩
      else .error ⟨l.start, .expected c (some l.token.firstChar)⟩

def openTuple? (name : String) (ls : List Lexeme) : Option (Shorter ls) :=
  if name = tupleName then accept? (.mark '(') ls else none

mutual
def union (fin : Nat) (ls : List Lexeme) : Except Failure (Ty × Shorter ls) :=
  match member fin ls with
  | .error e => .error e
  | .ok (t, ⟨r, _⟩) =>
      match members fin r with
      | .error e => .error e
      | .ok ([], ⟨r', _⟩) => .ok (t, ⟨r', by omega⟩)
      | .ok (u :: us, ⟨r', _⟩) => .ok (.sum (t :: u :: us), ⟨r', by omega⟩)
termination_by (ls.length, 1)
def members (fin : Nat) (ls : List Lexeme) : Except Failure (List Ty × NoLonger ls) :=
  match accept? (.mark '|') ls with
  | none => .ok ([], ⟨ls, Nat.le_refl _⟩)
  | some ⟨r, _⟩ =>
      match member fin r with
      | .error e => .error e
      | .ok (t, ⟨r', _⟩) =>
          match members fin r' with
          | .error e => .error e
          | .ok (ts, ⟨r'', _⟩) => .ok (t :: ts, ⟨r'', by omega⟩)
termination_by (ls.length, 0)
def member (fin : Nat) (ls : List Lexeme) : Except Failure (Ty × Shorter ls) :=
  match ls with
  | [] => .error ⟨fin, .missingType⟩
  | ⟨p, q, token⟩ :: r =>
      match token with
      | .mark c =>
          if c = '(' then
            match list fin ')' r with
            | .error e => .error e
            | .ok (ts, ⟨r', _⟩) =>
                match accept? .arrow r' with
                | none => .ok (.product ts, ⟨r', by simp only [List.length_cons]; omega⟩)
                | some ⟨u, _⟩ =>
                    match union fin u with
                    | .error e => .error e
                    | .ok (t, ⟨u', _⟩) =>
                        .ok (.func ts t, ⟨u', by simp only [List.length_cons]; omega⟩)
          else if c = '\x00' then .error ⟨p, .missingType⟩
          else .error ⟨p, .unexpected c⟩
      | .arrow => .error ⟨p, .unexpected '-'⟩
      | .variable name =>
          if name = "" then .error ⟨p + 1, .missingVariable⟩ else .ok (.var name, ⟨r, by simp⟩)
      | .name name =>
          match openTuple? name r with
          | some ⟨r', _⟩ =>
              match list fin ')' r' with
              | .error e => .error e
              | .ok (ts, ⟨u, _⟩) => .ok (.tuple ts, ⟨u, by simp only [List.length_cons]; omega⟩)
          | none =>
              match arguments fin r with
              | .error e => .error e
              | .ok (ts, ⟨r', _⟩) =>
                  match named name q ts with
                  | .error e => .error e
                  | .ok t => .ok (t, ⟨r', by simp only [List.length_cons]; omega⟩)
termination_by (ls.length, 0)
def arguments (fin : Nat) (ls : List Lexeme) : Except Failure (List Ty × NoLonger ls) :=
  match accept? (.mark '<') ls with
  | none => .ok ([], ⟨ls, Nat.le_refl _⟩)
  | some ⟨r, _⟩ =>
      match list fin '>' r with
      | .error e => .error e
      | .ok (ts, ⟨r', _⟩) => .ok (ts, ⟨r', by omega⟩)
termination_by (ls.length, 0)
def list (fin : Nat) (c : Char) (ls : List Lexeme) : Except Failure (List Ty × Shorter ls) :=
  match accept? (.mark c) ls with
  | some r => .ok ([], r)
  | none => items fin c ls
termination_by (ls.length, 3)
def items (fin : Nat) (c : Char) (ls : List Lexeme) : Except Failure (List Ty × Shorter ls) :=
  match union fin ls with
  | .error e => .error e
  | .ok (t, ⟨r, _⟩) =>
      match accept? (.mark ',') r with
      | some ⟨r', _⟩ =>
          match items fin c r' with
          | .error e => .error e
          | .ok (ts, ⟨r'', _⟩) => .ok (t :: ts, ⟨r'', by omega⟩)
      | none =>
          match expect fin c r with
          | .error e => .error e
          | .ok ⟨r', _⟩ => .ok ([t], ⟨r', by omega⟩)
termination_by (ls.length, 2)
end

def whole (fin : Nat) (ls : List Lexeme) : Except Failure Ty :=
  match union fin ls with
  | .error e => .error e
  | .ok (t, ⟨[], _⟩) => .ok t
  | .ok (_, ⟨l :: _, _⟩) => .error ⟨l.start, .unexpected l.token.firstChar⟩

end Parse

structure ParseError where
  input : String
  offset : Nat
  cause : Parse.Cause
  deriving DecidableEq, Repr

def ParseError.message (e : ParseError) : String :=
  "type expression " ++ Text.quote e.input ++ " at offset " ++ Nat.repr e.offset ++ ": " ++
    e.cause.message

def parse (src : String) : Except ParseError Ty :=
  match Parse.whole src.toList.length (lex 0 src.toList) with
  | .ok t => .ok t
  | .error e => .error ⟨src, e.offset, e.cause⟩

end Toolchain.Ty
