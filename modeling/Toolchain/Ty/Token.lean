import Toolchain.Text.Blank
import Toolchain.Text.Digit
import Toolchain.Text.Letter

namespace Toolchain.Ty

open Text

def isNameStart (c : Char) : Bool := c == '_' || isLetter c

def isNameChar (c : Char) : Bool := c == '_' || c == '.' || isLetter c || isDigit c

/-- A variable is a quote and the name right after it, which may be empty here; a mark is a
character that starts no longer token. -/
inductive Token where
  | mark (c : Char)
  | arrow
  | name (text : String)
  | variable (text : String)
  deriving DecidableEq, Repr

def Token.firstChar : Token → Char
  | .mark c => c
  | .arrow => '-'
  | .name s => s.front
  | .variable _ => '\''

structure Lexeme where
  start : Nat
  stop : Nat
  token : Token
  deriving DecidableEq, Repr

theorem length_dropWhile_le (p : Char → Bool) (cs : List Char) :
    (cs.dropWhile p).length ≤ cs.length := by
  induction cs with
  | nil => simp
  | cons c cs ih =>
      rw [List.dropWhile_cons]
      split
      · simp only [List.length_cons]; omega
      · simp

def lex (pos : Nat) (cs : List Char) : List Lexeme :=
  match cs with
  | [] => []
  | c :: rest =>
      if isBlank c then lex (pos + 1) rest
      else if c = '\'' then
        let text := rest.takeWhile isNameChar
        ⟨pos, pos + 1 + text.length, .variable (String.ofList text)⟩ ::
          lex (pos + 1 + text.length) (rest.dropWhile isNameChar)
      else if isNameStart c then
        let text := rest.takeWhile isNameChar
        ⟨pos, pos + 1 + text.length, .name (String.ofList (c :: text))⟩ ::
          lex (pos + 1 + text.length) (rest.dropWhile isNameChar)
      else
        match c, rest with
        | '-', '>' :: rest' => ⟨pos, pos + 2, .arrow⟩ :: lex (pos + 2) rest'
        | c, rest => ⟨pos, pos + 1, .mark c⟩ :: lex (pos + 1) rest
termination_by cs.length
decreasing_by
  all_goals simp only [List.length_cons]
  all_goals first
    | omega
    | have := length_dropWhile_le isNameChar rest; omega

end Toolchain.Ty
