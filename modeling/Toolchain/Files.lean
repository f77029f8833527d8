namespace Toolchain

abbrev Path := List String

namespace Path

def render (p : Path) : String := "/" ++ String.intercalate "/" p

def names (s : String) : List String := (s.toList.splitOn '/').map String.ofList

def isAbsolute (s : String) : Bool := s.toList.head? = some '/'

def start (cwd : Path) (s : String) : Path := if isAbsolute s then [] else cwd

def step (p : Path) (n : String) : Path :=
  if n = "" || n = "." then p else if n = ".." then p.dropLast else p ++ [n]

def resolve (cwd : Path) (s : String) : Path := (names s).foldl step (start cwd s)

def nameLimit : Nat := 255

def textLimit : Nat := 4095

end Path

inductive Entry where
  | file (content : String)
  | directory
  deriving DecidableEq, Repr

/-- Files and directories by their paths; the directories above an entry are there as well. -/
structure Files where
  entries : List (Path × Entry)
  deriving Repr

inductive FileError where
  | missing (path : String)
  | isDirectory (path : String)
  | notDirectory (path : String)
  | tooLong (path : String)
  | invalid (path : String)
  deriving DecidableEq, Repr

def FileError.message : FileError → String
  | .missing p => "open " ++ p ++ ": no such file or directory"
  | .isDirectory p => "read " ++ p ++ ": is a directory"
  | .notDirectory p => "open " ++ p ++ ": not a directory"
  | .tooLong p => "open " ++ p ++ ": file name too long"
  | .invalid p => "open " ++ p ++ ": invalid argument"

namespace Files

def get? (f : Files) (p : Path) : Option Entry :=
  match f.entries.lookup p with
  | some e => some e
  | none => if p = [] || f.entries.any fun (q, _) => p.isPrefixOf q then some .directory else none

def walk (f : Files) (text : String) : Path → List String → Except FileError Path
  | p, [] => .ok p
  | p, n :: ns =>
      match f.get? p with
      | some .directory =>
          if Path.nameLimit < n.utf8ByteSize then .error (.tooLong text)
          else walk f text (p.step n) ns
      | some (.file _) => .error (.notDirectory text)
      | none => .error (.missing text)

def find (f : Files) (cwd : Path) (text : String) : Except FileError Entry :=
  if text = "" then .error (.missing text)
  else if text.toList.contains '\x00' then .error (.invalid text)
  else if Path.textLimit < text.utf8ByteSize then .error (.tooLong text)
  else
    match f.walk text (.start cwd text) (Path.names text) with
    | .error e => .error e
    | .ok p =>
        match f.get? p with
        | some e => .ok e
        | none => .error (.missing text)

def read (f : Files) (cwd : Path) (text : String) : Except FileError String :=
  match f.find cwd text with
  | .error e => .error e
  | .ok (.file content) => .ok content
  | .ok .directory => .error (.isDirectory text)

def findUpward (f : Files) (name : String) (dir : Path) : Option Path :=
  if (f.get? (dir ++ [name])).isSome then some (dir ++ [name])
  else if dir = [] then none
  else findUpward f name dir.dropLast
termination_by dir.length
decreasing_by
  rename_i hne
  have := List.length_pos_iff.mpr hne
  simp
  omega

end Files

end Toolchain
