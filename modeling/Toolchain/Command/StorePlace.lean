import Toolchain.Command.Pragma
import Toolchain.Command.StoreQuery
import Toolchain.Diagnostic.Archive
import Toolchain.Files
import Toolchain.Number.Basic
import Toolchain.Text.Hex

namespace Toolchain

inductive StorePlace where
  | nowhere
  | memory (refusal : Option Archive.Failure)
  | file (path : Path) (refusal : Option Archive.Failure)
  deriving DecidableEq, Repr

inductive StoreFault where
  | unopenable
  | misaddressed
  | denied
  | noModel
  | foreign
  | readOnly
  | full
  | option (cause : OptionFault)
  | statement (cause : StatementFault)
  deriving DecidableEq, Repr

structure StoreError where
  store : String
  cause : StoreFault
  deriving DecidableEq, Repr

def StoreFault.message : StoreFault → String
  | .unopenable => "unable to open database file: out of memory (14)"
  | .misaddressed => "SQL logic error: out of memory (1)"
  | .denied => "access permission denied: out of memory (3)"
  | .noModel => "disk I/O error: out of memory (10)"
  | .foreign => "file is not a database (26)"
  | .readOnly => "attempt to write a readonly database (8)"
  | .full => "database or disk is full (13)"
  | .option cause => cause.message
  | .statement cause => cause.message

def StoreError.message (e : StoreError) : String :=
  "initializing diagnostics store " ++ e.store ++ ": " ++ e.cause.message

inductive StoreAccess where
  | read
  | write
  | create
  | memory
  deriving DecidableEq, Repr

namespace StoreAccess

def ofName? : String → Option StoreAccess
  | "ro" => some .read
  | "rw" => some .write
  | "rwc" => some .create
  | "memory" => some .memory
  | _ => none

def rank : StoreAccess → Nat
  | .read => 0
  | .write => 1
  | .create => 2
  | .memory => 3

def allows (a b : StoreAccess) : Bool := b = .memory || b.rank ≤ a.rank

end StoreAccess

/-- What the text of a store says: the name of a file, how it is opened, the engine, if not the
usual one, whether the file is said never to change, and another file whose rights it is to have. -/
structure StoreAddress where
  name : String
  access : StoreAccess := .create
  engine : Option String := none
  fixed : Option Bool := none
  model : Option String := none
  deriving DecidableEq, Repr

namespace StoreAddress

def hexByte? (a b : UInt8) : Option UInt8 :=
  (Text.readDigits? 16 [Char.ofNat a.toNat, Char.ofNat b.toNat]).map UInt8.ofNat

/-- Bytes as a text. If they spell no characters, each one beyond ASCII stands there by its digits
behind a mark that is in no name. -/
def spell (bs : List UInt8) : String :=
  (String.fromUTF8? ⟨bs.toArray⟩).getD <| String.ofList <| bs.flatMap fun b =>
    if b < 128 then [Char.ofNat b.toNat] else '\x00' :: Text.hex 2 b.toNat

def unescapeBytes : List UInt8 → List UInt8
  | c :: a :: b :: bs =>
      match if c = 37 then hexByte? a b else none with
      | some 0 => []
      | some n => n :: unescapeBytes bs
      | none => c :: unescapeBytes (a :: b :: bs)
  | bs => bs

def nameSize (n : String) : Nat := n.utf8ByteSize - 2 * n.toList.count '\x00'

def parts : List UInt8 → List (List UInt8)
  | [] => [[]]
  | b :: bs =>
      match parts bs with
      | [] => [[b]]
      | p :: ps => if b = 47 then [] :: p :: ps else (b :: p) :: ps

def unescape (cs : List Char) : String :=
  String.intercalate "/" <|
    (parts (unescapeBytes (Text.utf8 (String.ofList cs)))).map spell

def withoutHost? : List Char → Option (List Char)
  | '/' :: '/' :: cs =>
      let host := String.ofList (cs.takeWhile (· != '/'))
      if host = "" || host = "localhost" then some (cs.dropWhile (· != '/')) else none
  | cs => some cs

def options (cs : List Char) : List (String × String) :=
  ((cs.drop 1).splitOn '&').map fun o =>
    (unescape (o.takeWhile (· != '=')), unescape ((o.dropWhile (· != '=')).drop 1))

/-- Applies an option. Of those that tell how to open the file the last one counts, of those about
the file itself the first one. -/
def withOption (a : StoreAddress) : String × String → Except StoreFault StoreAddress
  | ("mode", v) =>
      match StoreAccess.ofName? v with
      | none => .error .misaddressed
      | some b => if a.access.allows b then .ok { a with access := b } else .error .denied
  | ("vfs", v) => .ok { a with engine := some v }
  | ("cache", v) => if v = "shared" || v = "private" then .ok a else .error .misaddressed
  | ("immutable", v) => .ok { a with fixed := a.fixed <|> some (Switch.isOn v) }
  | ("modeof", v) => .ok { a with model := a.model <|> some v }
  | _ => .ok a

def ofAddress (engine : Option String) (cs : List Char) : Except StoreFault StoreAddress :=
  match withoutHost? cs with
  | none => .error .misaddressed
  | some cs =>
      let cs := cs.takeWhile (· != '#')
      let plain : StoreAddress := { name := unescape (cs.takeWhile (· != '?')), engine }
      (options (cs.dropWhile (· != '?'))).foldlM withOption plain

def ofText (s : String) (q : StoreQuery) : Except StoreFault StoreAddress :=
  match q.engine with
  | .error e => .error (.option e)
  | .ok engine =>
      match s.toList.takeWhile (· != '\x00') with
      | 'f' :: 'i' :: 'l' :: 'e' :: ':' :: cs => ofAddress engine cs
      | '?' :: cs => .ok { name := String.ofList ('?' :: cs) }
      | cs => .ok { name := String.ofList (cs.takeWhile (· != '?')), engine }

def fileEngines : List String := ["unix", "unix-none", "unix-dotfile", "unix-excl"]

def memoryEngine : String := "memdb"

def hasEngine (a : StoreAddress) : Bool :=
  a.engine.all fun e => e ∈ fileEngines || e = memoryEngine

def isNameless (a : StoreAddress) : Bool :=
  a.name = "" || a.name = ":memory:" || a.access = .memory

def inMemory (a : StoreAddress) : Bool := a.isNameless || a.engine = some memoryEngine

def isReadOnly (a : StoreAddress) : Bool :=
  a.access = .read || (!a.isNameless && a.fixed = some true)

def pathLimit : Nat := 511

def suffixSize : Nat := 7

def pathSize (p : Path) : Nat := total (p.map fun n => nameSize n + 1)

/-- Follows names by their text; no file and no path that is too long may stand on the way, not even
where `..` leads back. -/
def follow? (f : Files) : Path → List String → Option Path
  | p, [] => some p
  | p, n :: ns =>
      if n = "" || n = "." || n = ".." then follow? f (p.step n) ns
      else
        match f.get? p with
        | some (.file _) => none
        | _ =>
            if Path.nameLimit < nameSize n || pathLimit < pathSize (p.step n) then none
            else follow? f (p.step n) ns

def path (a : StoreAddress) (f : Files) (cwd : Path) : Except StoreFault Path :=
  match follow? f (.start cwd a.name) (Path.names a.name) with
  | none => .error .unopenable
  | some p =>
      if pathLimit < pathSize p + suffixSize then .error .unopenable
      else if a.model.any fun m => !(f.find cwd m).isOk then .error .noModel
      else if f.get? p.dropLast ≠ some .directory || f.get? p = some .directory then
        .error .unopenable
      else if a.access = .create || (f.get? p).isSome then .ok p
      else .error .unopenable

end StoreAddress

end Toolchain
