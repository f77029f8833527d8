import Toolchain.Analysis.Context
import Toolchain.Command.StorePlace

namespace Toolchain

/-- What a command finds around it: files, archives by their places, a supply of run ids of which
`used` are taken, and the time. -/
structure World where
  files : Files
  cwd : Path
  archives : List (Path × Archive)
  ids : Nat → RunId
  used : Nat
  now : Instant

structure Outcome where
  code : Nat
  out : String := ""
  err : String := ""
  notices : List Notice := []
  broken : Bool := false

def Outcome.internal (message : String) : Outcome :=
  { code := 1, err := "Internal error: " ++ message ++ "\n", broken := true }

namespace World

def put (w : World) (p : Path) (content : String) : World :=
  { w with files := ⟨(p, .file content) :: w.files.entries⟩ }

/-- Whether a file holds something else than runs. One that is empty but for a single byte holds
nothing. -/
def isForeign (w : World) (p : Path) : Bool :=
  (w.archives.lookup p).isNone &&
    match w.files.get? p with
    | some (.file content) => 1 < content.utf8ByteSize
    | _ => false

def keepAt (w : World) (p : Path) (a : Archive) : World :=
  { w.put p "\x00" with archives := (p, a) :: w.archives.filter fun (q, _) => q ≠ p }

end World

end Toolchain
