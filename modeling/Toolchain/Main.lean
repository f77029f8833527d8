import Toolchain.Command.Line
import Toolchain.Diagnostic.ArchiveText

namespace Toolchain.Main

/-- What stands at a path; whatever exists and cannot be read is taken for a directory. -/
def look (path : String) : IO (Option Entry) := do
  try
    return some (.file (← IO.FS.readFile path))
  catch
    | .noFileOrDirectory .. => return none
    | _ => return some .directory

def addEntry (f : Files) (path : Path) : IO Files := do
  match ← look path.render with
  | some e => return ⟨(path, e) :: f.entries⟩
  | none => return f

def ancestors (p : Path) : List Path := (List.range (p.length + 1)).map p.take

/-- The part of the file system that a command line can ask for: everything on the way to its
arguments, and the settings above the working directory. -/
def snapshot (cwd : Path) (args : List String) : IO Files := do
  let named := (args.map (Path.resolve cwd)).flatMap ancestors
  let settings := (ancestors cwd).map (· ++ [Settings.fileName])
  (ancestors cwd ++ settings ++ named).eraseDups.foldlM addEntry ⟨[]⟩

def storeOf (f : Files) (cwd : Path) (args : List String) : Option String :=
  match Options.read {} args with
  | .ready o (_ :: _) => (Settings.loadFor f cwd o.config).toOption.map (·.store)
  | _ => none

def readArchive (path : Path) : IO (List (Path × Archive)) := do
  match ← look path.render with
  | some (.file s) => return ((Archive.ofText? s).map fun a => (path, a)).toList
  | _ => return []

def made (before after : Files) : List Path :=
  (after.entries.map (·.1)).filter fun p =>
    (before.get? p).isNone && after.get? p = some (.file "")

def freshId : IO RunId := do
  let bytes ← IO.getRandomBytes 16
  return ⟨bytes.toList.foldl (fun n b => 256 * n + b.toNat) 0⟩

def freshIds (n : Nat) : IO (Array RunId) := (Array.range n).mapM fun _ => freshId

end Toolchain.Main

open Toolchain Toolchain.Main in
def main (args : List String) : IO UInt32 := do
  let cwd := Path.resolve [] (← IO.currentDir).toString
  let files ← snapshot cwd args
  let store := (storeOf files cwd args).getD ""
  let place := match StoreAddress.ofText store [] with
    | .ok a => Path.resolve cwd a.name
    | .error _ => cwd
  let files ← (ancestors place).foldlM addEntry files
  let archives ← if store = "" then pure [] else readArchive place
  let ids ← freshIds args.length
  let now ← IO.monoNanosNow
  let world : World := ⟨files, cwd, archives, fun k => ids.getD k .nil, 0, now⟩
  let (outcome, after) := world.run args
  for path in made files after.files do
    IO.FS.writeFile path.render ""
  for (path, archive) in after.archives do
    IO.FS.writeFile path.render archive.toText
  IO.print outcome.out
  IO.eprint (logText (outcome.notices.map Notice.message) ++ outcome.err)
  return UInt32.ofNat outcome.code
