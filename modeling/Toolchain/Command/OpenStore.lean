import Toolchain.Command.World

namespace Toolchain

abbrev Opening := ExceptT StoreFault (StateM World)

/-- A store that is being opened: its file, if it is not in memory, and whether the file may only be
read. Statements may have forbidden to write, limited the number of pages, and told whether texts
are to be kept in units of sixteen bits; how they are kept is settled once the tables of a file have
been seen. -/
structure OpenStore where
  path : Option Path
  readOnly : Bool
  guarded : Bool := false
  pageLimit : Option Nat := none
  wide : Bool := false
  settled : Bool := false

namespace OpenStore

def look (o : OpenStore) : Opening Unit := do
  let w ← get
  if o.path.any w.isForeign then throw .foreign

def write (o : OpenStore) : Opening Unit := do
  o.look
  if o.readOnly || o.guarded then throw .readOnly
  match o.path with
  | some p => modify fun w => if (w.archives.lookup p).isSome then w else w.put p "\x00"
  | none => pure ()

def isFounded (o : OpenStore) (w : World) : Bool := o.path.any fun p => (w.archives.lookup p).isSome

def tune (o : OpenStore) (p : Except StatementFault Pragma) : Opening OpenStore := do
  match p with
  | .error e => throw (.statement e)
  | .ok p =>
      match p.touch with
      | .none => pure ()
      | .look => o.look
      | .write => o.write
      let wide ←
        match p.encoding? with
        | none => pure o.wide
        | some e =>
            if o.settled then pure o.wide
            else
              match Pragma.isWide? e with
              | some wide => pure wide
              | none => throw (.statement (.encoding e))
      return { o with
        guarded := p.protects?.getD o.guarded
        pageLimit := p.pageLimit? <|> o.pageLimit
        wide
        settled := o.settled || p.isSurvey && o.isFounded (← get) }

def tablePages : Nat := 3

def allPages : Nat := 7

def found (o : OpenStore) : Opening Unit := do
  o.look
  if !o.isFounded (← get) then
    if o.readOnly || o.guarded then throw .readOnly
    if o.pageLimit.any (· < allPages) then
      if o.pageLimit.any (tablePages ≤ ·) then o.write
      throw .full
    if let some p := o.path then modify fun w => w.keepAt p { Archive.empty with wide := o.wide }

def refusal? (o : OpenStore) (q : StoreQuery) : Option Archive.Failure :=
  if q.lock ≠ "" && !(q.lock.toLower ∈ StoreQuery.locks) then some (.unknownLock q.lock)
  else if o.readOnly then some (.readOnly .insertRun)
  else if o.guarded then some (.readOnly (if q.isEager then .begin else .insertRun))
  else none

def place (o : OpenStore) (q : StoreQuery) : StorePlace :=
  match o.path with
  | some p => .file p (o.refusal? q)
  | none => .memory (o.refusal? q)

def ofAddress (a : StoreAddress) : Opening OpenStore := do
  if a.inMemory then return { path := none, readOnly := a.isReadOnly }
  let w ← get
  let p ← a.path w.files w.cwd
  if (w.files.get? p).isNone then set (w.put p "")
  return { path := some p, readOnly := a.isReadOnly }

def ofText (text : String) : Opening StorePlace := do
  let q ← (StoreQuery.ofStore text).mapError StoreFault.option
  let a ← StoreAddress.ofText text q
  if !a.hasEngine then throw .misaddressed
  let o ← ofAddress a
  let o ← (q.pragmas.flatMap fun s => Pragma.ofText ("pragma " ++ s)).foldlM tune o
  match q.lateFault? with
  | some e => throw (.option e)
  | none =>
      o.found
      return o.place q

end OpenStore

namespace World

def store (w : World) (text : String) : Except StoreError StorePlace × World :=
  if text = "" then (.ok .nowhere, w)
  else
    let (place, w) := (OpenStore.ofText text).run w
    (place.mapError (⟨text, ·⟩), w)

def archive (w : World) : StorePlace → Option Archive
  | .nowhere => none
  | .memory refusal => some { Archive.empty with refusal }
  | .file p refusal => some { (w.archives.lookup p).getD .empty with refusal }

def keep (w : World) : StorePlace → Option Archive → World
  | .file p none, some a => w.keepAt p a
  | _, _ => w

end World

end Toolchain
