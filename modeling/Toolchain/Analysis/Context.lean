import Toolchain.Diagnostic.Archive
import Toolchain.Notice
import Toolchain.Settings.Basic

namespace Toolchain

structure Declaration where
  name : String
  type : Ty
  span : Span
  deriving DecidableEq

inductive Fault where
  | signature (cause : SignatureError)
  | unsaved (label : String) (cause : Archive.Failure)
  | other (message : String)
  deriving DecidableEq, Repr

def Fault.message : Fault → String
  | .signature e => e.message
  | .unsaved label e => "persisting diagnostics for " ++ label ++ ": " ++ e.message
  | .other message => message

structure Context where
  label : String
  settings : Settings
  environment : Environment
  registry : Registry
  declarations : List Declaration
  diagnostics : Diagnostics
  faults : List Fault
  archive : Option Archive
  run : Option RunId
  notices : List Notice

namespace Context

def new (label : String) (settings : Settings) (archive : Option Archive) : Context :=
  { label, settings, environment := .empty, registry := .bare, declarations := [],
    diagnostics := [], faults := [], archive, run := none, notices := [] }

def isFull (c : Context) : Bool :=
  0 < c.settings.analysis.cap && c.settings.analysis.cap ≤ (c.diagnostics.length : Int)

def add (c : Context) (d : Diagnostic) : Context :=
  if c.isFull then { c with notices := c.notices ++ [.dropped c.label d] }
  else { c with diagnostics := c.diagnostics ++ [d] }

def addAll (c : Context) (ds : Diagnostics) : Context := ds.foldl add c

def addFault (c : Context) (f : Fault) : Context := { c with faults := c.faults ++ [f] }

def notify (c : Context) (ns : List Notice) : Context := { c with notices := c.notices ++ ns }

def declare (c : Context) (name : String) (type : Ty) (span : Span) : Context :=
  { c with declarations := c.declarations ++ [⟨name, type, span⟩] }

def failed (c : Context) : Bool := !c.faults.isEmpty || c.diagnostics.hasErrors

def stops (c : Context) : Bool := c.settings.analysis.stopOnError && c.failed

end Context

end Toolchain
