import Toolchain.Command.StatementToken
import Toolchain.Command.Switch

namespace Toolchain

inductive StatementFault where
  | incomplete
  | unexpected (token : String)
  | unrecognized (text : String)
  | unknownSchema (name : String)
  | encoding (name : String)
  deriving DecidableEq, Repr

def StatementFault.cause : StatementFault → String
  | .incomplete => "incomplete input"
  | .unexpected t => "near \"" ++ t ++ "\": syntax error"
  | .unrecognized t => "unrecognized token: \"" ++ t ++ "\""
  | .unknownSchema n => "unknown database " ++ n
  | .encoding n => "unsupported encoding: " ++ n

def StatementFault.message (f : StatementFault) : String := "SQL logic error: " ++ f.cause ++ " (1)"

/-- A statement that tunes a store: its name in small letters, a value, if one is given, and whether
it is only about what is temporary. -/
structure Pragma where
  name : String
  value : Option String
  temporary : Bool := false
  deriving DecidableEq, Repr

namespace Pragma

def reserved : List String :=
  ["add", "all", "alter", "and", "as", "autoincrement", "between", "case", "check", "collate",
   "commit", "constraint", "create", "default", "deferrable", "delete", "distinct", "drop", "else",
   "escape", "except", "exists", "foreign", "from", "group", "having", "in", "index", "insert",
   "intersect", "into", "is", "isnull", "join", "limit", "not", "nothing", "notnull", "null", "on",
   "or", "order", "primary", "references", "returning", "select", "set", "table", "then", "to",
   "transaction", "union", "unique", "update", "using", "values", "when", "where"]

def valueWords : List String := ["on", "delete", "default"]

def starters : List String :=
  ["alter", "analyze", "attach", "begin", "commit", "create", "delete", "detach", "drop", "end",
   "explain", "insert", "reindex", "release", "replace", "rollback", "savepoint", "select",
   "update", "vacuum", "values", "with"]

def unexpected : List StatementToken → StatementFault
  | [] => .incomplete
  | .illegal s :: _ => .unrecognized s
  | t :: _ => .unexpected t.text

abbrev Reader := StateT (List StatementToken) (Except StatementFault)

def refuse {α : Type} : Reader α := fun ts => .error (unexpected ts)

def accept (mark : String) : Reader Bool := fun ts =>
  match ts with
  | t :: rest => if t = .mark mark then .ok (true, rest) else .ok (false, ts)
  | [] => .ok (false, ts)

def readName : Reader StatementToken := fun ts =>
  match ts with
  | .word s :: rest =>
      if s.toLower ∈ reserved then refuse ts else .ok (.word s, rest)
  | .quoted s :: rest => .ok (.quoted s, rest)
  | ts => refuse ts

def readNumber : Reader String := fun ts =>
  match ts with
  | .number s :: rest => .ok (s, rest)
  | ts => refuse ts

def readValue : Reader String := fun ts =>
  match ts with
  | .mark "+" :: rest => readNumber rest
  | .mark "-" :: rest => (readNumber.run rest).map fun (s, rest) => ("-" ++ s, rest)
  | .number s :: rest => .ok (s, rest)
  | .word s :: rest =>
      if s.toLower ∈ reserved && !(s.toLower ∈ valueWords) then refuse ts else .ok (s, rest)
  | ts => (readName.run ts).map fun (t, rest) => (t.name, rest)

def schemas : List String := ["main", "temp"]

def read : Reader Pragma := do
  let first ← readName
  let second ← if ← accept "." then some <$> readName else pure none
  let value ←
    if ← accept "=" then some <$> readValue
    else if ← accept "==" then some <$> readValue
    else if ← accept "(" then do
      let v ← readValue
      if ← accept ")" then pure (some v) else refuse
    else pure none
  if !(← get).isEmpty then
    if !(← accept ";") then refuse
  match second with
  | none => return { name := first.name.toLower, value }
  | some name =>
      let schema := first.name.toLower
      if schema ∈ schemas then
        return { name := name.name.toLower, value, temporary := schema = "temp" }
      else throw (.unknownSchema first.text)

def readAll : (fuel : Nat) → List StatementToken → List (Except StatementFault Pragma)
  | 0, _ | _, [] => []
  | fuel + 1, .mark ";" :: ts => readAll fuel ts
  | fuel + 1, .word s :: ts =>
      if s.toLower = "pragma" then
        match read.run ts with
        | .ok (p, rest) => .ok p :: readAll fuel rest
        | .error e => [.error e]
      else if s.toLower ∈ starters then
        readAll fuel (ts.dropWhile (· != .mark ";"))
      else [.error (.unexpected s)]
  | _, ts => [.error (unexpected ts)]

def ofText (s : String) : List (Except StatementFault Pragma) :=
  let ts := StatementToken.ofText s
  readAll (ts.length + 1) ts

inductive Touch where
  | none
  | look
  | write
  deriving DecidableEq, Repr

def numbers : List String :=
  ["application_id", "data_version", "freelist_count", "schema_version", "user_version"]

def surveys : List String :=
  ["auto_vacuum", "cache_size", "default_cache_size", "foreign_key_check", "foreign_key_list",
   "incremental_vacuum", "index_info", "index_list", "index_xinfo", "integrity_check",
   "journal_mode", "max_page_count", "optimize", "page_count", "quick_check", "synchronous",
   "table_info", "table_list", "table_xinfo", "wal_checkpoint"]

def isSurvey (p : Pragma) : Bool :=
  p.name ∈ surveys || p.name = "encoding" && p.value.isNone

def writes (p : Pragma) : Bool :=
  match p.name, p.value.map String.toLower with
  | "incremental_vacuum", _ => true
  | "journal_mode", some v => v = "wal"
  | "auto_vacuum", some v => v ∈ ["full", "incremental", "1", "2"]
  | name, some _ =>
      name ∈ ["application_id", "default_cache_size", "schema_version", "user_version"]
  | _, none => false

def touch (p : Pragma) : Touch :=
  if p.writes && !p.temporary then .write
  else if p.isSurvey || p.name ∈ numbers && !p.temporary then .look
  else .none

def protects? (p : Pragma) : Option Bool :=
  if p.name = "query_only" then p.value.map Switch.isOn else none

def encoding? (p : Pragma) : Option String := if p.name = "encoding" then p.value else none

def isWide? (encoding : String) : Option Bool :=
  let name := encoding.toLower
  if name ∈ ["utf8", "utf-8"] then some false
  else if name ∈ ["utf-16le", "utf-16be", "utf16le", "utf16be", "utf-16", "utf16"] then some true
  else none

def pageLimit? (p : Pragma) : Option Nat :=
  if p.name = "max_page_count" && !p.temporary then
    (p.value.bind fun v => Text.readDigits? 10 v.toList).filter (0 < ·)
  else none

end Pragma

end Toolchain
