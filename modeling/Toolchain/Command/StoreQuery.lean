import Toolchain.Text.Quoted

namespace Toolchain

inductive OptionFault where
  | escape (start : List UInt8)
  | separator
  | engines (names : List (List UInt8))
  | timeFormat (value : List UInt8)
  | lock (value : List UInt8)
  deriving DecidableEq, Repr

def OptionFault.message : OptionFault → String
  | .escape start => "invalid URL escape " ++ Text.quoteBytes start
  | .separator => "invalid semicolon separator in query"
  | .engines names =>
      "conflicting vfs query parameters: [" ++ String.intercalate " " (names.map Text.shown) ++ "]"
  | .timeFormat value => "unknown _time_format " ++ Text.quoteBytes value
  | .lock value => "unknown _txlock " ++ Text.quoteBytes value

abbrev StoreQuery := List (List UInt8 × List UInt8)

namespace StoreQuery

def unescape : List Char → Except OptionFault (List UInt8)
  | [] => .ok []
  | '%' :: a :: b :: cs =>
      match Text.readDigits? 16 [a, b] with
      | some n => (unescape cs).map (UInt8.ofNat n :: ·)
      | none => .error (.escape ((Text.utf8 (String.ofList ('%' :: a :: b :: cs))).take 3))
  | '%' :: cs => .error (.escape ((Text.utf8 (String.ofList ('%' :: cs))).take 3))
  | '+' :: cs => (unescape cs).map (32 :: ·)
  | c :: cs => (unescape cs).map (Text.utf8 (String.singleton c) ++ ·)

def readOption (cs : List Char) : Except OptionFault (List UInt8 × List UInt8) := do
  return (← unescape (cs.takeWhile (· != '=')), ← unescape ((cs.dropWhile (· != '=')).drop 1))

/-- Reads the options of a store; none stand behind a question mark at the very beginning. A
semicolon in any of them is a fault before all others. -/
def ofStore (store : String) : Except OptionFault StoreQuery :=
  match store.toList with
  | '?' :: _ => .ok []
  | cs =>
      let behind := (cs.dropWhile (· != '?')).drop 1
      if behind.contains ';' then .error .separator
      else ((behind.splitOn '&').filter (· ≠ [])).mapM readOption

def values (q : StoreQuery) (name : String) : List (List UInt8) :=
  (q.filter fun (n, _) => n = Text.utf8 name).map (·.2)

def first (q : StoreQuery) (name : String) : List UInt8 := (q.values name).headD []

def agreed? : (chosen : List UInt8) → List (List UInt8) → Option (List UInt8)
  | chosen, [] => some chosen
  | chosen, n :: ns => if chosen ≠ [] && chosen ≠ n then none else agreed? n ns

def nameOf (value : List UInt8) : String := Text.shown (value.takeWhile (· != 0))

def engine (q : StoreQuery) : Except OptionFault (Option String) :=
  let names := q.values "vfs"
  match agreed? [] names with
  | none => .error (.engines names)
  | some [] => .ok none
  | some name => .ok (some (nameOf name))

def locks : List String := ["deferred", "immediate", "exclusive"]

/-- The small form of a letter; beyond ASCII there is one letter whose small form is in the name of
a lock. -/
def small (c : Char) : Char := if c = 'İ' then 'i' else c.toLower

def lock (q : StoreQuery) : String := Text.shown (q.first "_txlock")

def isEager (q : StoreQuery) : Bool := q.lock.toLower ∈ ["immediate", "exclusive"]

def pragmas (q : StoreQuery) : List String :=
  let key (s : String) : String := s.trimAscii.toString.toLower
  ((q.values "_pragma").map nameOf).mergeSort fun a b =>
    (key a).startsWith "busy_timeout" || !(key b).startsWith "busy_timeout" && key a ≤ key b

def lateFault? (q : StoreQuery) : Option OptionFault :=
  let format := q.first "_time_format"
  if format ≠ [] && format ≠ Text.utf8 "sqlite" then some (.timeFormat format)
  else if q.lock = "" || String.ofList (q.lock.toList.map small) ∈ locks then none
  else some (.lock (q.first "_txlock"))

end StoreQuery

end Toolchain
